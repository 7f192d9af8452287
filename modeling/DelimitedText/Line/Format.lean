import DelimitedText.Options

/-!
# Writing fields as one line

A field that holds a quote, a line break or the delimiter is written between quotes, with each quote in it doubled;
under `LineBreaks.escaped` its line breaks become a backslash and a letter. Any other field is written as it is.
A line is its fields with the delimiter between them.
-/

namespace DelimitedText

/-- Whether `value` has to be quoted to be read back as one field. -/
def needsQuoting (value : List Char) (delimiter : Char) : Bool :=
  value.any fun c => c = quote || isLineBreak c || c = delimiter

/-- One character of a quoted field. -/
def quotedForm (lineBreaks : LineBreaks) (c : Char) : List Char :=
  if c = quote then [quote, quote]
  else if lineBreaks = .escaped && c = '\r' then ['\\', 'r']
  else if lineBreaks = .escaped && c = '\n' then ['\\', 'n']
  else [c]

/-- The quoted form of a field. -/
def enquote (value : List Char) (lineBreaks : LineBreaks) : List Char :=
  quote :: value.flatMap (quotedForm lineBreaks) ++ [quote]

/-- The written form of a field. -/
def fieldForm (delimiter : Char) (lineBreaks : LineBreaks) (value : List Char) : List Char :=
  if needsQuoting value delimiter then enquote value lineBreaks else value

/-- The written form of a list of fields. -/
def lineForm (delimiter : Char) (lineBreaks : LineBreaks) : List (List Char) → List Char
  | [] => []
  | [value] => fieldForm delimiter lineBreaks value
  | value :: rest => fieldForm delimiter lineBreaks value ++ delimiter :: lineForm delimiter lineBreaks rest

/-- Writes one field. -/
def escape (value : String) (delimiter : Char) (lineBreaks : LineBreaks := .escaped) : String :=
  String.ofList (fieldForm delimiter lineBreaks value.toList)

/-- Writes fields as one line, without a line break at its end. -/
def formatLine (fields : List String) (delimiter : Char) (lineBreaks : LineBreaks := .escaped) : String :=
  String.ofList (lineForm delimiter lineBreaks (fields.map String.toList))

end DelimitedText
