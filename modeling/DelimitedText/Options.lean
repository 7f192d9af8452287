import DelimitedText.Error

/-!
# How delimited lines are written and read

A `Delimiter` is a character that neither quoting nor line breaks use; the type carries the proof. `LineBreaks` says
how a line break inside a quoted field is represented, and `Options` joins the two with the question whether the first
record of a stream is a header.
-/

namespace DelimitedText

/-- The character that opens and closes a quoted field, and is doubled inside it. -/
def quote : Char := '"'

/-- Whether `c` is one of the two characters that break a line. -/
def isLineBreak (c : Char) : Bool :=
  c = '\n' || c = '\r'

/-- Whether `c` may stand between two fields without ambiguity. -/
def isDelimiter (c : Char) : Bool :=
  !(c = quote || isLineBreak c)

/-- A character that separates fields. -/
structure Delimiter where
  char : Char
  valid : isDelimiter char = true
  deriving DecidableEq

namespace Delimiter

def comma : Delimiter := ⟨',', by decide⟩

def tab : Delimiter := ⟨'\t', by decide⟩

def pipe : Delimiter := ⟨'|', by decide⟩

def semicolon : Delimiter := ⟨';', by decide⟩

instance : Inhabited Delimiter := ⟨comma⟩

/-- The delimiter `c`, unless `c` is a quote or a line break. -/
def ofChar (c : Char) : Except Error Delimiter :=
  if h : isDelimiter c = true then .ok ⟨c, h⟩ else .error (.invalidDelimiter c)

end Delimiter

/-- How a line break inside a quoted field is represented. -/
inductive LineBreaks where
  /-- as a backslash and the letter `n` or `r`, so that a record is one physical line -/
  | escaped
  /-- as it is, so that a record may take several physical lines -/
  | raw
  deriving Repr, DecidableEq, Inhabited

/-- The conventions of one stream of records. -/
structure Options where
  delimiter : Delimiter := .comma
  lineBreaks : LineBreaks := .escaped
  /-- whether the first record holds the names of the columns -/
  hasHeader : Bool := false
  deriving DecidableEq, Inhabited

end DelimitedText
