import DelimitedText.Text.Unprintable

/-!
# Texts as diagnostics show them

A text that an error message repeats stands between quotes and is made of visible characters only: the characters with
a short escape take it, and every other unprintable one is written by its code point.
-/

namespace DelimitedText.Text

/-- A code point in lower-case hexadecimal, between braces. -/
def codePoint (c : Char) : List Char :=
  ['\\', 'u', '\x7b'] ++ Nat.toDigits 16 c.toNat ++ ['\x7d']

/-- The form of one character inside quotes of the kind `mark`; only that kind of quote is escaped. -/
def shown (mark c : Char) : List Char :=
  if c = '\x00' then ['\\', '0']
  else if c = '\t' then ['\\', 't']
  else if c = '\r' then ['\\', 'r']
  else if c = '\n' then ['\\', 'n']
  else if c = '\\' || c = mark then ['\\', c]
  else if isUnprintable c then codePoint c
  else [c]

/-- A text between double quotes. -/
def quotedText (s : String) : String :=
  String.ofList ('"' :: s.toList.flatMap (shown '"') ++ ['"'])

/-- A character between single quotes. -/
def quotedChar (c : Char) : String :=
  String.ofList ('\x27' :: shown '\x27' c ++ ['\x27'])

end DelimitedText.Text
