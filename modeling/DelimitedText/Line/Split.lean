import DelimitedText.Line.Scanner
import DelimitedText.Notice

/-!
# Splitting one line into its fields

The empty text has no fields; any other holds one record, which ends at the first line break outside quotes. What
follows that line break is passed over.
-/

namespace DelimitedText

/-- The fields of one line. -/
def splitLine (line : String) (delimiter : Char) (lineBreaks : LineBreaks := .escaped) :
    Except Error (List String) :=
  match (Scanner.start delimiter lineBreaks 1).scan line.toList with
  | .record fields _ _ => .ok fields
  | .misplaced error _ _ => .error error
  | .unfinished s =>
    if s.isQuoteOpen then .error (.misplacedQuote s.line line.length s.field)
    else .ok (s.finish.getD [])

/-- What splitting a line reports. -/
def splitNotices (line : String) (delimiter : Char) (lineBreaks : LineBreaks := .escaped) : List Notice :=
  match (Scanner.start delimiter lineBreaks 1).scan line.toList with
  | .record _ _ (c :: rest) => [.ignoredCharacters (c :: rest).length]
  | _ => []

end DelimitedText
