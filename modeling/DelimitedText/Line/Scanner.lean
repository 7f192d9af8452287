import DelimitedText.Options

/-!
# The scanner of delimited text

`Scanner.feed` takes one character and yields a `Step`: more text is needed, the record is complete, or a quote is out
of place. `Scanner.scan` feeds a whole text and keeps what is left of it. The scanner does not know where its text comes
from; splitting one line and reading a stream differ only in what they do when the text runs out.

Outside quotes a delimiter ends the field and a line break ends the record. Inside quotes both are content, a doubled
quote stands for one, and under `LineBreaks.escaped` a backslash with `n` or `r` stands for a line break.
-/

namespace DelimitedText

/-- Where the scanner stands within the current field. -/
inductive Scanner.Mode where
  /-- before its first character -/
  | fieldStart
  /-- inside a field written without quotes -/
  | bare
  /-- inside quotes -/
  | quoted
  /-- behind a quote inside quotes, which closes the field unless another one follows -/
  | quoteSeen
  deriving Repr, DecidableEq

/-- The state between two characters. -/
structure Scanner where
  delimiter : Char
  lineBreaks : LineBreaks
  /-- the physical line of the next character, counted by line feeds -/
  line : Nat
  /-- how many characters of that line were fed -/
  column : Nat := 0
  mode : Scanner.Mode := .fieldStart
  /-- the current field, as far as it is decoded -/
  field : String := ""
  /-- the fields before it -/
  fields : List String := []
  /-- a backslash inside quotes whose meaning depends on the next character -/
  pendingBackslash : Bool := false
  /-- whether any character was fed -/
  started : Bool := false
  deriving Repr, DecidableEq

/-- What one character leads to. -/
inductive Scanner.Step where
  | more (next : Scanner)
  | record (fields : List String)
  | misplaced (error : Error)
  deriving Repr, DecidableEq

/-- What a text leads to; `rest` is what was not fed, and `line` the physical line of the last character that was. -/
inductive Scanner.Outcome where
  | unfinished (next : Scanner)
  | record (fields : List String) (line : Nat) (rest : List Char)
  | misplaced (error : Error) (line : Nat) (rest : List Char)
  deriving Repr, DecidableEq

namespace Scanner

/-! ## One character -/

/-- The state before the first character of a record that begins on the given line. -/
def start (delimiter : Char) (lineBreaks : LineBreaks) (line : Nat) : Scanner :=
  { delimiter, lineBreaks, line }

/-- The same state one character on. -/
def moved (s : Scanner) (c : Char) : Scanner :=
  if c = '\n' then { s with line := s.line + 1, column := 0, started := true }
  else { s with column := s.column + 1, started := true }

/-- Appends a character to the current field. -/
def push (s : Scanner) (c : Char) : Scanner :=
  { s with field := s.field.push c }

/-- Completes the current field. -/
def closeField (s : Scanner) : Scanner :=
  { s with fields := s.fields ++ [s.field], field := "", mode := .fieldStart }

/-- The error at the next character, with the given text of the current field. -/
def misplacedQuote (s : Scanner) (context : String) : Error :=
  .misplacedQuote s.line (s.column + 1) context

/-- A character inside quotes that no backslash precedes. -/
def feedQuotedPlain (s : Scanner) (c : Char) : Scanner :=
  if c = quote then { s with mode := .quoteSeen }
  else if c = '\\' && s.lineBreaks = .escaped then { s with pendingBackslash := true }
  else s.push c

/-- A character inside quotes. A backslash is content unless it makes a line break with the letter behind it. -/
def feedQuoted (s : Scanner) (c : Char) : Scanner :=
  if s.pendingBackslash then
    let s := { s with pendingBackslash := false }
    if c = 'n' then s.push '\n'
    else if c = 'r' then s.push '\r'
    else (s.push '\\').feedQuotedPlain c
  else s.feedQuotedPlain c

/-- A character outside quotes: the delimiter, a line break, or what `otherwise` says. -/
def feedOutside (s : Scanner) (c : Char) (otherwise : Step) : Step :=
  if c = s.delimiter then .more (s.closeField.moved c)
  else if isLineBreak c then .record s.closeField.fields
  else otherwise

/-- Feeds one character. -/
def feed (s : Scanner) (c : Char) : Step :=
  match s.mode with
  | .fieldStart =>
    if c = quote then .more ({ s with mode := .quoted }.moved c)
    else s.feedOutside c (.more (({ s with mode := .bare }.push c).moved c))
  | .bare =>
    if c = quote then .misplaced (s.misplacedQuote (s.field.push c))
    else s.feedOutside c (.more ((s.push c).moved c))
  | .quoted => .more ((s.feedQuoted c).moved c)
  | .quoteSeen =>
    if c = quote then .more (({ s with mode := .quoted }.push quote).moved c)
    else s.feedOutside c (.misplaced (s.misplacedQuote s.field))

/-! ## A whole text -/

/-- The text behind the line break `c`; a carriage return takes a line feed with it. -/
def behindBreak (c : Char) : List Char → List Char
  | [] => []
  | next :: rest => if c = '\r' && next = '\n' then rest else next :: rest

/-- Feeds a text up to the end of the record. -/
def scan (s : Scanner) : List Char → Outcome
  | [] => .unfinished s
  | c :: rest =>
    match s.feed c with
    | .more next => next.scan rest
    | .record fields => .record fields s.line (behindBreak c rest)
    | .misplaced error => .misplaced error s.line rest

theorem length_behindBreak (c : Char) (text : List Char) : (behindBreak c text).length ≤ text.length := by
  cases text with
  | nil => simp [behindBreak]
  | cons next rest =>
    simp only [behindBreak]
    split <;> simp

/-- A record that is complete used up at least the character that completed it. -/
theorem length_lt_of_scan_eq_record {s : Scanner} {text rest : List Char} {fields : List String} {line : Nat}
    (h : s.scan text = .record fields line rest) : rest.length < text.length := by
  induction text generalizing s with
  | nil => simp [scan] at h
  | cons c text ih =>
    simp only [scan] at h
    split at h
    · exact Nat.lt_succ_of_lt (ih h)
    · simp only [Outcome.record.injEq] at h
      rw [← h.2.2]
      exact Nat.lt_succ_of_le (length_behindBreak c text)
    · simp at h

/-- The lines on which a quoted field goes on while a text is scanned. -/
def continuedLines (s : Scanner) : List Char → List Nat
  | [] => []
  | c :: rest =>
    match s.feed c with
    | .more next =>
      if c = '\n' && s.mode = .quoted then next.line :: next.continuedLines rest else next.continuedLines rest
    | _ => []

/-! ## The end of the text -/

/-- Whether the current field lacks its closing quote. -/
def isQuoteOpen (s : Scanner) : Bool :=
  s.mode = .quoted

/-- The record that the end of the text completes: none if there was no text. -/
def finish (s : Scanner) : Option (List String) :=
  if s.started then
    let s := if s.pendingBackslash then s.push '\\' else s
    some s.closeField.fields
  else none

end Scanner

end DelimitedText
