/-!
# What reading reports besides its result

Reading a line or a stream reports events that change no result: text that is passed over, records that go on over
several physical lines, a header that is skipped.
-/

namespace DelimitedText

/-- How closely one has to look to be told of a notice. -/
inductive Notice.Level where
  | debug
  | trace
  deriving Repr, DecidableEq

/-- An event worth reporting. -/
inductive Notice where
  /-- characters behind the line break that ended a line's record -/
  | ignoredCharacters (count : Nat)
  /-- a quoted field that goes on on the next physical line -/
  | continuedOn (line : Nat)
  /-- a record of more than one physical line -/
  | spannedLines (first last : Nat)
  /-- a header record that is not part of the data -/
  | skippedHeader (fields : Nat)
  deriving Repr, DecidableEq

namespace Notice

/-- The level at which a notice is reported: continuation lines are detail, the rest is not. -/
def level : Notice → Level
  | .continuedOn _ => .trace
  | _ => .debug

/-- The wording of a notice. -/
def message : Notice → String
  | .ignoredCharacters count => s!"ignoring {count} characters after line terminator"
  | .continuedOn line => s!"quoted field continues on line {line}"
  | .spannedLines first last => s!"record spanned lines {first}..{last}"
  | .skippedHeader fields => s!"skipping header with {fields} fields"

end Notice

end DelimitedText
