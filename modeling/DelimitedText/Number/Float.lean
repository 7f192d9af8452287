import DelimitedText.Number.Decimal

/-!
# Types of floating-point numbers

The two types of floating-point numbers that values and fields may have, with the binary format of each. A number is
given by its bits.
-/

namespace DelimitedText

/-- A type of floating-point numbers. -/
inductive FloatType where
  | f32
  | f64
  deriving Repr, DecidableEq

namespace FloatType

/-- The name of a type in messages. -/
def name : FloatType → String
  | .f32 => "f32"
  | .f64 => "f64"

/-- The format of the bits. -/
def format : FloatType → BinaryFormat
  | .f32 => binary32
  | .f64 => binary64

end FloatType

end DelimitedText
