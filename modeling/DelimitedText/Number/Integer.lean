/-!
# Integers of fixed width as decimal text

`IntType` lists the widths. Reading accepts one leading plus sign, a minus sign for the signed types, and at least one
ASCII digit; leading zeros count for nothing, and the value has to fit the width. Writing uses the fewest digits.
-/

namespace DelimitedText

/-- A type of integers. -/
inductive IntType where
  | i8 | i16 | i32 | i64 | i128
  | u8 | u16 | u32 | u64 | u128
  deriving Repr, DecidableEq

namespace IntType

/-- The name of a type in messages. -/
def name : IntType → String
  | .i8 => "i8"
  | .i16 => "i16"
  | .i32 => "i32"
  | .i64 => "i64"
  | .i128 => "i128"
  | .u8 => "u8"
  | .u16 => "u16"
  | .u32 => "u32"
  | .u64 => "u64"
  | .u128 => "u128"

/-- Whether the type has negative values. -/
def isSigned : IntType → Bool
  | .i8 | .i16 | .i32 | .i64 | .i128 => true
  | _ => false

/-- The number of bits of a value. -/
def bits : IntType → Nat
  | .i8 | .u8 => 8
  | .i16 | .u16 => 16
  | .i32 | .u32 => 32
  | .i64 | .u64 => 64
  | .i128 | .u128 => 128

/-- The least value. -/
def min (t : IntType) : Int :=
  if t.isSigned then -Int.pow 2 (t.bits - 1) else 0

/-- The greatest value. -/
def max (t : IntType) : Int :=
  if t.isSigned then Int.pow 2 (t.bits - 1) - 1 else Int.pow 2 t.bits - 1

/-- Whether `n` is a value of the type. -/
def contains (t : IntType) (n : Int) : Bool :=
  t.min ≤ n && n ≤ t.max

/-- The number that digits spell. -/
def digitsValue? (digits : List Char) : Option Nat :=
  if !digits.isEmpty && digits.all Char.isDigit then some (Nat.ofDigitChars 10 digits 0) else none

/-- The number that a text spells, if the type has signs of that kind. -/
def signedValue? (t : IntType) : List Char → Option Int
  | '+' :: digits => (digitsValue? digits).map Int.ofNat
  | '-' :: digits => if t.isSigned then (digitsValue? digits).map fun n => -Int.ofNat n else none
  | digits => (digitsValue? digits).map Int.ofNat

/-- The value that a text spells. -/
def parse? (t : IntType) (text : String) : Option Int :=
  (t.signedValue? text.toList).filter t.contains

end IntType

end DelimitedText
