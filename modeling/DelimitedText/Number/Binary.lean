/-!
# Binary floating-point numbers, exactly

A number of a binary format is given by its bits and stands for `m * 2 ^ q`, an infinity, or no number at all.
`BinaryFormat.round` finds the number nearest to a quotient of naturals; of two equally near ones it takes the one whose
last bit is zero. All arithmetic is on integers.
-/

namespace DelimitedText

/-- A format: a sign bit, exponent bits and fraction bits, the sign first. -/
structure BinaryFormat where
  fractionBits : Nat
  exponentBits : Nat
  deriving Repr, DecidableEq

/-- The format of 32 bits. -/
def binary32 : BinaryFormat := ⟨23, 8⟩

/-- The format of 64 bits. -/
def binary64 : BinaryFormat := ⟨52, 11⟩

/-- What the bits of a format stand for. -/
inductive BinaryNumber where
  | nan
  | infinite (negative : Bool)
  /-- the number `m * 2 ^ q`, or its opposite -/
  | finite (negative : Bool) (m : Nat) (q : Int)
  deriving Repr, DecidableEq

namespace BinaryFormat

/-- The exponent of the least unit, that of the numbers next to zero. -/
def leastExponent (f : BinaryFormat) : Int :=
  2 - Int.pow 2 (f.exponentBits - 1) - f.fractionBits

/-- The bits of the positive infinity; smaller bits without sign stand for finite numbers, in their order. -/
def infinityBits (f : BinaryFormat) : Nat :=
  (Nat.pow 2 f.exponentBits - 1) * Nat.pow 2 f.fractionBits

/-- The bit of the sign. -/
def signBit (f : BinaryFormat) : Nat :=
  Nat.pow 2 (f.exponentBits + f.fractionBits)

/-- What bits stand for. -/
def read (f : BinaryFormat) (bits : Nat) : BinaryNumber :=
  let negative := decide (f.signBit ≤ bits)
  let magnitude := bits % f.signBit
  let exponent := magnitude / Nat.pow 2 f.fractionBits
  let fraction := magnitude % Nat.pow 2 f.fractionBits
  if f.infinityBits < magnitude then .nan
  else if magnitude = f.infinityBits then .infinite negative
  else if exponent = 0 then .finite negative fraction f.leastExponent
  else .finite negative (Nat.pow 2 f.fractionBits + fraction) (f.leastExponent + exponent - 1)

/-- Whether bits stand for no number. -/
def isNaN (f : BinaryFormat) (bits : Nat) : Bool :=
  f.read bits = .nan

/-- The bits of some quiet NaN. -/
def nanBits (f : BinaryFormat) : Nat :=
  f.infinityBits + Nat.pow 2 (f.fractionBits - 1)

/-- A quotient rounded to the nearest natural, a half to the even one. -/
def roundQuotient (num den : Nat) : Nat :=
  let quotient := num / den
  match compare (2 * (num % den)) den with
  | .lt => quotient
  | .gt => quotient + 1
  | .eq => quotient + quotient % 2

/-- `num / den` in units of `2 ^ q`, as numerator and denominator. -/
def inUnits (num den : Nat) (q : Int) : Nat × Nat :=
  (num * Nat.pow 2 (-q).toNat, den * Nat.pow 2 q.toNat)

/-- The bits of the number nearest to `num / den`. The unit is the least one in which the quotient has no more digits
than the format; a carry out of the fraction goes into the exponent by itself. -/
def round (f : BinaryFormat) (num den : Nat) : Nat :=
  let guess : Int := (num.log2 : Int) - den.log2 - f.fractionBits - 1
  let (n, d) := inUnits num den guess
  let q := if n < d * Nat.pow 2 (f.fractionBits + 1) then guess else guess + 1
  let q := if q < f.leastExponent then f.leastExponent else q
  let (n, d) := inUnits num den q
  let bits := (q - f.leastExponent).toNat * Nat.pow 2 f.fractionBits + roundQuotient n d
  if f.infinityBits < bits then f.infinityBits else bits

end BinaryFormat

end DelimitedText
