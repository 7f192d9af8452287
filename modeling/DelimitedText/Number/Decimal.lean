import DelimitedText.Number.Binary

/-!
# Binary numbers as decimal text

`Decimal.shortest` selects the fewest decimal digits that identify a number: of the decimals that round to it, those
with the fewest digits, and of these the nearest; of two equally near ones the greater. `BinaryFormat.text` writes them
positionally, without an exponent and without a point in whole numbers. `BinaryFormat.parse?` reads a decimal with an
optional point and exponent, an infinity or a NaN, and rounds to the nearest number.
-/

namespace DelimitedText

/-- The decimal `digits * 10 ^ exponent`. -/
structure Decimal where
  digits : Nat
  exponent : Int
  deriving Repr, DecidableEq

namespace Decimal

/-! ## Selecting digits -/

/-- Compares `a * 10 ^ i` with `n * 2 ^ j`. -/
def compareScaled (a : Nat) (i : Int) (n : Nat) (j : Int) : Ordering :=
  compare (a * Nat.pow 10 i.toNat * Nat.pow 2 (-j).toNat) (n * Nat.pow 2 j.toNat * Nat.pow 10 (-i).toNat)

/-- Whether `d` rounds to `m * 2 ^ q` in the format: it lies between the points half-way to the two neighbours, or on
one of these points if `m` is even. Below a power of two the neighbour is half as far as above. -/
def readsBack (f : BinaryFormat) (m : Nat) (q : Int) (d : Decimal) : Bool :=
  let narrow := m = Nat.pow 2 f.fractionBits && f.leastExponent < q
  let low := compareScaled d.digits d.exponent (if narrow then 4 * m - 1 else 4 * m - 2) (q - 2)
  let high := compareScaled d.digits d.exponent (4 * m + 2) (q - 2)
  let even := m % 2 = 0
  (low = .gt || (even && low = .eq)) && (high = .lt || (even && high = .eq))

/-- The least exponent of a power of ten above `m * 2 ^ q`, for a positive `m`. -/
def scale (m : Nat) (q : Int) : Int :=
  let guess := ((m.log2 + q) * 30103).fdiv 100000
  if compareScaled 1 guess m q = .gt then guess
  else if compareScaled 1 (guess + 1) m q = .gt then guess + 1
  else guess + 2

/-- The decimal of `m * 2 ^ q` with all its digits. -/
def exact (m : Nat) (q : Int) : Decimal :=
  if 0 ≤ q then ⟨m * Nat.pow 2 q.toNat, 0⟩ else ⟨m * Nat.pow 5 (-q).toNat, q⟩

/-- Of the two decimals next to `m * 2 ^ q` that end at `10 ^ exponent`, the nearer one that identifies it. -/
def onGrid? (f : BinaryFormat) (m : Nat) (q : Int) (exponent : Int) : Option Decimal :=
  let below :=
    m * Nat.pow 2 q.toNat * Nat.pow 10 (-exponent).toNat / (Nat.pow 2 (-q).toNat * Nat.pow 10 exponent.toNat)
  let low : Decimal := ⟨below, exponent⟩
  let high : Decimal := ⟨below + 1, exponent⟩
  match low.readsBack f m q, high.readsBack f m q with
  | true, true => if compareScaled (2 * below + 1) exponent (2 * m) q = .gt then some low else some high
  | true, false => some low
  | false, true => some high
  | false, false => none

/-- The fewest digits that identify the positive number `m * 2 ^ q`. -/
def shortest (f : BinaryFormat) (m : Nat) (q : Int) : Decimal :=
  let top := scale m q
  ((List.range 17).findSome? fun (n : Nat) => onGrid? f m q (top - (n + 1))).getD (exact m q)

/-! ## Writing -/

/-- Drops trailing zeros from reversed digits, and counts them. -/
def dropZeros : List Char → List Char × Nat
  | '0' :: rest => let (digits, n) := dropZeros rest; (digits, n + 1)
  | digits => (digits, 0)

/-- The positional notation of a positive decimal. -/
def positional (d : Decimal) : List Char :=
  let (reversed, zeros) := dropZeros (Nat.toDigits 10 d.digits).reverse
  let digits := reversed.reverse
  let exponent := d.exponent + zeros
  if 0 ≤ exponent then digits ++ List.replicate exponent.toNat '0'
  else
    let places := (-exponent).toNat
    if places < digits.length then
      digits.take (digits.length - places) ++ '.' :: digits.drop (digits.length - places)
    else ['0', '.'] ++ List.replicate (places - digits.length) '0' ++ digits

/-! ## Reading -/

/-- The digits at the front of a text, and what follows them. -/
def takeDigits (text : List Char) : List Char × List Char :=
  (text.takeWhile Char.isDigit, text.dropWhile Char.isDigit)

/-- The exponent that a text spells: a mark, an optional sign and digits, or nothing at all. -/
def exponent? : List Char → Option Int
  | [] => some 0
  | mark :: rest =>
    if mark = 'e' || mark = 'E' then
      let (sign, rest) : Int × List Char :=
        match rest with
        | '+' :: rest => (1, rest)
        | '-' :: rest => (-1, rest)
        | rest => (1, rest)
      let (digits, rest) := takeDigits rest
      if digits.isEmpty || !rest.isEmpty then none else some (sign * Nat.ofDigitChars 10 digits 0)
    else none

/-- The decimal that a text without a sign spells: digits with an optional point, then an optional exponent. -/
def parse? (text : List Char) : Option Decimal :=
  let (whole, rest) := takeDigits text
  let (fraction, rest) :=
    match rest with
    | '.' :: rest => takeDigits rest
    | rest => ([], rest)
  if whole.isEmpty && fraction.isEmpty then none
  else (exponent? rest).map fun e => ⟨Nat.ofDigitChars 10 (whole ++ fraction) 0, e - fraction.length⟩

end Decimal

namespace BinaryFormat

/-- A bound on the decimal exponents of the finite numbers of both formats, and of the halves of their least numbers. -/
def decimalBound : Int := 400

/-- The bits of the number nearest to a decimal. Far out of range nothing has to be computed to know the answer. -/
def ofDecimal (f : BinaryFormat) (d : Decimal) : Nat :=
  let top : Int := (Nat.toDigits 10 d.digits).length + d.exponent
  if d.digits = 0 || top < -decimalBound then 0
  else if decimalBound < top then f.infinityBits
  else f.round (d.digits * Nat.pow 10 d.exponent.toNat) (Nat.pow 10 (-d.exponent).toNat)

/-- The bits that a text without a sign spells. Words are read in any case. -/
def magnitude? (f : BinaryFormat) (text : List Char) : Option Nat :=
  let word := text.map Char.toLower
  if word = "inf".toList || word = "infinity".toList then some f.infinityBits
  else if word = "nan".toList then some f.nanBits
  else (Decimal.parse? text).map f.ofDecimal

/-- The bits that a text spells. -/
def parse? (f : BinaryFormat) (text : String) : Option Nat :=
  match text.toList with
  | '+' :: rest => f.magnitude? rest
  | '-' :: rest => (f.magnitude? rest).map (f.signBit + ·)
  | rest => f.magnitude? rest

/-- The text of bits. -/
def text (f : BinaryFormat) (bits : Nat) : String :=
  match f.read bits with
  | .nan => "NaN"
  | .infinite negative => if negative then "-inf" else "inf"
  | .finite negative m q =>
    let digits := if m = 0 then ['0'] else (Decimal.shortest f m q).positional
    String.ofList (if negative then '-' :: digits else digits)

end BinaryFormat

end DelimitedText
