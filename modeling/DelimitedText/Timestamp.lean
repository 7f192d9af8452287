/-!
# Points in time

A timestamp counts milliseconds from the beginning of 1970, in universal time and without leap seconds. `Civil.ofDays`
gives the date in the Gregorian calendar, extended in both directions.
-/

namespace DelimitedText

/-- A date. Year 0 is the year before year 1. -/
structure Civil where
  year : Int
  month : Nat
  day : Nat
  deriving Repr, DecidableEq

namespace Civil

/-- The date a number of days after 1 January 1970. Years are counted from March, so that the leap day comes last, and
in eras of 400 years, which all have the same length. -/
def ofDays (days : Int) : Civil :=
  let shifted := days + 719468
  let era := shifted.fdiv 146097
  let dayOfEra := (shifted.fmod 146097).toNat
  let yearOfEra := (dayOfEra - dayOfEra / 1460 + dayOfEra / 36524 - dayOfEra / 146096) / 365
  let dayOfYear := dayOfEra - (365 * yearOfEra + yearOfEra / 4 - yearOfEra / 100)
  let fromMarch := (5 * dayOfYear + 2) / 153
  let month := if fromMarch < 10 then fromMarch + 3 else fromMarch - 9
  { year := era * 400 + yearOfEra + (if month ≤ 2 then 1 else 0)
    month
    day := dayOfYear - (153 * fromMarch + 2) / 5 + 1 }

end Civil

/-- A point in time: whole seconds, rounded down, and the milliseconds above them. -/
structure Timestamp where
  seconds : Int
  millis : Nat
  deriving Repr, DecidableEq

namespace Timestamp

/-- The first millisecond of the range, at the beginning of the year -262143. -/
def firstMillis : Int := -8334601228800000

/-- The last millisecond of the range, at the end of the year 262142. -/
def lastMillis : Int := 8210266876799999

/-- The point in time of a count of milliseconds, if it is in range. -/
def ofMillis? (millis : Int) : Option Timestamp :=
  if firstMillis ≤ millis && millis ≤ lastMillis then
    some ⟨millis.fdiv 1000, (millis.fmod 1000).toNat⟩
  else none

/-- A number with zeros in front, up to the given width. -/
def padded (width n : Nat) : String :=
  let digits := Nat.toDigits 10 n
  String.ofList (List.replicate (width - digits.length) '0' ++ digits)

/-- A year in four digits; beyond them, or before year 0, with its sign. -/
def yearText (year : Int) : String :=
  let digits := padded 4 year.natAbs
  if year < 0 then "-" ++ digits else if 9999 < year then "+" ++ digits else digits

/-- Date and time of day with the offset of universal time; milliseconds are written if there are any. -/
def text (t : Timestamp) : String :=
  let date := Civil.ofDays (t.seconds.fdiv 86400)
  let second := (t.seconds.fmod 86400).toNat
  let fraction := if t.millis = 0 then "" else "." ++ padded 3 t.millis
  yearText date.year ++ "-" ++ padded 2 date.month ++ "-" ++ padded 2 date.day ++ "T" ++
    padded 2 (second / 3600) ++ ":" ++ padded 2 (second / 60 % 60) ++ ":" ++ padded 2 (second % 60) ++
    fraction ++ "+00:00"

end Timestamp

end DelimitedText
