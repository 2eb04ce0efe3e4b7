/-
# `Domain.Instant` — points in time, and the text the store keeps of them

Every timestamp is written by `toRfc3339`: a date and a time of day in UTC, then
no, three, six or nine digits of the second's fraction, whichever is the fewest
that lose nothing, then `+00:00`.  The store compares timestamps as text.
-/
import Mathlib
import Weiterleitung.Lib.Text

namespace Weiterleitung

/-- A `DateTime<Utc>`: seconds since 1970 and nanoseconds. -/
structure Instant where
  seconds : Int
  nanos : Fin 1000000000
  deriving DecidableEq

namespace Instant

/-- The last `width` decimal digits of a number. -/
def digits : Nat → Nat → Str
  | 0, _ => []
  | width + 1, n => digits width (n / 10) ++ [Char.ofNat (48 + n % 10)]

/-- Year, month and day of a number of days since 1970, in the proleptic Gregorian
calendar.  Years are counted from March, so that the leap day is the last. -/
def civil (days : Int) : Int × Nat × Nat :=
  let z := days + 719468
  let era := z / 146097
  let dayOfEra := (z % 146097).toNat
  let yearOfEra :=
    (dayOfEra - dayOfEra / 1460 + dayOfEra / 36524 - dayOfEra / 146096) / 365
  let dayOfYear := dayOfEra - (365 * yearOfEra + yearOfEra / 4 - yearOfEra / 100)
  let fromMarch := (5 * dayOfYear + 2) / 153
  let day := dayOfYear - (153 * fromMarch + 2) / 5 + 1
  let month := if fromMarch < 10 then fromMarch + 3 else fromMarch - 9
  (yearOfEra + era * 400 + (if month ≤ 2 then 1 else 0), month, day)

/-- Four digits for the years 0 to 9999, a sign and at least four digits otherwise. -/
def yearText (year : Int) : Str :=
  let n := year.natAbs
  if 0 ≤ year ∧ year ≤ 9999 then digits 4 n
  else (if year < 0 then '-' else '+') ::
    (if n ≤ 9999 then digits 4 n else (Nat.toDigits 10 n))

def fractionText (nanos : Nat) : Str :=
  if nanos = 0 then []
  else if nanos % 1000000 = 0 then '.' :: digits 3 (nanos / 1000000)
  else if nanos % 1000 = 0 then '.' :: digits 6 (nanos / 1000)
  else '.' :: digits 9 nanos

/-- `DateTime::to_rfc3339`. -/
def toRfc3339 (t : Instant) : Str :=
  let (year, month, day) := civil (t.seconds / 86400)
  let second := (t.seconds % 86400).toNat
  yearText year ++ '-' :: digits 2 month ++ '-' :: digits 2 day ++
    'T' :: digits 2 (second / 3600) ++ ':' :: digits 2 (second / 60 % 60) ++
    ':' :: digits 2 (second % 60) ++ fractionText t.nanos ++ "+00:00".toList

/-- `t + Duration::minutes(minutes)`. -/
def addMinutes (t : Instant) (minutes : Int) : Instant :=
  { t with seconds := t.seconds + 60 * minutes }

example : toRfc3339 ⟨1790121600, 120000000⟩ = "2026-09-23T00:00:00.120+00:00".toList := by
  decide

end Instant

end Weiterleitung
