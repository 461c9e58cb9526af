/-!
# Dates

An instant is a count of milliseconds since the first of January 1970 in universal time. Its date
is that of the Gregorian calendar, continued backwards; the year before year one is year zero.

* `CivilDate.ofDays` turns a count of days into year, month and day by cycles of 400 years.
* `Instant.text` and `Instant.shortText` write date and time in the two forms in use.
-/

namespace DocumentClient

structure CivilDate where
  year : Int
  month : Nat
  day : Nat
deriving DecidableEq, Repr

/-- The date `days` days after the first of January 1970. Years are counted from the first of
March, so that a leap day ends its year; 146097 days are 400 years. -/
def CivilDate.ofDays (days : Int) : CivilDate :=
  let shifted := days + 719468
  let era := shifted.fdiv 146097
  let dayOfEra := (shifted - era * 146097).toNat
  let yearOfEra := (dayOfEra - dayOfEra / 1460 + dayOfEra / 36524 - dayOfEra / 146096) / 365
  let dayOfYear := dayOfEra - (365 * yearOfEra + yearOfEra / 4 - yearOfEra / 100)
  let shiftedMonth := (5 * dayOfYear + 2) / 153
  let day := dayOfYear - (153 * shiftedMonth + 2) / 5 + 1
  let month := if shiftedMonth < 10 then shiftedMonth + 3 else shiftedMonth - 9
  let year := era * 400 + yearOfEra + (if month ≤ 2 then 1 else 0)
  ⟨year, month, day⟩

def padded (width n : Nat) : String :=
  let cs := Nat.toDigits 10 n
  String.ofList (List.replicate (width - cs.length) '0' ++ cs)

/-- A year of four digits is written as it is, any other with its sign and at least four digits. -/
def yearText (year : Int) : String :=
  if 0 ≤ year ∧ year ≤ 9999 then padded 4 year.toNat
  else (if year < 0 then "-" else "+") ++ padded 4 year.natAbs

/-- Milliseconds since the first of January 1970. -/
structure Instant where
  millis : Int64
deriving DecidableEq, Repr

namespace Instant

/-- The whole seconds before the instant. -/
def seconds (t : Instant) : Int := t.millis.toInt.fdiv 1000

/-- The milliseconds after the whole second. -/
def subsecond (t : Instant) : Nat := (t.millis.toInt.fmod 1000).toNat

def date (t : Instant) : CivilDate := .ofDays (t.seconds.fdiv 86400)

/-- Date and time to the second. -/
def toSecond (t : Instant) : String :=
  let date := t.date
  let rest := (t.seconds.fmod 86400).toNat
  yearText date.year ++ "-" ++ padded 2 date.month ++ "-" ++ padded 2 date.day ++ "T" ++
    padded 2 (rest / 3600) ++ ":" ++ padded 2 (rest / 60 % 60) ++ ":" ++ padded 2 (rest % 60)

/-- The instants that have a date: those of the years -262143 to 262142. -/
def HasDate (t : Instant) : Prop :=
  -8334601228800000 ≤ t.millis.toInt ∧ t.millis.toInt ≤ 8210266876799999

instance (t : Instant) : Decidable t.HasDate :=
  inferInstanceAs (Decidable (_ ∧ _))

/-- Date and time with the offset of universal time; milliseconds have three places and are left
out if there are none. An instant without a date shows its count. -/
def text (t : Instant) : String :=
  if t.HasDate then
    let fraction := if t.subsecond = 0 then "" else "." ++ padded 3 t.subsecond
    t.toSecond ++ fraction ++ "+00:00"
  else "DateTime(" ++ toString t.millis.toInt ++ ")"

/-- Date and time with the letter of universal time; the fraction has no trailing zeros. -/
def shortText (t : Instant) : String :=
  let n := t.subsecond
  let fraction :=
    if n = 0 then ""
    else if n % 100 = 0 then "." ++ padded 1 (n / 100)
    else if n % 10 = 0 then "." ++ padded 2 (n / 10)
    else "." ++ padded 3 n
  t.toSecond ++ fraction ++ "Z"

end Instant

example : CivilDate.ofDays 0 = ⟨1970, 1, 1⟩ := by decide
example : CivilDate.ofDays 11016 = ⟨2000, 2, 29⟩ := by decide
example : CivilDate.ofDays (-719529) = ⟨-1, 12, 31⟩ := by decide

end DocumentClient
