import JsonCompanion.Number.Decimal

/-!
# Instants

A point in time is a count of milliseconds since the first of January 1970.

* `Instant.ofNumber?` drops fractions and refuses counts beyond a hundred million days.
* `Instant.isoText` and `Instant.longText` are its two texts, both in universal time.
-/

namespace JsonCompanion

/-- Milliseconds since the beginning of 1970 in universal time. -/
structure Instant where
  milliseconds : Int

namespace Instant

/-- The integer part of a finite number. -/
def truncate? : Number → Option Int
  | .finite negative mantissa exponent _ =>
    some (Number.signed negative (mantissa * twoTo exponent / twoTo 1074))
  | _ => none

/-- The instant of a count of milliseconds within a hundred million days around 1970. -/
def ofNumber? (n : Number) : Option Instant :=
  match truncate? n with
  | some ms => if ms.natAbs ≤ 8640000000000000 then some ⟨ms⟩ else none
  | none => none

/-- Whole days since the beginning of 1970. -/
def days (i : Instant) : Int := i.milliseconds.fdiv 86400000

/-- Milliseconds since midnight. -/
def sinceMidnight (i : Instant) : Nat := (i.milliseconds.fmod 86400000).toNat

/-- Year, month and day of the Gregorian calendar. -/
structure Day where
  year : Int
  month : Nat
  day : Nat

/-- The calendar day, counted through eras of four hundred years that begin in March. -/
def calendarDay (i : Instant) : Day :=
  let z := i.days + 719468
  let era := z.fdiv 146097
  let dayOfEra := (z - era * 146097).toNat
  let yearOfEra :=
    (dayOfEra - dayOfEra / 1460 + dayOfEra / 36524 - dayOfEra / 146096) / 365
  let dayOfYear := dayOfEra - (365 * yearOfEra + yearOfEra / 4 - yearOfEra / 100)
  let shifted := (5 * dayOfYear + 2) / 153
  let month := if shifted < 10 then shifted + 3 else shifted - 9
  { year := yearOfEra + era * 400 + if month ≤ 2 then 1 else 0
    month
    day := dayOfYear - (153 * shifted + 2) / 5 + 1 }

/-- A number filled up with zeros to a width. -/
def padded (width n : Nat) : Text :=
  let digits := Text.ofNat n
  List.replicate (width - digits.length) (CodeUnit.ofChar '0') ++ digits

/-- Hours, minutes and seconds between colons. -/
def clockText (i : Instant) : Text :=
  let seconds := i.sinceMidnight / 1000
  padded 2 (seconds / 3600) ++ ":" ++ padded 2 (seconds / 60 % 60) ++ ":" ++ padded 2 (seconds % 60)

/-- Date and time as `YYYY-MM-DDThh:mm:ss.sssZ`, years outside four digits with sign and six. -/
def isoText (i : Instant) : Text :=
  let day := i.calendarDay
  let year : Text :=
    if 0 ≤ day.year ∧ day.year ≤ 9999 then padded 4 day.year.toNat
    else (if day.year < 0 then "-" else "+") ++ padded 6 day.year.natAbs
  year ++ "-" ++ padded 2 day.month ++ "-" ++ padded 2 day.day ++ "T" ++ i.clockText ++ "." ++
    padded 3 (i.sinceMidnight % 1000) ++ "Z"

/-- Names of the days of a week, from Thursday on. -/
def dayNames : List Text := ["Thu", "Fri", "Sat", "Sun", "Mon", "Tue", "Wed"]

/-- Names of the months. -/
def monthNames : List Text :=
  ["Jan", "Feb", "Mar", "Apr", "May", "Jun", "Jul", "Aug", "Sep", "Oct", "Nov", "Dec"]

/-- Weekday, date, time and zone in words. -/
def longText (i : Instant) : Text :=
  let day := i.calendarDay
  let year : Text := (if day.year < 0 then "-" else "") ++ padded 4 day.year.natAbs
  dayNames.getD (i.days.fmod 7).toNat [] ++ " " ++ monthNames.getD (day.month - 1) [] ++ " " ++
    padded 2 day.day ++ " " ++ year ++ " " ++ i.clockText ++
    " GMT+0000 (Coordinated Universal Time)"

end Instant

end JsonCompanion
