import SshTunnels.Text.Digits

/-!
# Timestamps

Instants of universal time, and the civil date and time of day that an instant shows. A leap second
shows as second sixty: it belongs to the second before it and has a thousand million nanoseconds or
more.
-/

namespace SshTunnels

/-- Seconds since the start of 1970, without leap seconds, and nanoseconds within the second. -/
structure Timestamp where
  seconds : Int
  nanos : Nat
  deriving DecidableEq, Repr

instance : Inhabited Timestamp := ⟨⟨0, 0⟩⟩

/-- A day of the civil calendar. -/
structure CivilDate where
  year : Int
  month : Nat
  day : Nat
  deriving DecidableEq, Repr

namespace CivilDate

/-- Every fourth year is a leap year, except the centuries that four hundred does not divide. -/
def isLeap (year : Int) : Bool :=
  year % 4 == 0 && (year % 100 != 0 || year % 400 == 0)

/-- The length of a month. -/
def daysInMonth (year : Int) (month : Nat) : Nat :=
  if month = 2 then (if isLeap year then 29 else 28)
  else if month = 4 ∨ month = 6 ∨ month = 9 ∨ month = 11 then 30
  else 31

/-- The day exists. -/
def isValid (date : CivilDate) : Bool :=
  1 ≤ date.month && date.month ≤ 12 && 1 ≤ date.day &&
    date.day ≤ daysInMonth date.year date.month

/-- The number of days from the start of 1970 to the day. Years are counted from March, so that the
leap day is the last of its year. -/
def toDays (date : CivilDate) : Int :=
  let year := if date.month ≤ 2 then date.year - 1 else date.year
  let month : Int := if date.month ≤ 2 then date.month + 9 else date.month - 3
  let dayOfYear := (153 * month + 2) / 5 + (date.day - 1)
  365 * year + year / 4 - year / 100 + year / 400 + dayOfYear - 719468

/-- The day that is this many days after the start of 1970. -/
def ofDays (days : Int) : CivilDate :=
  let shifted := days + 719468
  let era := shifted / 146097
  let dayOfEra := shifted % 146097
  let yearOfEra :=
    (dayOfEra - dayOfEra / 1460 + dayOfEra / 36524 - dayOfEra / 146096) / 365
  let dayOfYear := dayOfEra - (365 * yearOfEra + yearOfEra / 4 - yearOfEra / 100)
  let month := (5 * dayOfYear + 2) / 153
  let day := dayOfYear - (153 * month + 2) / 5 + 1
  let year := yearOfEra + era * 400
  if month < 10 then ⟨year, (month + 3).toNat, day.toNat⟩
  else ⟨year + 1, (month - 9).toNat, day.toNat⟩

end CivilDate

namespace Timestamp

/-- Earlier instants come first. -/
def le (a b : Timestamp) : Bool :=
  a.seconds < b.seconds || (a.seconds == b.seconds && a.nanos ≤ b.nanos)

/-- A fraction of a second with three, six or nine digits, as many as it needs; none for a whole
second. -/
def fraction (nanos : Nat) : String :=
  if nanos = 0 then ""
  else if nanos % 1000000 = 0 then "." ++ Text.padded 3 (nanos / 1000000)
  else if nanos % 1000 = 0 then "." ++ Text.padded 6 (nanos / 1000)
  else "." ++ Text.padded 9 nanos

/-- Four digits for the years 0 to 9999; a sign and at least four digits for the others. -/
def yearText (year : Int) : String :=
  if 0 ≤ year ∧ year ≤ 9999 then Text.padded 4 year.toNat
  else (if year < 0 then "-" else "+") ++ Text.padded 4 year.natAbs

/-- The date and time of day, with this text for universal time at the end. -/
def textWith (zone : String) (t : Timestamp) : String :=
  let date := CivilDate.ofDays (t.seconds / 86400)
  let time := (t.seconds % 86400).toNat
  let leap := if 1000000000 ≤ t.nanos then 1 else 0
  yearText date.year ++ "-" ++ Text.padded 2 date.month ++ "-" ++ Text.padded 2 date.day ++ "T" ++
    Text.padded 2 (time / 3600) ++ ":" ++ Text.padded 2 (time / 60 % 60) ++ ":" ++
    Text.padded 2 (time % 60 + leap) ++ fraction (t.nanos % 1000000000) ++ zone

/-- The form that ends in `Z`. -/
def text (t : Timestamp) : String :=
  t.textWith "Z"

instance : ToString Timestamp := ⟨text⟩

end Timestamp
end SshTunnels
