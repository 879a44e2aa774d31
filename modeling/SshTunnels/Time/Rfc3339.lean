import SshTunnels.Time.Timestamp
import SshTunnels.Text.Blank

/-!
# Reading timestamps

The internet date and time format, read with some tolerance: a date and a time of day, divided by
`T` or a blank, and an offset from universal time. Blanks may stand around the numbers, a number may
have fewer digits than usual, and an offset may leave out its colon.
-/

namespace SshTunnels.Timestamp

open Text

/-- A number of one to `width` digits, after blanks. -/
def readNumber (width : Nat) (cs : List Char) : Option (Nat × List Char) :=
  let cs := trimStart cs
  let found := (cs.take width).takeWhile Char.isDigit
  if found = [] then none else some (ofDecimal found, cs.drop found.length)

/-- A year: up to four digits, or a sign and any number of them. -/
def readYear (cs : List Char) : Option (Int × List Char) :=
  let signed (sign : Int) (cs : List Char) : Option (Int × List Char) :=
    match cs.takeWhile Char.isDigit with
    | [] => none
    | found => some (sign * ofDecimal found, cs.dropWhile Char.isDigit)
  match trimStart cs with
  | '-' :: rest => signed (-1) rest
  | '+' :: rest => signed 1 rest
  | cs => (readNumber 4 cs).map fun (n, rest) => (n, rest)

/-- This very character, after blanks. -/
def readMark (c : Char) (cs : List Char) : Option (List Char) :=
  match trimStart cs with
  | d :: rest => if c = d then some rest else none
  | [] => none

/-- The nanoseconds of a fraction: nine digits count, further ones are skipped. -/
def readFraction : List Char → Option (Nat × List Char)
  | '.' :: rest =>
    match rest.takeWhile Char.isDigit with
    | [] => none
    | found =>
      let kept := found.take 9
      some (ofDecimal kept * Nat.pow 10 (9 - kept.length), rest.dropWhile Char.isDigit)
  | cs => some (0, cs)

/-- Two digits below a bound. -/
def readTwo (bound : Nat) : List Char → Option (Nat × List Char)
  | a :: b :: rest => do
    let high ← decimalValue? a
    let low ← decimalValue? b
    if 10 * high + low < bound then some (10 * high + low, rest) else none
  | _ => none

/-- The offset in seconds: `Z`, `UTC`, or a sign, hours and minutes. -/
def readOffset (cs : List Char) : Option (Int × List Char) :=
  match trimStart cs with
  | 'Z' :: rest | 'z' :: rest => some (0, rest)
  | cs =>
    if (cs.take 3).map Char.toUpper = ['U', 'T', 'C'] then some (0, cs.drop 3)
    else do
      let (sign, rest) ← match cs with
        | '+' :: rest => some (1, rest)
        | '-' :: rest => some (-1, rest)
        | '\u2212' :: rest => some (-1, rest)
        | _ => none
      let (hours, rest) ← readTwo 100 rest
      let (minutes, rest) ← readTwo 60 (rest.dropWhile fun c => c == ':' || isBlank c)
      some (sign * ((hours * 3600 + minutes * 60 : Nat) : Int), rest)

/-- The years that dates may have. -/
def yearInRange (year : Int) : Bool :=
  -262143 ≤ year && year ≤ 262142

/-- The instant that a date, a time of day and an offset name. -/
def ofCivil? (date : CivilDate) (hour minute second nanos : Nat) (offset : Int) :
    Option Timestamp :=
  if date.isValid && yearInRange date.year && hour < 24 && minute < 60 && second ≤ 60 &&
      offset.natAbs < 86400 then
    let leap := if second = 60 then 1 else 0
    let time := hour * 3600 + minute * 60 + (second - leap)
    let t : Timestamp := ⟨date.toDays * 86400 + time - offset, nanos + leap * 1000000000⟩
    if yearInRange (CivilDate.ofDays (t.seconds / 86400)).year then some t else none
  else none

/-- A date, and the `T` or blank that ends it. -/
def readDate (cs : List Char) : Option (CivilDate × List Char) := do
  let (year, cs) ← readYear cs
  let cs ← readMark '-' cs
  let (month, cs) ← readNumber 2 cs
  let cs ← readMark '-' cs
  let (day, cs) ← readNumber 2 cs
  match cs with
  | c :: rest => if c = 'T' ∨ c = 't' ∨ c = ' ' then some (⟨year, month, day⟩, rest) else none
  | [] => none

/-- The instant at the start of a text, and what follows it. -/
def readInstant (cs : List Char) : Option (Timestamp × List Char) := do
  let (date, cs) ← readDate cs
  let (hour, cs) ← readNumber 2 cs
  let cs ← readMark ':' cs
  let (minute, cs) ← readNumber 2 cs
  let cs ← readMark ':' cs
  let (second, cs) ← readNumber 2 cs
  let (nanos, cs) ← readFraction cs
  let (offset, cs) ← readOffset cs
  let t ← ofCivil? date hour minute second nanos offset
  some (t, cs)

/-- The instant that a text names; only blanks may follow it. -/
def ofString? (text : String) : Option Timestamp :=
  match readInstant text.toList with
  | some (t, rest) => if trimStart rest = [] then some t else none
  | none => none

end SshTunnels.Timestamp
