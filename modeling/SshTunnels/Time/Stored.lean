import SshTunnels.Time.Rfc3339

/-!
# Stored timestamps

A timestamp is stored as text that ends in `+00:00`. Other hands may have stored it otherwise, so it
is read with more tolerance than it is written: the seconds may be missing, and without an offset
the time is universal time.
-/

namespace SshTunnels.Timestamp

/-- The text that is stored. -/
def stored (t : Timestamp) : String :=
  t.textWith "+00:00"

/-- The seconds and nanoseconds after hours and minutes; none means a full minute. -/
def readSeconds (cs : List Char) : Option (Nat × Nat × List Char) :=
  match cs with
  | ':' :: rest => do
    let (second, rest) ← readNumber 2 rest
    let (nanos, rest) ← readFraction rest
    some (second, nanos, rest)
  | _ => some (0, 0, cs)

/-- The instant that a stored text names. -/
def ofStored? (text : String) : Option Timestamp := do
  let (date, cs) ← readDate text.toList
  let (hour, cs) ← readNumber 2 cs
  let cs ← readMark ':' cs
  let (minute, cs) ← readNumber 2 cs
  let (second, nanos, cs) ← readSeconds cs
  let (offset, cs) ← if cs = [] then some (0, []) else readOffset cs
  if cs = [] then ofCivil? date hour minute second nanos offset else none

end SshTunnels.Timestamp
