import SshTunnels.Text.Digits

/-!
# Spans of time

Lengths of time in nanoseconds, and their text: the largest of the four units that the span reaches,
with as many fraction digits as it needs.
-/

namespace SshTunnels

/-- A length of time. -/
structure Span where
  nanos : Nat
  deriving DecidableEq, Repr

namespace Span

instance : Inhabited Span := ⟨⟨0⟩⟩

/-- A span of whole seconds. -/
def ofSeconds (n : Nat) : Span := ⟨n * 1000000000⟩

/-- A span of whole milliseconds. -/
def ofMillis (n : Nat) : Span := ⟨n * 1000000⟩

/-- The whole seconds in a span. -/
def seconds (s : Span) : Nat := s.nanos / 1000000000

/-- The whole milliseconds in a span. -/
def millis (s : Span) : Nat := s.nanos / 1000000

/-- The decimal fraction `rest / 10 ^ places`, without zeros at its end. -/
def fractionText (places rest : Nat) : String :=
  if rest = 0 then ""
  else
    let digits := (Text.padded places rest).toList
    "." ++ String.ofList (digits.reverse.dropWhile (· == '0')).reverse

/-- The span in a unit of `10 ^ places` nanoseconds. -/
def textIn (places : Nat) (unit : String) (s : Span) : String :=
  toString (s.nanos / Nat.pow 10 places) ++ fractionText places (s.nanos % Nat.pow 10 places) ++ unit

/-- The span in the largest unit that it reaches. -/
def text (s : Span) : String :=
  if 1000000000 ≤ s.nanos then s.textIn 9 "s"
  else if 1000000 ≤ s.nanos then s.textIn 6 "ms"
  else if 1000 ≤ s.nanos then s.textIn 3 "µs"
  else s.textIn 0 "ns"

instance : ToString Span := ⟨text⟩

end Span
end SshTunnels
