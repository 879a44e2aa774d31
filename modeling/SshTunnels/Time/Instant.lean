import SshTunnels.Time.Span

/-!
# The clock

Readings of a clock that only goes forward, in nanoseconds since it was started. Intervals count in
whole seconds of 64 bits and nanoseconds, so doubling a long one can fail.
-/

namespace SshTunnels

/-- A reading of the clock. -/
abbrev Instant := Nat

namespace Instant

/-- The reading after so many milliseconds. -/
def ofMillis (n : Nat) : Instant := n * 1000000

/-- The whole milliseconds of a reading. -/
def millis (t : Instant) : Nat := t / 1000000

/-- The reading one span later. -/
def after (t : Instant) (s : Span) : Instant := t + s.nanos

/-- The time from one reading to another. -/
def since (t earlier : Instant) : Span := ⟨t - earlier⟩

end Instant

namespace Span

/-- The first length that is too long for a span of 64-bit seconds. -/
def bound : Nat := UInt64.size * 1000000000

/-- Twice the span, unless that is too long for a span. -/
def double? (s : Span) : Option Span :=
  if 2 * s.nanos < bound then some ⟨2 * s.nanos⟩ else none

end Span
end SshTunnels
