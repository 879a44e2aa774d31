import SshTunnels.Time.Span
import SshTunnels.Tunnel.Error

/-!
# Keepalives

How a standard tunnel finds out that its SSH server is gone. A keepalive is sent at every interval,
and the session ends once more of them than the budget stay unanswered. The tunnel looks after its
session from time to time.
-/

namespace SshTunnels.Keepalive

/-- How many intervals it takes to span the timeout, and one at least. Both are counted in whole
milliseconds. -/
def intervals (interval timeout : Span) : Nat :=
  let step := max 1 interval.millis
  max 1 ((timeout.millis + step - 1) / step)

/-- How many keepalives may stay unanswered: one for each of those intervals, in a word of 64
bits. -/
def budget (interval timeout : Span) : UInt64 :=
  (intervals interval timeout).toUInt64

/-- How long a session that says nothing is put up with. -/
def patience (interval timeout : Span) : Span :=
  ⟨interval.nanos * ((budget interval timeout).toNat + 1)⟩

/-- The time between two looks at the session. -/
def poll (interval timeout : Span) : Span :=
  ⟨max (min interval.nanos timeout.nanos) (Span.ofMillis 50).nanos⟩

/-- What ends a tunnel whose session is gone. -/
def lost : TunnelError :=
  .keepalive "ssh session closed: keepalives unanswered or connection lost"

end SshTunnels.Keepalive
