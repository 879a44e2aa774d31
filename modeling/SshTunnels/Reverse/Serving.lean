import SshTunnels.Reverse.Forward

/-!
# Serving users through agents

A reverse tunnel keeps the newest request that it took from its queue. A user gets through the agent
of that request, unless it is closed by then; older requests are not gone back to.
-/

namespace SshTunnels

/-- The number of the newest request, unless it has been found closed. -/
structure Serving where
  newest : Option Nat := none
  deriving DecidableEq, Repr

namespace Serving

/-- A request is taken. -/
def take (_ : Serving) (request : Nat) : Serving :=
  ⟨some request⟩

/-- A user is accepted: a closed request is forgotten, and the one that is left is the user's. -/
def accept (s : Serving) (isClosed : Nat → Bool) : Serving :=
  ⟨s.newest.filter fun r => !isClosed r⟩

end Serving

/-- Opens the far side for a user whom this request serves. -/
def dialAgent (request : Option ForwardRequest) (agent : Unit → Except TunnelError α) :
    Except TunnelError α :=
  match request with
  | some r => r.dial agent
  | none => .error (.forward "no agent connected")

end SshTunnels
