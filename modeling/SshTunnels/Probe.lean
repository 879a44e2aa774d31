import SshTunnels.IoError
import SshTunnels.Options
import SshTunnels.Tunnel.Details

/-!
# Probes

One check of a tunnel's endpoint: dial it, then listen to it for a while. A tunnel that cannot reach
its far side resets its users, so only a fault says that the tunnel is offline; silence, a clean
close and bytes all say that it is online. A probe reads no more than it has to. But it makes room
for all that it may read as soon as it is connected, and that fails if there can be no such buffer.
-/

namespace SshTunnels

/-- How an endpoint answers a dial: with a connection or a fault after some time, or never. -/
inductive DialAnswer where
  | connected (took : Span)
  | failed (took : Span) (fault : IoError)
  | silent
  deriving DecidableEq, Repr

/-- What comes in over a connection. -/
inductive Arrival where
  | bytes (count : Nat)
  | closed
  | failed (fault : IoError)
  deriving DecidableEq, Repr

/-- The behaviour of an endpoint: its answer to a dial, and what arrives then, each after a
pause. -/
structure Endpoint where
  dial : DialAnswer
  arrivals : List (Span × Arrival) := []
  deriving DecidableEq, Repr

/-- Why a probe finds a tunnel offline. -/
inductive ProbeFault where
  | dial (fault : IoError)
  | dialTimeout (limit : Span)
  | read (fault : IoError)
  deriving DecidableEq, Repr

/-- What a probe found out: the bytes it read, the time it took, and the fault if there was one. -/
structure ProbeOutcome where
  bytesRead : Nat
  took : Span
  fault : Option ProbeFault
  deriving DecidableEq, Repr

namespace ProbeFault

/-- The fault in words, for an address. -/
def reason (address : String) : ProbeFault → String
  | .dial e => s!"dial {address}: {e.message}"
  | .dialTimeout limit => s!"dial {address}: timed out after {limit}"
  | .read e => s!"read {address}: {e.message}"

end ProbeFault

namespace Probe

/-- Listens for at most `wait` and for at most `budget` bytes. What arrives as the wait ends still
counts. -/
def listen (budget : Nat) (wait : Span) : List (Span × Arrival) → ProbeOutcome
  | [] => ⟨0, wait, none⟩
  | (pause, arrival) :: rest =>
    if wait.nanos < pause.nanos then ⟨0, wait, none⟩
    else match arrival with
      | .closed => ⟨0, pause, none⟩
      | .failed e => ⟨0, pause, some (.read e)⟩
      | .bytes count =>
        if budget ≤ count then ⟨budget, pause, none⟩
        else
          let later := listen (budget - count) ⟨wait.nanos - pause.nanos⟩ rest
          ⟨count + later.bytesRead, ⟨pause.nanos + later.took.nanos⟩, later.fault⟩

/-- What a check of an endpoint finds out, if there is room for what may be read. -/
def check (options : ConncheckOptions) (endpoint : Endpoint) : ProbeOutcome :=
  let timedOut := ⟨0, options.dialTimeout, some (.dialTimeout options.dialTimeout)⟩
  match endpoint.dial with
  | .silent => timedOut
  | .failed took e =>
    if took.nanos ≤ options.dialTimeout.nanos then ⟨0, took, some (.dial e)⟩ else timedOut
  | .connected took =>
    if took.nanos ≤ options.dialTimeout.nanos then
      let heard := listen (max 1 options.maxRead) options.readWait endpoint.arrivals
      { heard with took := ⟨took.nanos + heard.took.nanos⟩ }
    else timedOut

/-- The longest buffer that there can be. Room for a shorter one is taken to be there always:
running out of memory is left out. -/
def maxBuffer : Nat := UInt64.size / 2 - 1

/-- The dial succeeds, and soon enough. -/
def isReached (options : ConncheckOptions) (endpoint : Endpoint) : Bool :=
  match endpoint.dial with
  | .connected took => took.nanos ≤ options.dialTimeout.nanos
  | _ => false

/-- Checks an endpoint once, unless it is reached and there is no room for what may be read: then
there is no outcome. -/
def check? (options : ConncheckOptions) (endpoint : Endpoint) : Option ProbeOutcome :=
  if isReached options endpoint && maxBuffer < options.maxRead then none
  else some (check options endpoint)

end Probe

/-- What a probe says about the tunnel. -/
def ProbeOutcome.health (o : ProbeOutcome) : TunnelHealth :=
  if o.fault.isNone then .healthy else .unhealthy

/-- Why the tunnel at an address is offline, if it is. -/
def ProbeOutcome.reason? (o : ProbeOutcome) (address : String) : Option String :=
  o.fault.map (·.reason address)

end SshTunnels
