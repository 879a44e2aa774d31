import SshTunnels.Tunnel.Details
import SshTunnels.Tunnel.Error

/-!
# Discovery

Where users reach each tunnel. All tunnels are reached on one host. A tunnel has details from its
registration on; a fresh registration knows nothing about health, and health of a tunnel that is not
registered is dropped.
-/

namespace SshTunnels

/-- The host, and the details of the registered tunnels, each tunnel once. -/
structure Discovery where
  host : String
  entries : List (Uuid × TunnelDetails) := []
  deriving DecidableEq, Repr

namespace Discovery

/-- The details of a tunnel. -/
def details? (d : Discovery) (id : Uuid) : Option TunnelDetails :=
  d.entries.lookup id

/-- Forgets a tunnel. -/
def deregister (d : Discovery) (id : Uuid) : Discovery :=
  { d with entries := d.entries.filter (·.1 != id) }

/-- Registers a tunnel, whose health is unknown. -/
def register (d : Discovery) (id : Uuid) (port : UInt16) : Discovery :=
  { d with entries := (id, ⟨d.host, port, .unknown, none, none⟩) :: (d.deregister id).entries }

/-- Notes the health of a registered tunnel. -/
def updateHealth (d : Discovery) (id : Uuid) (health : TunnelHealth) (reason : Option String)
    (now : Timestamp) : Discovery :=
  { d with entries := d.entries.map fun (i, t) =>
      if i == id then (i, { t with health, reason, checkedAt := some now }) else (i, t) }

end Discovery
end SshTunnels
