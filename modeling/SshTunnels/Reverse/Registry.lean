import SshTunnels.Key.PublicKey
import SshTunnels.Tunnel.Error

/-!
# The registry of reverse tunnels

Which reverse tunnels the SSH server serves, and with which keys. No two tunnels share a port. Every
registration has a serial number of its own; whoever registered a tunnel holds its number, and can
take back that registration and no later one. A registration that leaves the registry is ended: the
agents that forward for it are to be disconnected.

Serial numbers are natural numbers and do not run out. A counter of 64 bits stands for them, so what
is said here is said of fewer than `2 ^ 64` registrations.
-/

namespace SshTunnels

/-- A tunnel to be registered. -/
structure RegisteredTunnel where
  id : Uuid
  port : UInt16
  authorizedKeys : List PublicKey
  deriving DecidableEq, Repr

/-- A tunnel that an agent may forward for. -/
structure AuthorizedTunnel where
  id : Uuid
  port : UInt16
  deriving DecidableEq, Repr

/-- What the holder of a registration keeps. -/
structure Registration where
  id : Uuid
  serial : Nat
  deriving DecidableEq, Repr

/-- A registered tunnel with the number of its registration. -/
structure RegistryEntry where
  tunnel : RegisteredTunnel
  serial : Nat
  deriving DecidableEq, Repr

/-- The registered tunnels, the number of the next registration, and the registrations that have
ended. -/
structure Registry where
  entries : List RegistryEntry := []
  nextSerial : Nat := 0
  ended : List Nat := []
  deriving DecidableEq, Repr

namespace RegisteredTunnel

/-- One of these keys is an authorized one. -/
def authorizes (t : RegisteredTunnel) (key : PublicKey) : Bool :=
  t.authorizedKeys.any (·.sameKey key)

end RegisteredTunnel

namespace Registry

/-- Takes out the entries that satisfy a test; their registrations end. -/
def removeIf (r : Registry) (gone : RegistryEntry → Bool) : Registry :=
  { r with
    entries := r.entries.filter fun e => !gone e
    ended := r.ended ++ (r.entries.filter gone).map (·.serial) }

/-- The tunnel that holds a port. -/
def holder? (r : Registry) (port : UInt16) : Option RegistryEntry :=
  r.entries.find? (·.tunnel.port == port)

/-- Registers a tunnel. An earlier registration of the same tunnel ends; a port that another tunnel
holds is refused. -/
def register (r : Registry) (t : RegisteredTunnel) : Except TunnelError (Registration × Registry) :=
  match r.entries.find? fun e => e.tunnel.port == t.port && e.tunnel.id != t.id with
  | some owner => .error (.portConflict t.port owner.tunnel.id)
  | none =>
    let rest := r.removeIf (·.tunnel.id == t.id)
    .ok (⟨t.id, r.nextSerial⟩, { rest with
      entries := rest.entries ++ [⟨t, r.nextSerial⟩]
      nextSerial := r.nextSerial + 1 })

/-- Takes a tunnel out, whoever registered it. -/
def deregister (r : Registry) (id : Uuid) : Registry :=
  r.removeIf (·.tunnel.id == id)

/-- Takes a registration back. -/
def release (r : Registry) (g : Registration) : Registry :=
  r.removeIf fun e => e.tunnel.id == g.id && e.serial == g.serial

/-- The tunnels that a key may forward for, by port. -/
def authorizedTunnels (r : Registry) (key : PublicKey) : List AuthorizedTunnel :=
  ((r.entries.filter (·.tunnel.authorizes key)).map fun e => ⟨e.tunnel.id, e.tunnel.port⟩).mergeSort
    fun a b => a.port ≤ b.port

/-- The tunnel is registered. -/
def contains (r : Registry) (id : Uuid) : Bool :=
  r.entries.any (·.tunnel.id == id)

/-- The number of registered tunnels. -/
def size (r : Registry) : Nat :=
  r.entries.length

end Registry
end SshTunnels
