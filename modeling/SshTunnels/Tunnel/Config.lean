import SshTunnels.Time.Timestamp
import SshTunnels.Uuid

/-!
# Tunnels

A tunnel leads from a port of this server to a service elsewhere. A standard tunnel reaches its
service through an SSH server that it dials; a reverse tunnel is served by an agent that dials this
server and offers the service itself.

Two configurations mean the same live tunnel when they agree on all that shapes its connection; its
creation time and whether it is enabled are bookkeeping.
-/

namespace SshTunnels

/-- Which side of the SSH connection this server plays. -/
inductive TunnelKind where
  | standard
  | reverse
  deriving DecidableEq, Repr

namespace TunnelKind

/-- The word for the kind. -/
def name : TunnelKind → String
  | .standard => "standard"
  | .reverse => "reverse"

/-- The kind that a word names; `normal` is another word for standard. -/
def ofName? : String → Option TunnelKind
  | "standard" => some .standard
  | "normal" => some .standard
  | "reverse" => some .reverse
  | _ => none

instance : ToString TunnelKind := ⟨name⟩

end TunnelKind

/-- What a key is for: to sign in with, or to recognise who signs in. -/
inductive KeyKind where
  | privateKey
  | publicKey
  deriving DecidableEq, Repr

namespace KeyKind

/-- The word for the kind. -/
def name : KeyKind → String
  | .privateKey => "private"
  | .publicKey => "public"

/-- The kind that a word names. -/
def ofName? : String → Option KeyKind
  | "private" => some .privateKey
  | "public" => some .publicKey
  | _ => none

instance : ToString KeyKind := ⟨name⟩

end KeyKind

/-- A tunnel that dials an SSH server and asks it to reach the service. -/
structure StandardTunnel where
  id : Uuid
  createdAt : Timestamp
  enabled : Bool
  tunnelPort : UInt16
  sshUser : Option String
  sshHost : String
  sshPort : UInt16
  serviceHost : String
  servicePort : UInt16
  deriving DecidableEq, Repr

/-- A tunnel that waits for an agent to offer the service. -/
structure ReverseTunnel where
  id : Uuid
  createdAt : Timestamp
  enabled : Bool
  tunnelPort : UInt16
  deriving DecidableEq, Repr

/-- The configuration of one tunnel. -/
inductive TunnelConfig where
  | standard (tunnel : StandardTunnel)
  | reverse (tunnel : ReverseTunnel)
  deriving DecidableEq, Repr

namespace StandardTunnel

/-- Equal in all that shapes the live connection. -/
def sameLive (a b : StandardTunnel) : Bool :=
  a.id == b.id && a.sshUser == b.sshUser && a.sshHost == b.sshHost && a.sshPort == b.sshPort &&
    a.tunnelPort == b.tunnelPort && a.serviceHost == b.serviceHost &&
    a.servicePort == b.servicePort

/-- The user to sign in as: the configured one, unless it is missing or empty. -/
def sshUserOr (t : StandardTunnel) (fallback : String) : String :=
  match t.sshUser with
  | some user => if user.isEmpty then fallback else user
  | none => fallback

end StandardTunnel

/-- Equal in all that shapes the live tunnel. -/
def ReverseTunnel.sameLive (a b : ReverseTunnel) : Bool :=
  a.id == b.id && a.tunnelPort == b.tunnelPort

namespace TunnelConfig

instance : Inhabited TunnelConfig := ⟨.reverse ⟨default, default, false, 0⟩⟩

/-- The tunnel's identifier. -/
def id : TunnelConfig → Uuid
  | .standard t => t.id
  | .reverse t => t.id

/-- The tunnel's kind. -/
def kind : TunnelConfig → TunnelKind
  | .standard _ => .standard
  | .reverse _ => .reverse

/-- The port that users connect to. -/
def tunnelPort : TunnelConfig → UInt16
  | .standard t => t.tunnelPort
  | .reverse t => t.tunnelPort

/-- Whether the tunnel is wanted. -/
def enabled : TunnelConfig → Bool
  | .standard t => t.enabled
  | .reverse t => t.enabled

/-- When the tunnel was entered. -/
def createdAt : TunnelConfig → Timestamp
  | .standard t => t.createdAt
  | .reverse t => t.createdAt

/-- The same configuration, wanted or not. -/
def setEnabled (enabled : Bool) : TunnelConfig → TunnelConfig
  | .standard t => .standard { t with enabled }
  | .reverse t => .reverse { t with enabled }

/-- The same configuration, entered at another time. -/
def setCreatedAt (createdAt : Timestamp) : TunnelConfig → TunnelConfig
  | .standard t => .standard { t with createdAt }
  | .reverse t => .reverse { t with createdAt }

/-- Both mean the same live tunnel. -/
def sameLive : TunnelConfig → TunnelConfig → Bool
  | .standard a, .standard b => a.sameLive b
  | .reverse a, .reverse b => a.sameLive b
  | _, _ => false

end TunnelConfig
end SshTunnels
