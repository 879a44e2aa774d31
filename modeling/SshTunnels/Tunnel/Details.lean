import SshTunnels.Time.Timestamp

/-!
# Connection details

Where users reach a tunnel, and what the last connectivity check said about it.
-/

namespace SshTunnels

/-- What is known about a tunnel's connectivity. -/
inductive TunnelHealth where
  | unknown
  | healthy
  | unhealthy
  deriving DecidableEq, Repr

namespace TunnelHealth

/-- Nothing is known at first. -/
instance : Inhabited TunnelHealth := ⟨.unknown⟩

/-- The word that stands for the health in records. -/
def name : TunnelHealth → String
  | .unknown => "unknown"
  | .healthy => "healthy"
  | .unhealthy => "unhealthy"

/-- The health that a word in a record names. -/
def ofName? : String → Option TunnelHealth
  | "unknown" => some .unknown
  | "healthy" => some .healthy
  | "unhealthy" => some .unhealthy
  | _ => none

/-- The word that is shown to people. -/
def label : TunnelHealth → String
  | .unknown => "unknown"
  | .healthy => "online"
  | .unhealthy => "offline"

/-- Users can be expected to get through. -/
def isOnline : TunnelHealth → Bool
  | .healthy => true
  | _ => false

end TunnelHealth

/-- Where a tunnel is reached and how its last check went. -/
structure TunnelDetails where
  host : String
  port : UInt16
  health : TunnelHealth
  reason : Option String
  checkedAt : Option Timestamp
  deriving DecidableEq, Repr

end SshTunnels
