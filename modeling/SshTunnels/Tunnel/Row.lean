import SshTunnels.Tunnel.Config

/-!
# Stored rows

A tunnel is stored as a flat row whose columns for the SSH server and the service are empty for a
reverse tunnel. Every configuration has a row; a row is read back column by column, and the first
column that does not fit is the fault.
-/

namespace SshTunnels

/-- Why a row is no tunnel. -/
inductive RowError where
  | unknownTunnelKind (text : String)
  | unknownKeyKind (text : String)
  | missingField (kind : TunnelKind) (id : Uuid) (field : String)
  | portOutOfRange (field : String) (value : Int)
  deriving DecidableEq, Repr

/-- The name of the fault. -/
def RowError.name : RowError → String
  | .unknownTunnelKind _ => "UnknownTunnelKind"
  | .unknownKeyKind _ => "UnknownKeyKind"
  | .missingField .. => "MissingField"
  | .portOutOfRange .. => "PortOutOfRange"

/-- The fault in words. -/
def RowError.message : RowError → String
  | .unknownTunnelKind text => s!"unknown tunnel kind '{text}'"
  | .unknownKeyKind text => s!"unknown key kind '{text}'"
  | .missingField kind id field => s!"{kind} tunnel {id} is missing field '{field}'"
  | .portOutOfRange field value => s!"port {value} for field '{field}' is out of range"

/-- A stored tunnel. Columns hold whatever was put there. -/
structure TunnelRow where
  id : Uuid
  kind : String
  enabled : Bool
  createdAt : Timestamp
  tunnelPort : Int
  sshUser : Option String
  sshHost : Option String
  sshPort : Option Int
  serviceHost : Option String
  servicePort : Option Int
  deriving DecidableEq, Repr

namespace TunnelRow

/-- A column's value as a port. -/
def port (field : String) (value : Int) : Except RowError UInt16 :=
  if 0 ≤ value ∧ value ≤ 65535 then .ok (UInt16.ofNat value.toNat)
  else .error (.portOutOfRange field value)

/-- The value of a column that a standard tunnel needs. -/
def column (row : TunnelRow) (field : String) : Option α → Except RowError α
  | some value => .ok value
  | none => .error (.missingField .standard row.id field)

/-- The tunnel that a row describes. -/
def toConfig (row : TunnelRow) : Except RowError TunnelConfig :=
  match TunnelKind.ofName? row.kind with
  | none => .error (.unknownTunnelKind row.kind)
  | some .reverse => do
    let tunnelPort ← port "tunnel_port" row.tunnelPort
    return .reverse ⟨row.id, row.createdAt, row.enabled, tunnelPort⟩
  | some .standard => do
    let tunnelPort ← port "tunnel_port" row.tunnelPort
    let sshHost ← row.column "ssh_host" row.sshHost
    let sshPort ← port "ssh_port" (← row.column "ssh_port" row.sshPort)
    let serviceHost ← row.column "service_host" row.serviceHost
    let servicePort ← port "service_port" (← row.column "service_port" row.servicePort)
    return .standard ⟨row.id, row.createdAt, row.enabled, tunnelPort, row.sshUser, sshHost,
      sshPort, serviceHost, servicePort⟩

/-- The row of a tunnel. -/
def ofConfig : TunnelConfig → TunnelRow
  | .standard t =>
    ⟨t.id, TunnelKind.standard.name, t.enabled, t.createdAt, t.tunnelPort.toNat, t.sshUser,
      some t.sshHost, some t.sshPort.toNat, some t.serviceHost, some t.servicePort.toNat⟩
  | .reverse t =>
    ⟨t.id, TunnelKind.reverse.name, t.enabled, t.createdAt, t.tunnelPort.toNat, none, none, none,
      none, none⟩

end TunnelRow
end SshTunnels
