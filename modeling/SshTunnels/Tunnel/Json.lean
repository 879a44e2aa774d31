import SshTunnels.Json.Record
import SshTunnels.Time.Rfc3339
import SshTunnels.Tunnel.Details
import SshTunnels.Tunnel.Row

/-!
# Tunnels in JSON

The written form of configurations, rows and connection details, and how each is read back.
-/

namespace SshTunnels

/-- Reads an identifier. -/
def Uuid.ofJson? (j : Json) : Option Uuid :=
  j.string?.bind Uuid.ofString?

/-- Reads an instant. -/
def Timestamp.ofJson? (j : Json) : Option Timestamp :=
  j.string?.bind Timestamp.ofString?

namespace StandardTunnel

/-- The fields of a standard tunnel, in order. -/
def fieldNames : List String :=
  ["id", "created_at", "enabled", "tunnel_port", "ssh_user", "ssh_host", "ssh_port",
    "service_host", "service_port"]

/-- The members of the written form. -/
def members (t : StandardTunnel) : List (String × Json) :=
  [("id", .string t.id.text), ("created_at", .string t.createdAt.text),
    ("enabled", .bool t.enabled), ("tunnel_port", .ofNat t.tunnelPort.toNat),
    ("ssh_user", .ofString? t.sshUser), ("ssh_host", .string t.sshHost),
    ("ssh_port", .ofNat t.sshPort.toNat), ("service_host", .string t.serviceHost),
    ("service_port", .ofNat t.servicePort.toNat)]

/-- The written form. -/
def toJson (t : StandardTunnel) : Json :=
  .object t.members

/-- Reads the written form. -/
def ofJson? (j : Json) : Option StandardTunnel := do
  let f ← j.fields? fieldNames
  return {
    id := ← f.required "id" Uuid.ofJson?
    createdAt := ← f.required "created_at" Timestamp.ofJson?
    enabled := ← f.required "enabled" Json.bool?
    tunnelPort := ← f.required "tunnel_port" Json.port?
    sshUser := ← f.optional "ssh_user" Json.string?
    sshHost := ← f.required "ssh_host" Json.string?
    sshPort := ← f.required "ssh_port" Json.port?
    serviceHost := ← f.required "service_host" Json.string?
    servicePort := ← f.required "service_port" Json.port? }

end StandardTunnel

namespace ReverseTunnel

/-- The fields of a reverse tunnel, in order. -/
def fieldNames : List String :=
  ["id", "created_at", "enabled", "tunnel_port"]

/-- The members of the written form. -/
def members (t : ReverseTunnel) : List (String × Json) :=
  [("id", .string t.id.text), ("created_at", .string t.createdAt.text),
    ("enabled", .bool t.enabled), ("tunnel_port", .ofNat t.tunnelPort.toNat)]

/-- The written form. -/
def toJson (t : ReverseTunnel) : Json :=
  .object t.members

/-- Reads the written form. -/
def ofJson? (j : Json) : Option ReverseTunnel := do
  let f ← j.fields? fieldNames
  return {
    id := ← f.required "id" Uuid.ofJson?
    createdAt := ← f.required "created_at" Timestamp.ofJson?
    enabled := ← f.required "enabled" Json.bool?
    tunnelPort := ← f.required "tunnel_port" Json.port? }

end ReverseTunnel

namespace TunnelConfig

/-- The written form names the kind first. -/
def toJson : TunnelConfig → Json
  | .standard t => .object (("kind", .string TunnelKind.standard.name) :: t.members)
  | .reverse t => .object (("kind", .string TunnelKind.reverse.name) :: t.members)

/-- Reads the written form. The kind may be named anywhere in an object; its alias is not
accepted. -/
def ofJson? (j : Json) : Option TunnelConfig :=
  match j.tagged? "kind" with
  | some ("standard", rest) => (StandardTunnel.ofJson? rest).map .standard
  | some ("reverse", rest) => (ReverseTunnel.ofJson? rest).map .reverse
  | _ => none

end TunnelConfig

namespace TunnelRow

/-- The columns of a row, in order. -/
def fieldNames : List String :=
  ["id", "kind", "enabled", "created_at", "tunnel_port", "ssh_user", "ssh_host", "ssh_port",
    "service_host", "service_port"]

/-- The written form. -/
def toJson (row : TunnelRow) : Json :=
  .object [("id", .string row.id.text), ("kind", .string row.kind), ("enabled", .bool row.enabled),
    ("created_at", .string row.createdAt.text), ("tunnel_port", .ofInt row.tunnelPort),
    ("ssh_user", .ofString? row.sshUser), ("ssh_host", .ofString? row.sshHost),
    ("ssh_port", row.sshPort.elim .null .ofInt), ("service_host", .ofString? row.serviceHost),
    ("service_port", row.servicePort.elim .null .ofInt)]

/-- Reads the written form. -/
def ofJson? (j : Json) : Option TunnelRow := do
  let f ← j.fields? fieldNames
  return {
    id := ← f.required "id" Uuid.ofJson?
    kind := ← f.required "kind" Json.string?
    enabled := ← f.required "enabled" Json.bool?
    createdAt := ← f.required "created_at" Timestamp.ofJson?
    tunnelPort := ← f.required "tunnel_port" Json.int64?
    sshUser := ← f.optional "ssh_user" Json.string?
    sshHost := ← f.optional "ssh_host" Json.string?
    sshPort := ← f.optional "ssh_port" Json.int64?
    serviceHost := ← f.optional "service_host" Json.string?
    servicePort := ← f.optional "service_port" Json.int64? }

end TunnelRow

/-- Reads a kind of tunnel; its alias is not accepted. -/
def TunnelKind.ofJson? (j : Json) : Option TunnelKind :=
  match j.choice? with
  | some "standard" => some .standard
  | some "reverse" => some .reverse
  | _ => none

/-- Reads a kind of key. -/
def KeyKind.ofJson? (j : Json) : Option KeyKind :=
  j.choice?.bind KeyKind.ofName?

/-- Reads a health. -/
def TunnelHealth.ofJson? (j : Json) : Option TunnelHealth :=
  j.choice?.bind TunnelHealth.ofName?

namespace TunnelDetails

/-- The fields of connection details, in order. -/
def fieldNames : List String :=
  ["host", "port", "health", "reason", "checked_at"]

/-- The written form. -/
def toJson (d : TunnelDetails) : Json :=
  .object [("host", .string d.host), ("port", .ofNat d.port.toNat),
    ("health", .string d.health.name), ("reason", .ofString? d.reason),
    ("checked_at", .ofString? (d.checkedAt.map Timestamp.text))]

/-- Reads the written form. -/
def ofJson? (j : Json) : Option TunnelDetails := do
  let f ← j.fields? fieldNames
  return {
    host := ← f.required "host" Json.string?
    port := ← f.required "port" Json.port?
    health := ← f.required "health" TunnelHealth.ofJson?
    reason := ← f.optional "reason" Json.string?
    checkedAt := ← f.optional "checked_at" Timestamp.ofJson? }

end TunnelDetails

/-- Reads a reference to a key: a record of its identifier. -/
def Uuid.ofReference? (j : Json) : Option Uuid := do
  (← j.fields? ["id"]).required "id" Uuid.ofJson?

end SshTunnels
