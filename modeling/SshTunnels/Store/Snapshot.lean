import SshTunnels.Files.FileSystem
import SshTunnels.Json.Reader
import SshTunnels.Json.Record
import SshTunnels.Json.Writer

/-!
# Snapshots of a database

The text that a database's file holds: an object with an array of rows for each table, in the order
of the tables. A row is an object with a member for each column, and contents of keys are
hexadecimal digits. What is not of this form is a file like any other.
-/

namespace SshTunnels

namespace StoredTunnel

/-- The columns of a tunnel. -/
def columns : List String :=
  ["id", "kind", "enabled", "created_at", "tunnel_port", "ssh_user", "ssh_host", "ssh_port",
    "service_host", "service_port"]

/-- The row as an object. -/
def toJson (t : StoredTunnel) : Json :=
  .object (columns.zip [.string t.id.text, .string t.kind, .ofInt t.enabled, .string t.createdAt,
    .ofInt t.tunnelPort, .ofString? t.sshUser, .ofString? t.sshHost, t.sshPort.elim .null .ofInt,
    .ofString? t.serviceHost, t.servicePort.elim .null .ofInt])

/-- The row that an object tells. -/
def ofJson? (j : Json) : Option StoredTunnel := do
  let f ← j.fields? columns
  return ⟨← (← f.required "id" Json.string?) |> Uuid.ofString?, ← f.required "kind" Json.string?,
    ← f.required "enabled" Json.int?, ← f.required "created_at" Json.string?,
    ← f.required "tunnel_port" Json.int?, ← f.optional "ssh_user" Json.string?,
    ← f.optional "ssh_host" Json.string?, ← f.optional "ssh_port" Json.int?,
    ← f.optional "service_host" Json.string?, ← f.optional "service_port" Json.int?⟩

end StoredTunnel

namespace StoredKey

/-- The columns of a key. -/
def columns : List String := ["id", "kind", "contents", "created_at"]

/-- The row as an object. -/
def toJson (k : StoredKey) : Json :=
  .object (columns.zip [.string k.id.text, .string k.kind.name, .string k.contents.hex,
    .string k.createdAt])

/-- The row that an object tells. -/
def ofJson? (j : Json) : Option StoredKey := do
  let f ← j.fields? columns
  return ⟨← (← f.required "id" Json.string?) |> Uuid.ofString?,
    ← (← f.required "kind" Json.string?) |> KeyKind.ofName?,
    ← (← f.required "contents" Json.string?).toList |> Bytes.ofHex?,
    ← f.required "created_at" Json.string?⟩

end StoredKey

namespace Authorization

/-- The columns of an authorization. -/
def columns : List String := ["tunnel", "kind", "key"]

/-- The row as an object. -/
def toJson (a : Authorization) : Json :=
  .object (columns.zip [.string a.tunnel.text, .string a.kind.name, .string a.key.text])

/-- The row that an object tells. -/
def ofJson? (j : Json) : Option Authorization := do
  let f ← j.fields? columns
  return ⟨← (← f.required "tunnel" Json.string?) |> Uuid.ofString?,
    ← (← f.required "kind" Json.string?) |> TunnelKind.ofName?,
    ← (← f.required "key" Json.string?) |> Uuid.ofString?⟩

end Authorization

namespace Database

/-- The names of the tables. -/
def tableNames : List String := ["tunnels", "keys", "authorizations"]

/-- The tables as an object. -/
def toJson (db : Database) : Json :=
  .object (tableNames.zip [.array (db.tunnels.map (·.toJson)), .array (db.keys.map (·.toJson)),
    .array (db.authorizations.map (·.toJson))])

/-- The tables that an object tells. -/
def ofJson? (j : Json) : Option Database := do
  let f ← j.fields? tableNames
  return ⟨← (← f.required "tunnels" Json.array?).mapM StoredTunnel.ofJson?,
    ← (← f.required "keys" Json.array?).mapM StoredKey.ofJson?,
    ← (← f.required "authorizations" Json.array?).mapM Authorization.ofJson?⟩

end Database

namespace FileContents

/-- The bytes that a file with these contents has. -/
def toBytes : FileContents → Bytes
  | .bytes raw => raw
  | .tables db => Bytes.ofString db.toJson.write

/-- The contents of a file with these bytes. -/
def ofBytes (raw : Bytes) : FileContents :=
  match ((Bytes.toString? raw).bind Json.read?).bind Database.ofJson? with
  | some db => .tables db
  | none => .bytes raw

end FileContents
end SshTunnels
