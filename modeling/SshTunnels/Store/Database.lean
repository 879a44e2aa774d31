import SshTunnels.Bytes
import SshTunnels.Store.Error
import SshTunnels.Time.Stored

/-!
# The database

Three tables: tunnels, keys, and the authorizations that tie a key to a tunnel. Rows lie in the
order of their insertion. A row enters a table only if it keeps the table's constraints, which are
tried in a fixed order: columns that must not be empty, then value checks, then the primary key.
-/

namespace SshTunnels

/-- The columns of a tunnel as somebody may want to insert them. -/
structure TunnelColumns where
  id : Option Uuid
  kind : Option String
  enabled : Option Int
  createdAt : Option String
  tunnelPort : Option Int
  sshUser : Option String
  sshHost : Option String
  sshPort : Option Int
  serviceHost : Option String
  servicePort : Option Int
  deriving DecidableEq, Repr

/-- A tunnel as it lies in its table. -/
structure StoredTunnel where
  id : Uuid
  kind : String
  enabled : Int
  createdAt : String
  tunnelPort : Int
  sshUser : Option String
  sshHost : Option String
  sshPort : Option Int
  serviceHost : Option String
  servicePort : Option Int
  deriving DecidableEq, Repr

/-- A key as it lies in its table. -/
structure StoredKey where
  id : Uuid
  kind : KeyKind
  contents : Bytes
  createdAt : String
  deriving DecidableEq, Repr

/-- A key is authorized for a tunnel of a kind. -/
structure Authorization where
  tunnel : Uuid
  kind : TunnelKind
  key : Uuid
  deriving DecidableEq, Repr

/-- The three tables. -/
structure Database where
  tunnels : List StoredTunnel := []
  keys : List StoredKey := []
  authorizations : List Authorization := []
  deriving DecidableEq, Repr

instance : Inhabited Database := ⟨{}⟩

namespace StoredTunnel

/-- The row to insert, if no column that a tunnel needs is empty. -/
def ofColumns? (c : TunnelColumns) : Option StoredTunnel := do
  return ⟨← c.id, ← c.kind, ← c.enabled, ← c.createdAt, ← c.tunnelPort, c.sshUser, c.sshHost,
    c.sshPort, c.serviceHost, c.servicePort⟩

/-- A row of these values. -/
def ofRow (row : TunnelRow) : StoredTunnel :=
  ⟨row.id, row.kind, if row.enabled then 1 else 0, row.createdAt.stored, row.tunnelPort,
    row.sshUser, row.sshHost, row.sshPort, row.serviceHost, row.servicePort⟩

/-- The values of a row; only its creation time can be unreadable. -/
def toRow? (t : StoredTunnel) : Option TunnelRow :=
  (Timestamp.ofStored? t.createdAt).map fun createdAt =>
    ⟨t.id, t.kind, t.enabled != 0, createdAt, t.tunnelPort, t.sshUser, t.sshHost, t.sshPort,
      t.serviceHost, t.servicePort⟩

/-- The value checks: a known kind, a port that can be bound, and a service if the tunnel is not a
reverse one. -/
def isSound (t : StoredTunnel) : Bool :=
  (t.kind == "standard" || t.kind == "reverse") && 1 ≤ t.tunnelPort && t.tunnelPort ≤ 65535 &&
    (t.kind == "reverse" ||
      (t.sshHost.isSome && t.sshPort.isSome && t.serviceHost.isSome && t.servicePort.isSome))

end StoredTunnel

namespace Database

/-- The tunnel of this identifier. -/
def tunnel? (db : Database) (id : Uuid) : Option StoredTunnel :=
  db.tunnels.find? (·.id == id)

/-- The key of this identifier. -/
def key? (db : Database) (id : Uuid) : Option StoredKey :=
  db.keys.find? (·.id == id)

/-- Adds a tunnel that keeps the constraints. -/
def addTunnel (db : Database) (t : StoredTunnel) : Except StoreError Database :=
  if !t.isSound then .error (.query (some .check))
  else if (db.tunnel? t.id).isSome then .error (.query (some .primaryKey))
  else .ok { db with tunnels := db.tunnels ++ [t] }

/-- Adds a tunnel without its value checks. -/
def addTunnelUnchecked (db : Database) (t : StoredTunnel) : Except StoreError Database :=
  if (db.tunnel? t.id).isSome then .error (.query (some .primaryKey))
  else .ok { db with tunnels := db.tunnels ++ [t] }

/-- Adds a tunnel of these columns. -/
def addColumns (db : Database) (checked : Bool) (c : TunnelColumns) :
    Except StoreError Database :=
  match StoredTunnel.ofColumns? c with
  | none => .error (.query (some .notNull))
  | some t => if checked then db.addTunnel t else db.addTunnelUnchecked t

end Database
end SshTunnels
