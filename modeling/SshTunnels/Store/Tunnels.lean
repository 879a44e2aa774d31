import SshTunnels.Store.Database

/-!
# Stored tunnels

The configurations that are wanted. Every operation either does all of its work or fails and changes
nothing. Lists are in the order of the stored creation times; rows that describe no tunnel are left
out of them.
-/

namespace SshTunnels.Database

/-- Stores a new tunnel. -/
def insertTunnel (db : Database) (config : TunnelConfig) : Except StoreError Database :=
  db.addTunnel (.ofRow (.ofConfig config))

/-- The row that replaces a stored one: a tunnel's creation time never changes. -/
def replacement (config : TunnelConfig) (old : StoredTunnel) : StoredTunnel :=
  { StoredTunnel.ofRow (.ofConfig config) with createdAt := old.createdAt }

/-- Replaces a stored tunnel. -/
def updateTunnel (db : Database) (config : TunnelConfig) : Except StoreError Database :=
  match db.tunnel? config.id with
  | none => .error (.tunnelNotFound config.id)
  | some old =>
    if !(replacement config old).isSound then .error (.query (some .check))
    else .ok { db with
      tunnels := db.tunnels.map fun t => if t.id == config.id then replacement config t else t }

/-- Says whether a stored tunnel is wanted. -/
def setTunnelEnabled (db : Database) (id : Uuid) (enabled : Bool) : Except StoreError Database :=
  match db.tunnel? id with
  | none => .error (.tunnelNotFound id)
  | some _ => .ok { db with
      tunnels := db.tunnels.map fun t =>
        if t.id == id then { t with enabled := if enabled then 1 else 0 } else t }

/-- Forgets a tunnel, and with it what was authorized for it. -/
def deleteTunnel (db : Database) (id : Uuid) : Except StoreError Database :=
  match db.tunnel? id with
  | none => .error (.tunnelNotFound id)
  | some _ => .ok { db with
      tunnels := db.tunnels.filter (·.id != id)
      authorizations := db.authorizations.filter (·.tunnel != id) }

/-- The values of a row. -/
def readRow (t : StoredTunnel) : Except StoreError TunnelRow :=
  match t.toRow? with
  | some row => .ok row
  | none => .error (.query none)

/-- The stored tunnel of this identifier. -/
def getTunnel (db : Database) (id : Uuid) : Except StoreError (Option TunnelConfig) :=
  match db.tunnel? id with
  | none => .ok none
  | some t => do
    match (← readRow t).toConfig with
    | .ok config => .ok (some config)
    | .error e => .error (.invalidRow id e)

/-- Rows in the order of their stored creation times, earlier insertions first. -/
def byCreation (ts : List StoredTunnel) : List StoredTunnel :=
  ts.mergeSort fun a b => a.createdAt ≤ b.createdAt

/-- The configurations that rows describe, in their order. -/
def configs (ts : List StoredTunnel) : Except StoreError (List TunnelConfig) := do
  let rows ← (byCreation ts).mapM readRow
  return rows.filterMap (·.toConfig.toOption)

/-- All stored tunnels. -/
def listTunnels (db : Database) : Except StoreError (List TunnelConfig) :=
  configs db.tunnels

/-- The stored tunnels that are wanted. -/
def listEnabledTunnels (db : Database) : Except StoreError (List TunnelConfig) :=
  configs (db.tunnels.filter (·.enabled == 1))

end SshTunnels.Database
