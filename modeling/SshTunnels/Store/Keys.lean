import SshTunnels.Store.Database

/-!
# Stored keys

Contents of keys, and which keys are authorized for which tunnel. A tunnel's keys are listed by the
time of their creation; an authorization goes when its tunnel or its key goes.
-/

namespace SshTunnels.Database

/-- Stores the contents of a key. A key that is there already gets the new kind and contents and
keeps its creation time. -/
def putKey (db : Database) (now : Timestamp) (id : Uuid) (kind : KeyKind) (contents : Bytes) :
    Database :=
  match db.key? id with
  | some _ => { db with
      keys := db.keys.map fun k => if k.id == id then { k with kind, contents } else k }
  | none => { db with keys := db.keys ++ [⟨id, kind, contents, now.stored⟩] }

/-- Forgets a key, and with it what it was authorized for. -/
def deleteKey (db : Database) (id : Uuid) : Except StoreError Database :=
  match db.key? id with
  | none => .error (.keyNotFound id)
  | some _ => .ok { db with
      keys := db.keys.filter (·.id != id)
      authorizations := db.authorizations.filter (·.key != id) }

/-- The key is authorized for the tunnel, under whichever kind. -/
def isAuthorized (db : Database) (tunnel key : Uuid) : Bool :=
  db.authorizations.any fun a => a.tunnel == tunnel && a.key == key

/-- Authorizes a key for a tunnel. A pair that is authorized already stays as it is; tunnel and key
must be stored. -/
def authorizeKey (db : Database) (tunnel : Uuid) (kind : TunnelKind) (key : Uuid) :
    Except StoreError Database :=
  if db.isAuthorized tunnel key then .ok db
  else if (db.tunnel? tunnel).isNone || (db.key? key).isNone then
    .error (.query (some .foreignKey))
  else .ok { db with authorizations := db.authorizations ++ [⟨tunnel, kind, key⟩] }

/-- Takes an authorization back. -/
def revokeKey (db : Database) (tunnel key : Uuid) : Database :=
  { db with
    authorizations := db.authorizations.filter fun a => !(a.tunnel == tunnel && a.key == key) }

/-- Earlier keys come first, and of keys of one time the smaller identifier. -/
def keyLe (a b : StoredKey) : Bool :=
  a.createdAt < b.createdAt || (a.createdAt == b.createdAt && a.id.le b.id)

/-- The keys that are authorized for a tunnel of this kind, oldest first. -/
def tunnelKeys (db : Database) (tunnel : Uuid) (kind : TunnelKind) : List Uuid :=
  let authorized := db.authorizations.filter fun a => a.tunnel == tunnel && a.kind == kind
  ((authorized.filterMap fun a => db.key? a.key).mergeSort keyLe).map (·.id)

end SshTunnels.Database
