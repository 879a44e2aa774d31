import SshTunnels.Store.Keys
import SshTunnels.Store.Tunnels

/-!
# The store

A database that can be closed. Whatever is asked of a closed store fails, and a change that fails
leaves the database as it was.
-/

namespace SshTunnels

/-- A database and whether it still answers. -/
structure Store where
  database : Database := {}
  isClosed : Bool := false
  deriving DecidableEq, Repr

namespace Store

/-- Asks the database. -/
def read (s : Store) (query : Database → Except StoreError α) : Except StoreError α :=
  if s.isClosed then .error (.query none) else query s.database

/-- Changes the database, and says how that went. -/
def write (s : Store) (change : Database → Except StoreError Database) :
    Except StoreError Unit × Store :=
  match s.read change with
  | .ok database => (.ok (), { s with database })
  | .error e => (.error e, s)

/-- Brings the tables up to date; they are. -/
def migrate (s : Store) : Except StoreError Unit :=
  if s.isClosed then .error .migrationFailed else .ok ()

/-- The store, closed. -/
def close (s : Store) : Store :=
  { s with isClosed := true }

end Store
end SshTunnels
