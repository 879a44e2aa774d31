import SshTunnels.SshError
import SshTunnels.Tunnel.Row

/-!
# Store errors

What goes wrong with the stored state: opening the database, a query against it, or a row that
describes nothing valid.
-/

namespace SshTunnels

/-- The faults of a statement that have a code: a constraint that it breaks, or a database that does
not suit it. -/
inductive QueryFault where
  | noSuchTable
  | readOnly
  | notDatabase
  | check
  | foreignKey
  | notNull
  | primaryKey
  | unique
  deriving DecidableEq, Repr

/-- The code of a fault. -/
def QueryFault.code : QueryFault → Nat
  | .noSuchTable => 1
  | .readOnly => 8
  | .notDatabase => 26
  | .check => 275
  | .foreignKey => 787
  | .notNull => 1299
  | .primaryKey => 1555
  | .unique => 2067

/-- An error of the stored state. A query fails with a code, or for a reason that has none:
a column that does not decode, or a closed database. -/
inductive StoreError where
  | connectionFailed (path : String)
  | migrationFailed
  | io (error : IoError)
  | query (fault : Option QueryFault)
  | tunnelNotFound (id : Uuid)
  | keyNotFound (id : Uuid)
  | invalidRow (id : Uuid) (error : RowError)
  | invalidPath (path : String)
  | directoryCreationFailed (path : String) (error : IoError)
  | fileCreationFailed (path : String) (error : IoError)
  | taskPanicked (detail : String)
  deriving DecidableEq, Repr

/-- The name of the error. -/
def StoreError.name : StoreError → String
  | .connectionFailed _ => "ConnectionFailed"
  | .migrationFailed => "MigrationFailed"
  | .io _ => "Io"
  | .query _ => "Query"
  | .tunnelNotFound _ => "TunnelNotFound"
  | .keyNotFound _ => "KeyNotFound"
  | .invalidRow .. => "InvalidRow"
  | .invalidPath _ => "InvalidPath"
  | .directoryCreationFailed .. => "DirectoryCreationFailed"
  | .fileCreationFailed .. => "FileCreationFailed"
  | .taskPanicked _ => "TaskPanicked"

/-- The error in words. -/
def StoreError.message : StoreError → String
  | .connectionFailed path => s!"failed to open database at {path}: {elided}"
  | .migrationFailed => s!"migration failed: {elided}"
  | .io e => s!"I/O error: {e.message}"
  | .query _ => s!"database query error: {elided}"
  | .tunnelNotFound id => s!"tunnel {id} not found"
  | .keyNotFound id => s!"key {id} not found"
  | .invalidRow id e => s!"invalid row {id}: {e.message}"
  | .invalidPath path => s!"invalid sqlite path: {path}"
  | .directoryCreationFailed path e => s!"failed to create directory {path}: {e.message}"
  | .fileCreationFailed path e => s!"failed to create database file {path}: {e.message}"
  | .taskPanicked detail => s!"background task panicked: {detail}"

end SshTunnels
