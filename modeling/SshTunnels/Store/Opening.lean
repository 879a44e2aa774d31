import SshTunnels.Files.FileSystem
import SshTunnels.Store.Handle
import SshTunnels.Store.Location
import SshTunnels.Text.Digits

/-!
# Opening the database

Opening goes in steps, and other programs may act between any two of them: look whether the file is
there, make its directory, make the file for its owner alone, connect, and take permissions from
others that an older file still gives them. A URL is connected to as it is.
-/

namespace SshTunnels

/-- Where an opened database keeps its tables. -/
inductive DatabaseHome where
  | memory
  | file (place : Place) (writable : Bool)
  deriving DecidableEq, Repr

/-- An opened database. -/
structure OpenedStore where
  url : String
  path : Option String
  fresh : Bool
  home : DatabaseHome
  deriving DecidableEq, Repr

namespace OpenedStore

/-- The database for people to read: its path, or else its URL. -/
def display (o : OpenedStore) : String :=
  o.path.getD o.url

end OpenedStore

/-- Where opening stands. -/
inductive Opening where
  | looking (path : String)
  | makingDirectory (path : String) (existed : Bool)
  | creating (path : String)
  | connecting (url : String) (path : Option String) (fresh : Bool)
  | securing (opened : OpenedStore)
  | done (result : Except StoreError OpenedStore)

namespace Opening

/-- The first step for a database of this name. -/
def start (name : String) : Opening :=
  if DatabaseAddress.isUrl name then .connecting name none false else .looking name

/-- Connects to a database file that is there or may be made. Its path is read as a text alone. -/
def connectFile (fs : FileSystem) (a : DatabaseAddress) : Option (FileSystem × DatabaseHome) :=
  let place := Path.place (Path.absolute fs.cwd a.path)
  match fs.find place with
  | .error _ | .ok (some (.directory _)) => none
  | .ok none =>
    if a.create then
      (fs.createFile place 0o644).toOption.map fun fs => (fs, .file place true)
    else none
  | .ok (some node) =>
    if node.isReadable then some (fs, .file place (node.isWritable && !a.readOnly)) else none

/-- Connects to what a URL names. -/
def connect (fs : FileSystem) (url : String) : Option (FileSystem × DatabaseHome) := do
  let a ← DatabaseAddress.ofUrl? url
  if a.inMemory then some (fs, .memory) else connectFile fs a

/-- Takes the permissions of others from a file; failing at that is no failure. -/
def secure (fs : FileSystem) (path : String) : FileSystem :=
  match fs.find (fs.place path) with
  | .ok (some node) =>
    if node.mode % 0o1000 = privateMode then fs
    else (fs.setMode (fs.place path) privateMode).toOption.getD fs
  | _ => fs

/-- One step. -/
def next (fs : FileSystem) : Opening → FileSystem × Opening
  | .looking path =>
    let existed := match fs.exists? (fs.place path) with
      | .ok found => found && path != ""
      | .error _ => false
    (fs, .makingDirectory path existed)
  | .makingDirectory path existed =>
    match fs.makeParent path with
    | (fs, some code) =>
      (fs, .done (.error (.directoryCreationFailed ((Path.parent? path).getD "") (.system code))))
    | (fs, none) =>
      if existed then (fs, .connecting (DatabaseAddress.url fs.cwd path) (some path) false)
      else (fs, .creating path)
  | .creating path =>
    let connecting := Opening.connecting (DatabaseAddress.url fs.cwd path) (some path) true
    let failed (code : OsCode) := Opening.done (.error (.fileCreationFailed path (.system code)))
    if path = "" then (fs, failed .noSuchFile)
    else match fs.createFile (fs.place path) privateMode with
      | .ok fs => (fs, connecting)
      | .error .fileExists => (fs, connecting)
      | .error code => (fs, failed code)
  | .connecting url path fresh =>
    match connect fs url with
    | none => (fs, .done (.error (.connectionFailed url)))
    | some (fs, home) =>
      let opened : OpenedStore := ⟨url, path, fresh, home⟩
      (fs, if path.isSome && !fresh then .securing opened else .done (.ok opened))
  | .securing opened => (opened.path.elim fs (secure fs), .done (.ok opened))
  | .done result => (fs, .done result)

/-- The steps of an opening, each after an act of others. -/
def play : List (FileSystem → FileSystem) → FileSystem × Opening → FileSystem × Opening
  | [], state => state
  | others :: rest, (fs, o) => play rest (o.next (others fs))

/-- The number of steps that every opening is done after. -/
def steps : Nat := 5

/-- The result of an opening that is done. -/
def result? : Opening → Option (Except StoreError OpenedStore)
  | .done result => some result
  | _ => none

/-- Opens the database that is given or that the environment names, undisturbed. -/
def run (fs : FileSystem) (given : Option String) (env : Environment) :
    FileSystem × Except StoreError OpenedStore :=
  let name := (DatabaseAddress.named? given env).getD (DatabaseAddress.defaultPath env)
  let first : Opening :=
    if (DatabaseAddress.named? given env).isSome then start name else .looking name
  let (fs, o) := play (List.replicate steps id) (fs, first)
  (fs, o.result?.getD (.error (.connectionFailed name)))

end Opening

/-- The most connections at a time, as the environment may say. -/
def maxConnections (env : Environment) : Nat :=
  (((env.lookup "TB_DB_MAX_CONNECTIONS").bind Text.natural?).filter (· < UInt32.size)).getD 8

namespace OpenedStore

/-- Reads the tables of an opened database; `memory` are those that it keeps in memory. -/
def tables (o : OpenedStore) (fs : FileSystem) (memory : Database) :
    Except QueryFault Database :=
  match o.home with
  | .memory => .ok memory
  | .file place _ =>
    match fs.node? place with
    | some (.file _ (.tables db)) => .ok db
    | some (.file _ (.bytes [])) => .error .noSuchTable
    | _ => .error .notDatabase

/-- Keeps changed tables. -/
def keep (o : OpenedStore) (fs : FileSystem) (db : Database) : FileSystem :=
  match o.home with
  | .memory => fs
  | .file place _ =>
    match fs.node? place with
    | some node => fs.put place (.file node.mode (.tables db))
    | none => fs

/-- The tables can be changed. -/
def isWritable (o : OpenedStore) : Bool :=
  match o.home with
  | .memory => true
  | .file _ writable => writable

/-- Makes the tables, if they are not there yet. -/
def migrate (o : OpenedStore) (fs : FileSystem) (memory : Database) :
    Except StoreError Unit × FileSystem × Database :=
  match o.tables fs memory with
  | .ok _ => (.ok (), fs, memory)
  | .error .noSuchTable =>
    if o.isWritable then (.ok (), o.keep fs {}, memory) else (.error .migrationFailed, fs, memory)
  | .error _ => (.error .migrationFailed, fs, memory)

/-- Changes the tables. -/
def write (o : OpenedStore) (fs : FileSystem) (memory : Database)
    (change : Database → Except StoreError Database) :
    Except StoreError Unit × FileSystem × Database :=
  match o.tables fs memory with
  | .error fault => (.error (.query (some fault)), fs, memory)
  | .ok db =>
    if !o.isWritable then (.error (.query (some .readOnly)), fs, memory)
    else match change db with
      | .error e => (.error e, fs, memory)
      | .ok db => (.ok (), o.keep fs db, if o.home = .memory then db else memory)

end OpenedStore
end SshTunnels
