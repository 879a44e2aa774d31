import SshTunnels.Files.Path
import SshTunnels.Store.Database

/-!
# Files

A tree of directories and files with their permission bits, as one owner sees it. An operation does
what it says or fails with a code and changes nothing, but for directories made on the way. To reach
a place every directory on the way must be there and be open to search; to make something new its
directory must allow writing.
-/

namespace SshTunnels

/-- What a file holds: bytes, or the tables of a database. -/
inductive FileContents where
  | bytes (bytes : Bytes)
  | tables (database : Database)
  deriving DecidableEq, Repr

/-- What lies at a place. -/
inductive FileNode where
  | directory (mode : Nat)
  | file (mode : Nat) (contents : FileContents)
  deriving DecidableEq, Repr

namespace FileNode

/-- The permission bits. -/
def mode : FileNode → Nat
  | .directory mode => mode
  | .file mode _ => mode

/-- The same node with other permission bits. -/
def setMode (mode : Nat) : FileNode → FileNode
  | .directory _ => .directory mode
  | .file _ contents => .file mode contents

/-- The owner may read. -/
def isReadable (n : FileNode) : Bool := n.mode.testBit 8

/-- The owner may write. -/
def isWritable (n : FileNode) : Bool := n.mode.testBit 7

/-- The owner may search or run. -/
def isSearchable (n : FileNode) : Bool := n.mode.testBit 6

/-- It is a directory. -/
def isDirectory : FileNode → Bool
  | .directory _ => true
  | .file .. => false

end FileNode

/-- The permission bits of a private file: its owner reads and writes. -/
def privateMode : Nat := 0o600

/-- What lies where, the working directory, and the permission bits that new files do not get. -/
structure FileSystem where
  nodes : List (Place × FileNode) := []
  cwd : String := "/"
  umask : Nat := 0o022
  deriving DecidableEq, Repr

namespace FileSystem

/-- Permission bits without those that new files do not get. -/
def allowed (fs : FileSystem) (mode : Nat) : Nat :=
  mode &&& (0o777 ^^^ (fs.umask &&& 0o777))

/-- The node at a place, whatever the way there; the root is always there. -/
def node? (fs : FileSystem) (place : Place) : Option FileNode :=
  if place = [] then some (.directory 0o755) else fs.nodes.lookup place

/-- The first fault on the way down to a place. -/
def wayFault? (fs : FileSystem) (place : Place) : Option OsCode :=
  (List.range place.length).findSome? fun n =>
    match fs.node? (place.take n) with
    | none => some .noSuchFile
    | some (.file ..) => some .notDirectory
    | some (.directory mode) =>
      if (FileNode.directory mode).isSearchable then none else some .permissionDenied

/-- The node at a place, or nothing, or a fault on the way. -/
def find (fs : FileSystem) (place : Place) : Except OsCode (Option FileNode) :=
  match fs.wayFault? place with
  | some code => .error code
  | none => .ok (fs.node? place)

/-- Something lies at a place; a fault other than a missing directory leaves that open. -/
def exists? (fs : FileSystem) (place : Place) : Except OsCode Bool :=
  match fs.find place with
  | .ok node => .ok node.isSome
  | .error .noSuchFile => .ok false
  | .error code => .error code

/-- A directory lies at a place. -/
def isDirectory (fs : FileSystem) (place : Place) : Bool :=
  match fs.find place with
  | .ok (some node) => node.isDirectory
  | _ => false

/-- A directory lies at a place, and it is open to search. -/
def isSearchable (fs : FileSystem) (place : Place) : Bool :=
  match fs.find place with
  | .ok (some (.directory mode)) => (FileNode.directory mode).isSearchable
  | _ => false

/-- One step on the way down from a place. In a directory the steps that name nothing stay there and
two dots lead one up. Where there is no directory they are kept, as names that nothing has, so that
the fault is met on the way. -/
def descend (fs : FileSystem) (here : Place) (step : String) : Place :=
  if step = ".." ∧ fs.isSearchable here then here.dropLast
  else if step = "." ∧ fs.isSearchable here then here
  else if step = "" ∧ fs.isDirectory here then here
  else here ++ [step]

/-- The place that these steps from the root lead to. -/
def walk (fs : FileSystem) (steps : List String) : Place :=
  steps.foldl fs.descend []

/-- The place that a path names. -/
def place (fs : FileSystem) (path : String) : Place :=
  fs.walk (Path.steps (Path.absolute fs.cwd path))

/-- Puts a node at a place. -/
def put (fs : FileSystem) (place : Place) (node : FileNode) : FileSystem :=
  { fs with nodes := (place, node) :: fs.nodes.filter (·.1 != place) }

/-- Makes something new. -/
def add (fs : FileSystem) (place : Place) (node : FileNode) : Except OsCode FileSystem :=
  match fs.find place with
  | .error code => .error code
  | .ok (some _) => .error .fileExists
  | .ok none =>
    match fs.node? place.dropLast with
    | some parent => if parent.isWritable then .ok (fs.put place node) else .error .permissionDenied
    | none => .error .noSuchFile

/-- Makes a directory. -/
def makeDirectory (fs : FileSystem) (place : Place) : Except OsCode FileSystem :=
  fs.add place (.directory (fs.allowed 0o777))

/-- Makes the directory that these steps from the root lead to, in reverse order, and those above it
that are missing. Directories that are there already are fine. What has been made stays if a fault
keeps the rest from being made. -/
def makeWay (fs : FileSystem) : (upward : List String) → FileSystem × Option OsCode
  | [] => (fs, none)
  | step :: upward =>
    let make (fs : FileSystem) : Except OsCode FileSystem :=
      fs.makeDirectory (fs.walk (step :: upward).reverse)
    let settle (fs : FileSystem) : Except OsCode FileSystem → FileSystem × Option OsCode
      | .ok made => (made, none)
      | .error code =>
        (fs, if fs.isDirectory (fs.walk (step :: upward).reverse) then none else some code)
    match make fs with
    | .error .noSuchFile =>
      match makeWay fs upward with
      | (fs, none) => settle fs (make fs)
      | (fs, some code) => (fs, some code)
    | made => settle fs made

/-- Makes a directory and those above it that are missing, or fails. -/
def makeDirectories (fs : FileSystem) (place : Place) : Except OsCode FileSystem :=
  match fs.makeWay place.reverse with
  | (fs, none) => .ok fs
  | (_, some code) => .error code

/-- Makes the directory that is to hold a path's last name. -/
def makeParent (fs : FileSystem) (path : String) : FileSystem × Option OsCode :=
  match Path.parent? path with
  | none | some "" => (fs, none)
  | some dir => fs.makeWay (fs.place dir).reverse

/-- Makes a new file. Its place may not ask for a directory. -/
def addFile (fs : FileSystem) (place : Place) (node : FileNode) : Except OsCode FileSystem :=
  if place.getLast? = some "" then .error ((fs.wayFault? place.dropLast).getD .isDirectory)
  else fs.add place node

/-- Makes an empty file with these permission bits; nothing may be there yet. -/
def createFile (fs : FileSystem) (place : Place) (mode : Nat) : Except OsCode FileSystem :=
  fs.addFile place (.file (fs.allowed mode) (.bytes []))

/-- Writes a file from its start; a file that is there keeps its permission bits. -/
def writeFile (fs : FileSystem) (place : Place) (contents : FileContents) :
    Except OsCode FileSystem :=
  match fs.find place with
  | .ok (some (.directory _)) => .error .isDirectory
  | .ok (some (.file mode old)) =>
    if (FileNode.file mode old).isWritable then .ok (fs.put place (.file mode contents))
    else .error .permissionDenied
  | .ok none | .error _ => fs.addFile place (.file (fs.allowed 0o666) contents)

/-- The bytes of a file. The tables of a database are no text. -/
def readFile (fs : FileSystem) (place : Place) : Except OsCode Bytes :=
  match fs.find place with
  | .error code => .error code
  | .ok none => .error .noSuchFile
  | .ok (some node) =>
    if !node.isReadable then .error .permissionDenied
    else match node with
      | .directory _ => .error .isDirectory
      | .file _ (.bytes bytes) => .ok bytes
      | .file _ (.tables _) => .ok [0xFF]

/-- Sets permission bits. -/
def setMode (fs : FileSystem) (place : Place) (mode : Nat) : Except OsCode FileSystem :=
  match fs.find place with
  | .error code => .error code
  | .ok none => .error .noSuchFile
  | .ok (some node) => .ok (fs.put place (node.setMode mode))

/-- Removes a file. -/
def remove (fs : FileSystem) (place : Place) : Except OsCode FileSystem :=
  match fs.find place with
  | .error code => .error code
  | .ok none => .error .noSuchFile
  | .ok (some (.directory _)) => .error .isDirectory
  | .ok (some (.file ..)) => .ok { fs with nodes := fs.nodes.filter (·.1 != place) }

end FileSystem
end SshTunnels
