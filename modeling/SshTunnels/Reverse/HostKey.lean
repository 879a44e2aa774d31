import SshTunnels.Files.FileSystem
import SshTunnels.Key.Generate
import SshTunnels.Tunnel.Error

/-!
# The host key

The key by which agents know the server. It is read from its file; a missing file is made, with a
new key, in steps that others can observe: look, make the directory, write the key, and take the
permissions of others away. A file that is found is never changed, whatever it holds.
-/

namespace SshTunnels

/-- What loading a host key fails with. -/
inductive HostKeyError where
  | io (code : OsCode)
  | key (error : SshError)
  deriving DecidableEq, Repr

/-- The error as one of a tunnel. -/
def HostKeyError.toTunnelError : HostKeyError → TunnelError
  | .io code => .io (.system code)
  | .key e => .sshCore e

/-- Where loading stands. -/
inductive HostKeyLoad where
  | looking
  | reading
  | makingDirectory (key : GeneratedKeyPair)
  | writing (key : GeneratedKeyPair)
  | securing (key : GeneratedKeyPair)
  | done (result : Except HostKeyError PrivateKey)

namespace HostKeyLoad

/-- The key that a text or bytes hold, as the end of the loading. -/
def finish (key : Except SshError PrivateKey) : HostKeyLoad :=
  .done (key.mapError .key)

/-- A failed operation, as the end of the loading. -/
def fail (code : OsCode) : HostKeyLoad :=
  .done (.error (.io code))

/-- One step of loading the key at a path; `fresh` is the key to use if there is none yet. -/
def next (path : String) (fresh : GeneratedKeyPair) (fs : FileSystem) :
    HostKeyLoad → FileSystem × HostKeyLoad
  | .looking =>
    if path = "" then (fs, .makingDirectory fresh)
    else match fs.exists? (fs.place path) with
      | .ok true => (fs, .reading)
      | .ok false => (fs, .makingDirectory fresh)
      | .error code => (fs, fail code)
  | .reading =>
    match fs.readFile (fs.place path) with
    | .ok bytes => (fs, finish (PrivateKey.load bytes))
    | .error code => (fs, fail code)
  | .makingDirectory key =>
    match fs.makeParent path with
    | (fs, none) => (fs, .writing key)
    | (fs, some code) => (fs, fail code)
  | .writing key =>
    if path = "" then (fs, fail .noSuchFile)
    else match fs.writeFile (fs.place path) (.bytes (Bytes.ofString key.privateText)) with
      | .ok fs => (fs, .securing key)
      | .error code => (fs, fail code)
  | .securing key =>
    match fs.setMode (fs.place path) privateMode with
    | .ok fs => (fs, finish (PrivateKey.loadText key.privateText.toList))
    | .error code => (fs, fail code)
  | .done result => (fs, .done result)

/-- The states after each of so many steps. -/
def trace (path : String) (fresh : GeneratedKeyPair) :
    (steps : Nat) → FileSystem × HostKeyLoad → List (FileSystem × HostKeyLoad)
  | 0, state => [state]
  | steps + 1, (fs, load) => (fs, load) :: trace path fresh steps (load.next path fresh fs)

/-- Loads the key at a path to its end. -/
def run (path : String) (fresh : GeneratedKeyPair) :
    (steps : Nat) → FileSystem × HostKeyLoad → FileSystem × Except HostKeyError PrivateKey
  | _, (fs, .done result) => (fs, result)
  | 0, (fs, _) => (fs, .error (.io .noSuchFile))
  | steps + 1, (fs, load) => run path fresh steps (load.next path fresh fs)

end HostKeyLoad

/-- The server's host key. Without a path it is a new one, and no file is touched. -/
def hostKey (fs : FileSystem) (path : Option String) (fresh : GeneratedKeyPair) :
    FileSystem × Except HostKeyError PrivateKey :=
  match path with
  | none => (fs, (PrivateKey.loadText fresh.privateText.toList).mapError .key)
  | some path => HostKeyLoad.run path fresh 5 (fs, .looking)

end SshTunnels
