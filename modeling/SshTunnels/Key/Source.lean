import SshTunnels.Key.Load
import SshTunnels.Store.Handle
import SshTunnels.Tunnel.Error

/-!
# Keys of a tunnel

A tunnel needs keys: a standard tunnel signs in with private keys, a reverse tunnel recognises its
agents by public ones. A source finds a tunnel's key references and fetches their contents, from
memory or from the store. Loading is all or nothing: first every key is fetched, then every key is
read, and the first fault is the answer.
-/

namespace SshTunnels

/-- Keys in memory: contents by reference, and references by tunnel. -/
structure MemoryKeys where
  contents : List (Uuid × Bytes) := []
  authorized : List Authorization := []
  deriving DecidableEq, Repr

namespace MemoryKeys

/-- The contents of a key. -/
def get (m : MemoryKeys) (key : Uuid) : Except TunnelError Bytes :=
  match m.contents.lookup key with
  | some contents => .ok contents
  | none => .error (.keyNotFound key)

/-- Stores the contents of a key. -/
def set (m : MemoryKeys) (key : Uuid) (contents : Bytes) : MemoryKeys :=
  { m with contents := (key, contents) :: m.contents.filter (·.1 != key) }

/-- Forgets the contents of a key, if there are any. -/
def delete (m : MemoryKeys) (key : Uuid) : MemoryKeys :=
  { m with contents := m.contents.filter (·.1 != key) }

/-- Authorizes a key for a tunnel, once. -/
def authorize (m : MemoryKeys) (tunnel : Uuid) (kind : TunnelKind) (key : Uuid) : MemoryKeys :=
  let a : Authorization := ⟨tunnel, kind, key⟩
  if m.authorized.contains a then m else { m with authorized := m.authorized ++ [a] }

/-- A tunnel's keys in the order of their authorization. -/
def tunnelKeys (m : MemoryKeys) (tunnel : Uuid) (kind : TunnelKind) : List Uuid :=
  (m.authorized.filter fun a => a.tunnel == tunnel && a.kind == kind).map (·.key)

end MemoryKeys

namespace Store

/-- The contents of a key. -/
def getKey (s : Store) (key : Uuid) : Except TunnelError Bytes :=
  match s.read fun db => .ok ((db.key? key).map (·.contents)) with
  | .ok (some contents) => .ok contents
  | .ok none => .error (.keyNotFound key)
  | .error e => .error (.store e)

/-- Contents that can be read as a private key are stored as one. -/
def kindOfContents (contents : Bytes) : KeyKind :=
  match PrivateKey.load contents with
  | .ok _ => .privateKey
  | .error _ => .publicKey

/-- Stores the contents of a key. -/
def setKey (s : Store) (now : Timestamp) (key : Uuid) (contents : Bytes) :
    Except StoreError Unit × Store :=
  s.write fun db => .ok (db.putKey now key (kindOfContents contents) contents)

/-- Forgets a key. -/
def deleteKey (s : Store) (key : Uuid) : Except StoreError Unit × Store :=
  s.write fun db => db.deleteKey key

/-- A tunnel's keys, oldest first. -/
def tunnelKeys (s : Store) (tunnel : Uuid) (kind : TunnelKind) : Except TunnelError (List Uuid) :=
  match s.read fun db => .ok (db.tunnelKeys tunnel kind) with
  | .ok keys => .ok keys
  | .error e => .error (.store e)

end Store

/-- Where keys come from. -/
structure KeySource where
  tunnelKeys : Uuid → TunnelKind → Except TunnelError (List Uuid)
  fetch : Uuid → Except TunnelError Bytes

namespace KeySource

/-- Keys in memory. -/
def ofMemory (m : MemoryKeys) : KeySource :=
  ⟨fun tunnel kind => .ok (m.tunnelKeys tunnel kind), m.get⟩

/-- Keys in the store. -/
def ofStore (s : Store) : KeySource :=
  ⟨s.tunnelKeys, s.getKey⟩

/-- The contents of all keys of a tunnel. -/
def contents (source : KeySource) (tunnel : Uuid) (kind : TunnelKind) :
    Except TunnelError (List Bytes) := do
  match ← source.tunnelKeys tunnel kind with
  | [] => .error (.noKeys kind tunnel)
  | refs => refs.mapM source.fetch

/-- Reads all contents, or tells the first fault. -/
def readAll (read : Bytes → Except SshError κ) (contents : List Bytes) :
    Except TunnelError (List κ) :=
  match contents.mapM read with
  | .ok keys => .ok keys
  | .error e => .error (.sshCore e)

/-- The keys that a standard tunnel signs in with. -/
def privateKeys (source : KeySource) (tunnel : Uuid) : Except TunnelError (List PrivateKey) := do
  readAll PrivateKey.load (← source.contents tunnel .standard)

/-- The keys that a reverse tunnel's agents sign in with. -/
def authorizedKeys (source : KeySource) (tunnel : Uuid) : Except TunnelError (List PublicKey) := do
  readAll PublicKey.load (← source.contents tunnel .reverse)

end KeySource
end SshTunnels
