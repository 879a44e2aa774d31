import SshTunnels.CommandLine.Error
import SshTunnels.Key.Generate
import SshTunnels.Key.Load
import SshTunnels.Store.Keys
import SshTunnels.Store.Tunnels

/-!
# Commands for keys

A new key pair, or a key from a file, for a tunnel. The server keeps the private half for a standard
tunnel and the public half for a reverse one. A command looks the tunnel up, stores the key, and
then authorizes it: three statements, between which others may change the database.
-/

namespace SshTunnels

/-- A command for the keys of a tunnel: a new pair unless none can be made, or the contents of a
file unless it cannot be read. -/
inductive KeyCommand where
  | generate (tunnel : Uuid) (pair : Except ProgramError GeneratedKeyPair)
  | authorize (tunnel : Uuid) (contents : Except ProgramError Bytes)

/-- A key to be stored, and what the command prints in the end. -/
structure KeyMaterial where
  kind : KeyKind
  contents : Bytes
  printed : String
  deriving DecidableEq, Repr

/-- The next statement of a command, or its result. -/
inductive KeyCommandPhase where
  | lookingUp
  | inserting (kind : TunnelKind) (material : KeyMaterial)
  | authorizing (kind : TunnelKind) (printed : String)
  | done (result : Except ProgramError String)

namespace KeyCommand

/-- The tunnel of a command. -/
def tunnel : KeyCommand → Uuid
  | .generate tunnel _ | .authorize tunnel _ => tunnel

/-- What a command stores for a tunnel of this kind, under an identifier. -/
def material (kind : TunnelKind) (id : Uuid) : KeyCommand → Except ProgramError KeyMaterial
  | .generate _ pair => do
    let pair ← pair
    match kind with
    | .standard => return ⟨.privateKey, Bytes.ofString pair.privateText, pair.publicText⟩
    | .reverse => return ⟨.publicKey, Bytes.ofString pair.publicText, pair.privateText⟩
  | .authorize _ contents => do
    let contents ← contents
    match kind with
    | .standard =>
      let _ ← (PrivateKey.load contents).mapError .ssh
      return ⟨.privateKey, contents, id.text⟩
    | .reverse =>
      let _ ← (PublicKey.load contents).mapError .ssh
      return ⟨.publicKey, contents, id.text⟩

/-- Carries out one statement. The key is stored under the given identifier. -/
def step (command : KeyCommand) (id : Uuid) (now : Timestamp) (db : Database) :
    KeyCommandPhase → KeyCommandPhase × Database
  | .lookingUp =>
    match db.getTunnel command.tunnel with
    | .error e => (.done (.error (.store e)), db)
    | .ok none => (.done (.error (.noTunnel command.tunnel)), db)
    | .ok (some config) =>
      match command.material config.kind id with
      | .error e => (.done (.error e), db)
      | .ok material => (.inserting config.kind material, db)
  | .inserting kind material =>
    (.authorizing kind material.printed, db.putKey now id material.kind material.contents)
  | .authorizing kind printed =>
    match db.authorizeKey command.tunnel kind id with
    | .error e => (.done (.error (.store e)), db)
    | .ok db => (.done (.ok printed), db)
  | .done result => (.done result, db)

end KeyCommand

namespace KeyCommandPhase

/-- The next statement changes the database. -/
def isChange : KeyCommandPhase → Bool
  | .inserting .. | .authorizing .. => true
  | _ => false

/-- The result of a command that is done. -/
def result? : KeyCommandPhase → Option (Except ProgramError String)
  | .done result => some result
  | _ => none

end KeyCommandPhase
end SshTunnels
