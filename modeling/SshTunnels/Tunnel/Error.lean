import SshTunnels.Store.Error
import SshTunnels.Time.Span

/-!
# Tunnel errors

What ends a tunnel, a session or a listing. A fault before the tunnel accepts connections is a boot
error: it names the boot step that failed and keeps the fault that caused it.
-/

namespace SshTunnels

/-- An error of a tunnel. -/
inductive TunnelError where
  | boot (event : String) (source : TunnelError)
  | io (error : IoError)
  | ssh (detail : String)
  | sshCore (error : SshError)
  | store (error : StoreError)
  | bind (address : String) (error : IoError)
  | timeout (action : String) (after : Span)
  | authFailed (user address : String)
  | noKeys (kind : TunnelKind) (id : Uuid)
  | keyNotFound (id : Uuid)
  | keepalive (detail : String)
  | listener (error : IoError)
  | portConflict (port : UInt16) (owner : Uuid)
  | forward (detail : String)
  | list (detail : String)
  | discovery (detail : String)
  | stale (age : Span)
  | panicked
  | other (text : String)
  deriving DecidableEq, Repr

namespace TunnelError

instance : Inhabited TunnelError := ⟨.panicked⟩

/-- The name of the error. -/
def name : TunnelError → String
  | .boot .. => "Boot"
  | .io _ => "Io"
  | .ssh _ => "Ssh"
  | .sshCore e => e.name
  | .store e => e.name
  | .bind .. => "Bind"
  | .timeout .. => "Timeout"
  | .authFailed .. => "AuthFailed"
  | .noKeys .. => "NoKeys"
  | .keyNotFound _ => "KeyNotFound"
  | .keepalive _ => "Keepalive"
  | .listener _ => "Listener"
  | .portConflict .. => "PortConflict"
  | .forward _ => "Forward"
  | .list _ => "List"
  | .discovery _ => "Discovery"
  | .stale _ => "Stale"
  | .panicked => "Panicked"
  | .other _ => "Other"

/-- The error in words. -/
def message : TunnelError → String
  | .boot event source => s!"boot error [{event}]: {source.message}"
  | .io e => s!"I/O error: {e.message}"
  | .ssh detail => s!"SSH protocol error: {detail}"
  | .sshCore e => e.message
  | .store e => e.message
  | .bind address e => s!"failed to bind {address}: {e.message}"
  | .timeout action after => s!"{action} timed out after {after}"
  | .authFailed user address => s!"ssh authentication failed for {user}@{address}"
  | .noKeys kind id => s!"{kind} tunnel {id} has no keys"
  | .keyNotFound id => s!"key {id} not found in keystore"
  | .keepalive detail => s!"keepalive failed: {detail}"
  | .listener e => s!"listener failed: {e.message}"
  | .portConflict port owner => s!"port {port} is already registered by tunnel {owner}"
  | .forward detail => s!"forwarding channel unavailable: {detail}"
  | .list detail => s!"listing tunnels failed: {detail}"
  | .discovery detail => s!"discovery error: {detail}"
  | .stale age => s!"tunnels have not been refreshed for {age}"
  | .panicked => "tunnel task panicked"
  | .other text => text

/-- The fault is a boot error. -/
def isBoot : TunnelError → Bool
  | .boot .. => true
  | _ => false

/-- The boot step that failed. -/
def bootEvent? : TunnelError → Option String
  | .boot event _ => some event
  | _ => none

/-- Marks a fault as a failure of a boot step; a fault that is marked keeps its step. -/
def atBoot (event : String) (e : TunnelError) : TunnelError :=
  if e.isBoot then e else .boot event e

/-- The faults that an error of the SSH layer was caused by, in words. -/
def sshSources : SshError → List String
  | .io e | .bindFailed _ e | .connectionFailed _ e => [e.message]
  | _ => []

/-- The faults that an error of the store was caused by, in words. -/
def storeSources : StoreError → List String
  | .io e | .directoryCreationFailed _ e | .fileCreationFailed _ e => [e.message]
  | .invalidRow _ e => [e.message]
  | _ => []

/-- The faults that an error was caused by, nearest first, in words. -/
def sources : TunnelError → List String
  | .boot _ source => source.message :: source.sources
  | .io e | .bind _ e | .listener e => [e.message]
  | .sshCore e => sshSources e
  | .store e => storeSources e
  | _ => []

end TunnelError
end SshTunnels
