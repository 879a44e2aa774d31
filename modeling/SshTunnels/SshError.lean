import SshTunnels.IoError
import SshTunnels.Tunnel.Config

/-!
# SSH errors

What goes wrong with connections and keys below the level of tunnels. The wording of a cause that
lies in a foreign format or protocol is not fixed here: `elided` stands for it.
-/

namespace SshTunnels

/-- Stands for the wording of a cause that no rule of this library fixes. -/
def elided : String := "*"

/-- Why a text is no key. -/
inductive KeyFault where
  | notUtf8
  | encrypted
  | encryptedLegacy
  | unrecognised
  | base64
  | pkcs1
  | malformed (detail : String)
  deriving DecidableEq, Repr

/-- The fault in words. -/
def KeyFault.message : KeyFault → String
  | .notUtf8 => "key is not valid UTF-8"
  | .encrypted => "encrypted private keys are not supported"
  | .encryptedLegacy => "encrypted legacy PEM keys are not supported"
  | .unrecognised => "not a valid OpenSSH, PKCS#8, or legacy PEM private key"
  | .base64 => "base64 decode error: " ++ elided
  | .pkcs1 => "PKCS1 decode error: " ++ elided
  | .malformed detail => detail

/-- An error of the SSH layer. -/
inductive SshError where
  | io (error : IoError)
  | protocol (detail : String)
  | bindFailed (address : String) (error : IoError)
  | connectionFailed (address : String) (error : IoError)
  | invalidKey (kind : KeyKind) (fault : KeyFault)
  | keyGeneration (detail : String)
  | emptyValue (field : String)
  | other (text : String)
  deriving DecidableEq, Repr

namespace SshError

/-- The name of the error. -/
def name : SshError → String
  | .io _ => "Io"
  | .protocol _ => "Ssh"
  | .bindFailed .. => "BindFailed"
  | .connectionFailed .. => "ConnectionFailed"
  | .invalidKey .. => "InvalidKey"
  | .keyGeneration _ => "KeyGeneration"
  | .emptyValue _ => "EmptyValue"
  | .other _ => "Other"

/-- The error in words. -/
def message : SshError → String
  | .io e => s!"I/O error: {e.message}"
  | .protocol detail => s!"SSH protocol error: {detail}"
  | .bindFailed address e => s!"failed to bind {address}: {e.message}"
  | .connectionFailed address e => s!"failed to connect to {address}: {e.message}"
  | .invalidKey kind fault => s!"invalid {kind} key: {fault.message}"
  | .keyGeneration detail => s!"key generation failed: {detail}"
  | .emptyValue field => s!"{field} must not be empty"
  | .other text => text

end SshError
end SshTunnels
