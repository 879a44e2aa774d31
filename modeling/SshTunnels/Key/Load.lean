import SshTunnels.Key.Armour
import SshTunnels.Key.PrivateKey
import SshTunnels.SshError

/-!
# Loading keys

Key contents are bytes of unknown make. A public key is the first line that is neither blank nor a
comment. A private key is tried in the strict form first, then as any armoured key, then as an RSA
key with its markers anywhere; the last attempt decides which fault is reported.
-/

namespace SshTunnels

/-- The contents as text. -/
def keyText (kind : KeyKind) (contents : Bytes) : Except SshError (List Char) :=
  match contents.toString? with
  | some text => .ok text.toList
  | none => .error (.invalidKey kind .notUtf8)

/-- The public key that contents hold. -/
def PublicKey.load (contents : Bytes) : Except SshError PublicKey := do
  let text ← keyText .publicKey contents
  match ((Text.lines text).map Text.trim).find? fun l => l ≠ [] ∧ l.head? ≠ some '#' with
  | none => .error (.emptyValue "public key")
  | some line =>
    match PublicKey.ofLine? line with
    | some key => .ok key
    | none => .error (.invalidKey .publicKey (.malformed elided))

namespace PrivateKey

/-- The armour's name of the form of OpenSSH. -/
def opensshName : String := "OPENSSH PRIVATE KEY"

/-- The key in the strict form; it may be encrypted. -/
def ofStrict? (text : List Char) : Option PrivateKey := do
  read.run (← Armour.strictBody opensshName text) true

/-- The key that an armoured body holds; the answer `none` is that it is encrypted. -/
def ofBody? : Armour.Form → Bytes → Option (Option PrivateKey)
  | .openssh, bytes => (read.run bytes false).map fun k => if k.isSealed then none else some k
  | .rsa, bytes => (ofPkcs1? bytes).map some
  | .general, bytes | .sealedGeneral, bytes => (ofPkcs8OrSec1? bytes).map some
  | .sealedRsa, _ => some none

/-- The RSA key between markers anywhere in the text. -/
def loadLegacy (text : List Char) : Except SshError PrivateKey :=
  let fault (f : KeyFault) : SshError := .invalidKey .privateKey f
  match Armour.LegacyKey.find? text with
  | none => .error (fault .unrecognised)
  | some key =>
    if key.sealed then .error (fault .encryptedLegacy)
    else
      match Base64.decode key.body with
      | none => .error (fault .base64)
      | some der =>
        match ofPkcs1? der with
        | none => .error (fault .pkcs1)
        | some k => .ok k

/-- The private key that a text holds. -/
def loadText (text : List Char) : Except SshError PrivateKey :=
  if Text.trim text = [] then .error (.emptyValue "private key")
  else
    match ofStrict? text with
    | some k => .ok k
    | none =>
      match (Armour.scan text).bind fun (form, bytes) => ofBody? form bytes with
      | some (some k) => .ok k
      | some none => .error (.invalidKey .privateKey .encrypted)
      | none => loadLegacy text

/-- The private key that contents hold. -/
def load (contents : Bytes) : Except SshError PrivateKey := do
  loadText (← keyText .privateKey contents)

end PrivateKey
end SshTunnels
