import SshTunnels.Curve.Weierstrass
import SshTunnels.Hash.Sha2
import SshTunnels.Key.Wire
import SshTunnels.Text.Base64
import SshTunnels.Text.Blank

/-!
# Public keys

A public key is data of one of several algorithms and a comment. It is written on one line: the
algorithm's name, the data in base64, the comment. Two keys are the same key when their data agree.
-/

namespace SshTunnels

/-- The curves of ECDSA keys. -/
inductive EcdsaCurve where
  | nistp256
  | nistp384
  | nistp521
  deriving DecidableEq, Repr

namespace EcdsaCurve

/-- The curve's equation and base point. -/
def params : EcdsaCurve → Curve.Weierstrass
  | .nistp256 => .nistp256
  | .nistp384 => .nistp384
  | .nistp521 => .nistp521

/-- The curve's name. -/
def name (c : EcdsaCurve) : String :=
  c.params.name

/-- All of them. -/
def all : List EcdsaCurve := [.nistp256, .nistp384, .nistp521]

/-- The curve of this name. -/
def ofName? (name : String) : Option EcdsaCurve :=
  all.find? (·.name == name)

end EcdsaCurve

/-- The data of a public key. Numbers and points are kept as they are written. A key of an
algorithm that a domain defines for itself is a name and bytes. -/
inductive PublicKeyData where
  | dsa (p q g y : Bytes)
  | ecdsa (curve : EcdsaCurve) (point : Bytes)
  | ed25519 (point : Bytes)
  | rsa (e n : Bytes)
  | tokenEcdsa (point : Bytes) (application : String)
  | tokenEd25519 (point : Bytes) (application : String)
  | other (algorithm : String) (data : Bytes)
  deriving DecidableEq, Repr

/-- A public key and its comment. -/
structure PublicKey where
  data : PublicKeyData
  comment : String
  deriving DecidableEq, Repr

/-- The algorithm that a name stands for. -/
inductive KeyAlgorithm where
  | dsa
  | ecdsa (curve : EcdsaCurve)
  | ed25519
  | rsa
  | tokenEcdsa
  | tokenEd25519
  | other (name : String)
  deriving DecidableEq, Repr

namespace KeyAlgorithm

/-- A name that a domain defines: `name@domain`, at most 64 characters of ASCII. -/
def isDomainName (name : String) : Bool :=
  let cs := name.toList
  cs.length ≤ 64 && cs.all (·.toNat < 128) && cs.count '@' == 1 && cs.head? != some '@' &&
    cs.getLast? != some '@'

/-- The algorithm's name. -/
def name : KeyAlgorithm → String
  | .dsa => "ssh-dss"
  | .ecdsa curve => "ecdsa-sha2-" ++ curve.name
  | .ed25519 => "ssh-ed25519"
  | .rsa => "ssh-rsa"
  | .tokenEcdsa => "sk-ecdsa-sha2-nistp256@openssh.com"
  | .tokenEd25519 => "sk-ssh-ed25519@openssh.com"
  | .other name => name

/-- The algorithm of this name; an RSA key may be named for a hash. -/
def ofName? (name : String) : Option KeyAlgorithm :=
  let known : List (String × KeyAlgorithm) :=
    ([.dsa, .ecdsa .nistp256, .ecdsa .nistp384, .ecdsa .nistp521, .ed25519, .rsa, .tokenEcdsa,
      .tokenEd25519] : List KeyAlgorithm).map (fun a => (a.name, a)) ++
    [("rsa-sha2-256", .rsa), ("rsa-sha2-512", .rsa)]
  match known.lookup name with
  | some a => some a
  | none => if isDomainName name then some (.other name) else none

end KeyAlgorithm

namespace PublicKeyData

open Wire

/-- The algorithm of a key. -/
def algorithm : PublicKeyData → KeyAlgorithm
  | .dsa .. => .dsa
  | .ecdsa curve _ => .ecdsa curve
  | .ed25519 _ => .ed25519
  | .rsa .. => .rsa
  | .tokenEcdsa .. => .tokenEcdsa
  | .tokenEd25519 .. => .tokenEd25519
  | .other name _ => .other name

/-- The fields behind the algorithm's name. -/
def fields : PublicKeyData → Bytes
  | .dsa p q g y => blob p ++ blob q ++ blob g ++ blob y
  | .ecdsa curve point => text curve.name ++ blob point
  | .ed25519 point => blob point
  | .rsa e n => blob e ++ blob n
  | .tokenEcdsa point application => text "nistp256" ++ blob point ++ text application
  | .tokenEd25519 point application => blob point ++ text application
  | .other _ data => blob data

/-- The wire form. -/
def encode (k : PublicKeyData) : Bytes :=
  text k.algorithm.name ++ k.fields

/-- Reads the name of a curve and one of its points. -/
def readPoint (curve : EcdsaCurve) : Reader Bytes := do
  let name ← Reader.label
  let point ← Reader.blob
  if EcdsaCurve.ofName? name = some curve ∧ curve.params.isEncodedPoint point then return point
  else failure

/-- Reads thirty-two bytes. -/
def readPoint32 : Reader Bytes := do
  let point ← Reader.blob
  if point.length = 32 then return point else failure

/-- Reads the fields of a key of this algorithm. -/
def readFields : KeyAlgorithm → Reader PublicKeyData
  | .dsa => return .dsa (← Reader.mpint) (← Reader.mpint) (← Reader.mpint) (← Reader.mpint)
  | .ecdsa curve => return .ecdsa curve (← readPoint curve)
  | .ed25519 => return .ed25519 (← readPoint32)
  | .rsa => return .rsa (← Reader.mpint) (← Reader.mpint)
  | .tokenEcdsa => return .tokenEcdsa (← readPoint .nistp256) (← Reader.text)
  | .tokenEd25519 => return .tokenEd25519 (← readPoint32) (← Reader.text)
  | .other name => return .other name (← Reader.blob)

/-- Reads an algorithm's name. -/
def readAlgorithm : Reader KeyAlgorithm := do
  (KeyAlgorithm.ofName? (← Reader.label)).elim failure pure

/-- Reads the wire form. -/
def read : Reader PublicKeyData := do
  readFields (← readAlgorithm)

end PublicKeyData

namespace PublicKey

/-- Equal up to the comment. -/
def sameKey (a b : PublicKey) : Bool :=
  a.data == b.data

/-- The hash by which people tell keys apart. -/
def fingerprint (k : PublicKey) : String :=
  "SHA256:" ++ String.ofList (Base64.encodeBare (Sha2.sha256 k.data.encode))

/-- The name of the key's algorithm. -/
def algorithmName (k : PublicKey) : String :=
  k.data.algorithm.name

/-- The one-line form. -/
def line (k : PublicKey) : String :=
  k.algorithmName ++ " " ++ String.ofList (Base64.encode k.data.encode) ++
    (if k.comment.isEmpty then "" else " " ++ k.comment)

/-- The characters of an algorithm's name and of base64. -/
def isWordChar (c : Char) : Bool :=
  c.isAlphanum || "+-/=@.".toList.contains c

/-- A word up to a blank or the end, and what follows it; any other character is a fault. -/
def readWord (cs : List Char) : Option (List Char × List Char) :=
  match cs.dropWhile isWordChar with
  | [] => some (cs, [])
  | ' ' :: rest => some (cs.takeWhile isWordChar, rest)
  | _ => none

/-- Reads the one-line form. The name in front must be the name inside the data. -/
def ofLine? (line : List Char) : Option PublicKey := do
  let (name, rest) ← readWord (Text.trimEnd line)
  let (base64, comment) ← readWord rest
  if name = [] ∨ base64 = [] then none
  else
    let bytes ← Base64.decode base64
    let data ← PublicKeyData.read.run bytes true
    if data.algorithm.name.toList = name then some ⟨data, String.ofList comment⟩ else none

end PublicKey
end SshTunnels
