import SshTunnels.Curve.Edwards
import SshTunnels.Key.Der
import SshTunnels.Key.PublicKey

/-!
# Private keys

A private key is a secret with its public half. Three binary forms are read: the form of OpenSSH,
the RSA form of PKCS #1, and the general form of PKCS #8 with the elliptic-curve form of SEC 1 in it
or instead of it.
-/

namespace SshTunnels

/-- The secret part of a key. A sealed secret is encrypted. -/
inductive Secret where
  | dsa (x : Bytes)
  | ecdsa (scalar : Bytes)
  | ed25519 (seed : Bytes)
  | rsa (d inverse p q : Bytes)
  | token (flags : UInt8) (handle reserved : Bytes)
  | other (data : Bytes)
  | sealed (data : Bytes)
  deriving DecidableEq, Repr

/-- A secret and its public half. -/
structure PrivateKey where
  publicKey : PublicKey
  secret : Secret
  deriving DecidableEq, Repr

namespace PrivateKey

open Wire

/-- The secret is encrypted. -/
def isSealed (k : PrivateKey) : Bool :=
  match k.secret with
  | .sealed _ => true
  | _ => false

/-- The Ed25519 key of a seed of 32 bytes. -/
def ofSeed (seed : Bytes) (comment : String) : PrivateKey :=
  ⟨⟨.ed25519 (Curve.Edwards.publicKey seed), comment⟩, .ed25519 seed⟩

/-! ## The form of OpenSSH -/

/-- What the binary form starts with. -/
def magic : Bytes :=
  Bytes.ofString "openssh-key-v1" ++ [0]

/-- A cipher by its name: its block size, and whether a tag of sixteen bytes follows the secret. -/
def cipher? : String → Option (Nat × Bool)
  | "none" => some (8, false)
  | "3des-cbc" => some (8, false)
  | "aes128-cbc" | "aes192-cbc" | "aes256-cbc" => some (16, false)
  | "aes128-ctr" | "aes192-ctr" | "aes256-ctr" => some (16, false)
  | "aes128-gcm@openssh.com" | "aes256-gcm@openssh.com" => some (16, true)
  | "chacha20-poly1305@openssh.com" => some (8, true)
  | _ => none

/-- Reads how the passphrase is stretched: not at all, or with a salt and a number of rounds. The
answer says whether there is a passphrase. -/
def readStretching : Reader Bool := do
  match ← Reader.label with
  | "none" =>
    if (← Reader.u32) = 0 then return false else failure
  | "bcrypt" => Reader.nested do
    let _ ← Reader.blob
    let _ ← Reader.u32
    return true
  | _ => failure

/-- Reads the secret number of a curve: as many bytes as a field element has, or one more that is
zero. The widest curve allows two bytes fewer. -/
def readScalar (curve : EcdsaCurve) : Reader Bytes := do
  let size := curve.params.fieldBytes
  let bytes ← Reader.blob
  let least := if curve = .nistp521 then size - 2 else size
  if bytes.length = size + 1 then
    if bytes.head? = some 0 then return bytes.drop 1 else failure
  else if least ≤ bytes.length ∧ bytes.length ≤ size then
    return List.replicate (size - bytes.length) 0 ++ bytes
  else failure

/-- Reads the flags, handle and reserved field of a key that a token holds. -/
def readToken : Reader Secret :=
  return .token (← Reader.byte) (← Reader.blob) (← Reader.blob)

/-- Reads both halves of a key of this algorithm. -/
def readPair : KeyAlgorithm → Reader (PublicKeyData × Secret)
  | .dsa => return (← PublicKeyData.readFields .dsa, .dsa (← Reader.mpint))
  | .ecdsa curve =>
    return (← PublicKeyData.readFields (.ecdsa curve), .ecdsa (← readScalar curve))
  | .ed25519 => do
    let point ← PublicKeyData.readPoint32
    let pair ← Reader.blob
    if pair.length = 64 ∧ pair.drop 32 = point then
      return (.ed25519 point, .ed25519 (pair.take 32))
    else failure
  | .rsa => do
    let n ← Reader.mpint
    let e ← Reader.mpint
    return (.rsa e n,
      .rsa (← Reader.mpint) (← Reader.mpint) (← Reader.mpint) (← Reader.mpint))
  | .tokenEcdsa => return (← PublicKeyData.readFields .tokenEcdsa, ← readToken)
  | .tokenEd25519 => return (← PublicKeyData.readFields .tokenEd25519, ← readToken)
  | .other name =>
    return (← PublicKeyData.readFields (.other name), .other (← Reader.blob))

/-- The bytes that fill up the last block: one, two, three, … -/
def padding (n : Nat) : Bytes :=
  (List.range n).map fun i => UInt8.ofNat (i + 1)

/-- Reads the unencrypted secret section, whose public half must be this one. -/
def readSecretSection (publicData : PublicKeyData) : Reader PrivateKey := do
  if (← get).rest.length % 8 ≠ 0 then failure
  else
    let check ← Reader.u32
    let again ← Reader.u32
    if check ≠ again then failure
    else
      let (data, secret) ← readPair (← PublicKeyData.readAlgorithm)
      if data ≠ publicData then failure
      else
        let comment ← Reader.text
        let rest := (← get).rest
        if 8 ≤ rest.length ∨ rest ≠ padding rest.length then failure
        else
          set { ← get with rest := [] }
          return ⟨⟨data, comment⟩, secret⟩

/-- Reads the binary form. An encrypted key shows its public half only. -/
def read : Reader PrivateKey := do
  if (← Reader.take magic.length) ≠ magic then failure
  else
    let cipher ← Reader.label
    let (block, tagged) ← (cipher? cipher).elim failure pure
    let stretched ← readStretching
    if (← Reader.u32) ≠ 1 then failure
    else
      let data ← Reader.nested PublicKeyData.read
      if cipher ≠ "none" then
        let ciphertext ← Reader.blob
        if ciphertext.length % block ≠ 0 then failure
        else
          if tagged then let _ ← Reader.take 16
          return ⟨⟨data, ""⟩, .sealed ciphertext⟩
      else if stretched then failure
      else Reader.nested (readSecretSection data)

/-- The unencrypted secret section of an Ed25519 key, without the padding. -/
def secretSection (check : Nat) (point seed : Bytes) (comment : String) : Bytes :=
  Bytes.ofNat 4 check ++ Bytes.ofNat 4 check ++ text "ssh-ed25519" ++ blob point ++
    blob (seed ++ point) ++ text comment

/-- The binary form of an Ed25519 key, with a number that shows the section was read right. -/
def encodeEd25519 (check : Nat) (point seed : Bytes) (comment : String) : Bytes :=
  let body := secretSection check point seed comment
  magic ++ text "none" ++ text "none" ++ blob [] ++ Bytes.ofNat 4 1 ++
    blob (PublicKeyData.ed25519 point).encode ++
    blob (body ++ padding ((8 - body.length % 8) % 8))

/-! ## PKCS #1 -/

/-- The limits on a modulus and a public exponent. -/
def rsaInRange (n e : Nat) : Bool :=
  n < Nat.pow 2 4096 && e < n && n % 2 == 1 && e % 2 == 1 && 2 ≤ e && e < Nat.pow 2 33

/-- The RSA key of these numbers, if they belong together. -/
def ofRsa? (n e d p q : Nat) : Option PrivateKey :=
  if rsaInRange n e ∧ p * q = n ∧ 1 < p ∧ 1 < q ∧ d * e % (p - 1) = 1 % (p - 1) ∧
      d * e % (q - 1) = 1 % (q - 1) ∧ Nat.gcd p q = 1 then
    let inverse := (Curve.invMod p (q % p))
    some ⟨⟨.rsa (mpintOf e) (mpintOf n), ""⟩,
      .rsa (mpintOf d) (mpintOf inverse) (mpintOf p) (mpintOf q)⟩
  else none

/-- Reads the RSA form. -/
def ofPkcs1? (der : Bytes) : Option PrivateKey := do
  let (version, rest) ← Der.readNat (← Der.only 0x30 der)
  let (n, rest) ← Der.readNat rest
  let (e, rest) ← Der.readNat rest
  let (d, rest) ← Der.readNat rest
  let (p, rest) ← Der.readNat rest
  let (q, rest) ← Der.readNat rest
  let (_, rest) ← Der.readNat rest
  let (_, rest) ← Der.readNat rest
  let (_, rest) ← Der.readNat rest
  if version = 0 ∧ rest = [] then ofRsa? n e d p q else none

/-! ## SEC 1 and PKCS #8 -/

/-- The key of a secret number of a curve. -/
def ofScalar? (curve : EcdsaCurve) (bytes : Bytes) (point : Option Bytes) : Option PrivateKey := do
  let c := curve.params
  let n ← c.scalar? bytes
  let expected := c.publicPoint n
  let agrees := match point with
    | none => true
    | some found => found == expected || found == c.compress expected
  if agrees then
    some ⟨⟨.ecdsa curve expected, ""⟩, .ecdsa (Bytes.ofNat c.fieldBytes n)⟩
  else none

/-- Takes an element with this tag if it comes next. -/
def optional (tag : UInt8) (bytes : Bytes) : Option (Option Bytes × Bytes) :=
  if bytes.head? = some tag then (Der.expect tag bytes).map fun (c, rest) => (some c, rest)
  else some (none, bytes)

/-- The curve of an object identifier. -/
def curveOfOid? (oid : Bytes) : Option EcdsaCurve :=
  EcdsaCurve.all.find? (·.params.oid == oid)

/-- Reads the elliptic-curve form. The curve is named inside, or known beforehand; if both, they
must agree. -/
def ofSec1? (known : Option EcdsaCurve) (der : Bytes) : Option PrivateKey := do
  let (version, rest) ← Der.readNat (← Der.only 0x30 der)
  let (scalar, rest) ← Der.expect 0x04 rest
  let (parameters, rest) ← optional 0xA0 rest
  let (point, rest) ← optional 0xA1 rest
  if version ≠ 1 ∨ rest ≠ [] then none
  else
    let point ← match point with
      | none => some none
      | some p => do some (some (← Der.bitStringBytes (← Der.only 0x03 p)))
    let named ← match parameters with
      | none => some none
      | some p => do some (some (← curveOfOid? (← Der.only 0x06 p)))
    match known, named with
    | some a, some b => if a = b then ofScalar? a scalar point else none
    | some a, none => ofScalar? a scalar point
    | none, some b => ofScalar? b scalar point
    | none, none => none

/-- The object identifier of Ed25519. -/
def oidEd25519 : Bytes := [0x2B, 0x65, 0x70]

/-- The object identifier of RSA. -/
def oidRsa : Bytes := [0x2A, 0x86, 0x48, 0x86, 0xF7, 0x0D, 0x01, 0x01, 0x01]

/-- The object identifier of elliptic-curve keys. -/
def oidEc : Bytes := [0x2A, 0x86, 0x48, 0xCE, 0x3D, 0x02, 0x01]

/-- Reads the elements behind the secret: a public key under tag 1, after others. -/
def readAttributes : (fuel : Nat) → Bytes → Option (Option Bytes)
  | 0, _ => none
  | _ + 1, [] => some none
  | fuel + 1, bytes => do
    let (tag, contents, rest) ← Der.readElement bytes
    if tag = 0x81 then
      let point ← Der.bitStringBytes contents
      if (← readAttributes fuel rest).isSome then none else some (some point)
    else if tag &&& 0xC0 = 0x80 then readAttributes fuel rest
    else none

/-- Reads the general form. -/
def ofPkcs8? (der : Bytes) : Option PrivateKey := do
  let (version, rest) ← Der.readNat (← Der.only 0x30 der)
  let (algorithm, rest) ← Der.expect 0x30 rest
  let (secret, rest) ← Der.expect 0x04 rest
  let point ← readAttributes (rest.length + 1) rest
  let (oid, parameters) ← Der.expect 0x06 algorithm
  if 1 < version ∨ (version = 1) ≠ point.isSome then none
  else if oid = oidEd25519 then
    match secret with
    | 0x04 :: 0x20 :: seed =>
      let key := ofSeed seed ""
      let agrees := point.all fun p => key.publicKey.data == .ed25519 p
      if parameters = [] ∧ seed.length = 32 ∧ agrees then some key else none
    | _ => none
  else if oid = oidRsa then
    if parameters = [0x05, 0x00] then ofPkcs1? secret else none
  else if oid = oidEc then do
    let curve ← curveOfOid? (← Der.only 0x06 parameters)
    ofSec1? (some curve) secret
  else none

/-- Reads the general form or the elliptic-curve form. -/
def ofPkcs8OrSec1? (der : Bytes) : Option PrivateKey :=
  (ofPkcs8? der).or (ofSec1? none der)

end PrivateKey
end SshTunnels
