import SshTunnels.Key.Load

/-!
# New keys

A new Ed25519 key is made from a seed of 32 random bytes. Its private half is written in the strict
armoured form, its public half on one line.
-/

namespace SshTunnels

/-- Cuts a text into lines of `width` characters. -/
def wrapLines (width : Nat) : (fuel : Nat) → List Char → List Char
  | 0, _ => []
  | fuel + 1, cs =>
    if cs.isEmpty then []
    else cs.take width ++ '\n' :: wrapLines width fuel (cs.drop width)

namespace PrivateKey

/-- The strict armoured form of an Ed25519 key. -/
def armourEd25519 (check : Nat) (point seed : Bytes) (comment : String) : String :=
  let body := Base64.encode (encodeEd25519 check point seed comment)
  "-----BEGIN " ++ opensshName ++ "-----\n" ++ String.ofList (wrapLines 70 body.length body) ++
    "-----END " ++ opensshName ++ "-----\n"

end PrivateKey

/-- Both halves of a new key as texts. -/
structure GeneratedKeyPair where
  privateText : String
  publicText : String
  deriving DecidableEq, Repr

/-- The key pair of a seed. Only the public half carries the comment. -/
def GeneratedKeyPair.ofSeed (seed : Bytes) (check : Nat) (comment : String) : GeneratedKeyPair :=
  let point := Curve.Edwards.publicKey seed
  ⟨PrivateKey.armourEd25519 check point seed "", PublicKey.line ⟨.ed25519 point, comment⟩⟩

end SshTunnels
