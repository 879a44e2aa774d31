import SshTunnels.Bytes
import SshTunnels.Curve.Field

/-!
# The prime curves of ECDSA keys

The curves `y² = x³ - 3x + b` over prime fields that ECDSA keys use, in Jacobian coordinates, and
the encoded form of their points.
-/

namespace SshTunnels.Curve

/-- A curve of points `y² = x³ - 3x + b` modulo `p`, with a base point of prime order. The object
identifier is given in its encoded form. -/
structure Weierstrass where
  name : String
  fieldBytes : Nat
  oid : Bytes
  p : Nat
  b : Nat
  baseX : Nat
  baseY : Nat
  order : Nat
  deriving DecidableEq, Repr

namespace Weierstrass

/-- The curve with a field of 256 bits. -/
def nistp256 : Weierstrass where
  name := "nistp256"
  fieldBytes := 32
  oid := [0x2A, 0x86, 0x48, 0xCE, 0x3D, 0x03, 0x01, 0x07]
  p := 0xffffffff00000001000000000000000000000000ffffffffffffffffffffffff
  b := 0x5ac635d8aa3a93e7b3ebbd55769886bc651d06b0cc53b0f63bce3c3e27d2604b
  baseX := 0x6b17d1f2e12c4247f8bce6e563a440f277037d812deb33a0f4a13945d898c296
  baseY := 0x4fe342e2fe1a7f9b8ee7eb4a7c0f9e162bce33576b315ececbb6406837bf51f5
  order := 0xffffffff00000000ffffffffffffffffbce6faada7179e84f3b9cac2fc632551

/-- The curve with a field of 384 bits. -/
def nistp384 : Weierstrass where
  name := "nistp384"
  fieldBytes := 48
  oid := [0x2B, 0x81, 0x04, 0x00, 0x22]
  p := 0xfffffffffffffffffffffffffffffffffffffffffffffffffffffffffffffffeffffffff0000000000000000ffffffff
  b := 0xb3312fa7e23ee7e4988e056be3f82d19181d9c6efe8141120314088f5013875ac656398d8a2ed19d2a85c8edd3ec2aef
  baseX := 0xaa87ca22be8b05378eb1c71ef320ad746e1d3b628ba79b9859f741e082542a385502f25dbf55296c3a545e3872760ab7
  baseY := 0x3617de4a96262c6f5d9e98bf9292dc29f8f41dbd289a147ce9da3113b5f0b8c00a60b1ce1d7e819d7a431d7c90ea0e5f
  order := 0xffffffffffffffffffffffffffffffffffffffffffffffffc7634d81f4372ddf581a0db248b0a77aecec196accc52973

/-- The curve with a field of 521 bits. -/
def nistp521 : Weierstrass where
  name := "nistp521"
  fieldBytes := 66
  oid := [0x2B, 0x81, 0x04, 0x00, 0x23]
  p := Nat.pow 2 521 - 1
  b := 0x0051953eb9618e1c9a1f929a21a0b68540eea2da725b99b315f3b8b489918ef109e156193951ec7e937b1652c0bd3bb1bf073573df883d2c34f1ef451fd46b503f00
  baseX := 0x00c6858e06b70404e9cd9e3ecb662395b4429c648139053fb521f828af606b4d3dbaa14b5e77efe75928fe1dc127a2ffa8de3348b3c1856a429bf97e7e31c2e5bd66
  baseY := 0x011839296a789a3bc0045c8a5fb42c7d1bd998f54449579b446817afbd17273e662c97ee72995ef42640c550b9013fad0761353c7086a272c24088be94769fd16650
  order := 0x01fffffffffffffffffffffffffffffffffffffffffffffffffffffffffffffffffa51868783bf2f966b7fcc0148f709a5d03bb5c9b8899c47aebb6fb71e91386409

/-- The curves of ECDSA keys. -/
def all : List Weierstrass :=
  [nistp256, nistp384, nistp521]

/-- A point `(X/Z², Y/Z³)`; `Z = 0` is the neutral point. -/
structure Point where
  x : Nat
  y : Nat
  z : Nat

variable (c : Weierstrass)

/-- The double of a point. -/
def double (a : Point) : Point :=
  let delta := a.z * a.z % c.p
  let gamma := a.y * a.y % c.p
  let beta := a.x * gamma % c.p
  let alpha := 3 * subMod c.p a.x delta * (a.x + delta) % c.p
  let x := subMod c.p (alpha * alpha) (8 * beta)
  let z := subMod c.p (subMod c.p ((a.y + a.z) * (a.y + a.z)) gamma) delta
  let y := subMod c.p (alpha * subMod c.p (4 * beta) x) (8 * gamma * gamma)
  ⟨x, y, z⟩

/-- The sum of two points. -/
def add (a b : Point) : Point :=
  if a.z = 0 then b
  else if b.z = 0 then a
  else
    let az := a.z * a.z % c.p
    let bz := b.z * b.z % c.p
    let u := a.x * bz % c.p
    let v := b.x * az % c.p
    let s := a.y * b.z % c.p * bz % c.p
    let t := b.y * a.z % c.p * az % c.p
    if u = v then
      if s = t then c.double a else ⟨1, 1, 0⟩
    else
      let h := subMod c.p v u
      let r := subMod c.p t s
      let hh := h * h % c.p
      let hhh := h * hh % c.p
      let w := u * hh % c.p
      let x := subMod c.p (r * r) (hhh + 2 * w)
      ⟨x, subMod c.p (r * subMod c.p w x) (s * hhh), h * a.z % c.p * b.z % c.p⟩

/-- A multiple of the base point. -/
def mulBase (n : Nat) : Point :=
  (bits n).foldl (fun acc bit =>
    let acc := c.double acc
    if bit then c.add acc ⟨c.baseX, c.baseY, 1⟩ else acc) ⟨1, 1, 0⟩

/-- The uncompressed form of a point: a tag and both coordinates. -/
def encode (a : Point) : Bytes :=
  let inverse := invMod c.p a.z
  let square := inverse * inverse % c.p
  4 :: (Bytes.ofNat c.fieldBytes (a.x * square % c.p) ++
    Bytes.ofNat c.fieldBytes (a.y * (square * inverse % c.p) % c.p))

/-- The compressed form of an uncompressed point: a tag with the parity of the second coordinate,
and the first coordinate. -/
def compress (point : Bytes) : Bytes :=
  (2 + (point.getLast?.getD 0) % 2) :: (point.drop 1).take c.fieldBytes

/-- The encoded form has the right length for its tag. Whether it lies on the curve is not
examined. -/
def isEncodedPoint : Bytes → Bool
  | tag :: rest =>
    ((tag == 2 || tag == 3) && rest.length == c.fieldBytes) ||
      (tag == 4 && rest.length == 2 * c.fieldBytes)
  | [] => false

/-- The secret multiple that bytes stand for: as many bytes as a field element has, or at least
twenty-four; neither zero nor as great as the order. -/
def scalar? (bytes : Bytes) : Option Nat :=
  let n := bytes.toNat
  if 24 ≤ bytes.length ∧ bytes.length ≤ c.fieldBytes ∧ 0 < n ∧ n < c.order then some n else none

/-- The public point of a secret multiple, uncompressed. -/
def publicPoint (n : Nat) : Bytes :=
  c.encode (c.mulBase n)

end Weierstrass
end SshTunnels.Curve
