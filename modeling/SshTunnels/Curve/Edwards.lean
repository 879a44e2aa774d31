import SshTunnels.Bytes
import SshTunnels.Curve.Field
import SshTunnels.Hash.Sha2

/-!
# Ed25519 public keys

The twisted Edwards curve `-x² + y² = 1 + d x² y²` over the field of `2 ^ 255 - 19` elements, in
extended coordinates, and the public key that belongs to a seed.
-/

namespace SshTunnels.Curve.Edwards

/-- The field's size. -/
def p : Nat := Nat.pow 2 255 - 19

/-- The curve's coefficient. -/
def d : Nat := (p - 121665) * invMod p 121666 % p

/-- A point in extended coordinates: `x = X/Z`, `y = Y/Z`, `xy = T/Z`. -/
structure Point where
  x : Nat
  y : Nat
  z : Nat
  t : Nat

/-- The neutral point. -/
def Point.zero : Point := ⟨0, 1, 1, 0⟩

/-- The sum of two points; the formula has no exceptions. -/
def Point.add (a b : Point) : Point :=
  let l := subMod p a.y a.x * subMod p b.y b.x % p
  let r := (a.y + a.x) * (b.y + b.x) % p
  let m := 2 * d * a.t % p * b.t % p
  let n := 2 * a.z * b.z % p
  let e := subMod p r l
  let f := subMod p n m
  let g := (n + m) % p
  let h := (r + l) % p
  ⟨e * f % p, g * h % p, f * g % p, e * h % p⟩

/-- A multiple of a point. -/
def Point.mul (n : Nat) (a : Point) : Point :=
  (bits n).foldl (fun acc bit => let acc := acc.add acc; if bit then acc.add a else acc) .zero

/-- The base point: `y = 4/5`, and `x` is even. -/
def base : Point :=
  let y := 4 * invMod p 5 % p
  let square := subMod p (y * y) 1 * invMod p (d * y * y + 1) % p
  let root := powMod p square ((p + 3) / 8)
  let x := if root * root % p = square then root else root * powMod p 2 ((p - 1) / 4) % p
  let x := if x % 2 = 0 then x else p - x
  ⟨x, y, 1, x * y % p⟩

/-- Thirty-two bytes, least significant first: `y`, with the parity of `x` in the top bit. -/
def Point.encode (a : Point) : Bytes :=
  let inverse := invMod p a.z
  let x := a.x * inverse % p
  let y := a.y * inverse % p
  (Bytes.ofNat 32 (y + x % 2 * Nat.pow 2 255)).reverse

/-- The secret multiple that a seed stands for: the first half of its hash, least significant byte
first, with the three lowest bits and the highest cleared and the second highest set. -/
def scalar (seed : Bytes) : Nat :=
  let n := Bytes.toNat ((Sha2.sha512 seed).take 32).reverse
  n % Nat.pow 2 254 / 8 * 8 + Nat.pow 2 254

/-- The public key of a seed. -/
def publicKey (seed : Bytes) : Bytes :=
  (base.mul (scalar seed)).encode

end SshTunnels.Curve.Edwards
