/-!
# Arithmetic modulo a prime

Powers and inverses of residues, which stand for the elements of a prime field.
-/

namespace SshTunnels.Curve

/-- `base ^ exponent` modulo `m`, by repeated squaring. -/
def powMod (m base exponent : Nat) : Nat :=
  if h : exponent = 0 then 1 % m
  else
    let half := powMod m (base * base % m) (exponent / 2)
    if exponent % 2 = 1 then half * base % m else half
termination_by exponent
decreasing_by omega

/-- The inverse modulo a prime; zero has none and gives zero. -/
def invMod (p a : Nat) : Nat :=
  powMod p a (p - 2)

/-- The difference modulo `p` of two residues. -/
def subMod (p a b : Nat) : Nat :=
  (a + (p - b % p)) % p

/-- The bits of a number, most significant first. -/
def bits (n : Nat) : List Bool :=
  (List.range (n.log2 + 1)).reverse.map n.testBit

end SshTunnels.Curve
