import SshTunnels.Bytes

/-!
# The SHA-2 hashes

SHA-256 and SHA-512 are one construction at two word widths. Their constants are the leading
fractional bits of the square and cube roots of the first primes, and are computed from that rule.
-/

namespace SshTunnels.Sha2

/-- What distinguishes the two hashes: the word width, the number of rounds, and the rotations (the
last of a small sigma is a shift). -/
structure Shape where
  width : Nat
  rounds : Nat
  bigSigma0 : Nat × Nat × Nat
  bigSigma1 : Nat × Nat × Nat
  smallSigma0 : Nat × Nat × Nat
  smallSigma1 : Nat × Nat × Nat

/-- SHA-256. -/
def sha256Shape : Shape :=
  ⟨32, 64, (2, 13, 22), (6, 11, 25), (7, 18, 3), (17, 19, 10)⟩

/-- SHA-512. -/
def sha512Shape : Shape :=
  ⟨64, 80, (28, 34, 39), (14, 18, 41), (1, 8, 7), (19, 61, 6)⟩

/-- The greatest number below `2 ^ bits` above `root` whose `k`-th power is at most `n`. -/
def rootFrom (k n : Nat) : (bits : Nat) → (root : Nat) → Nat
  | 0, root => root
  | bits + 1, root =>
    let candidate := root + Nat.pow 2 bits
    rootFrom k n bits (if Nat.pow candidate k ≤ n then candidate else root)

/-- No number from 2 up to below `p` divides `p`. -/
def isPrime (p : Nat) : Bool :=
  2 ≤ p && (List.range p).all fun d => d < 2 || p % d != 0

/-- The primes below 410: there are eighty. -/
def primes : List Nat :=
  (List.range 410).filter isPrime

/-- The first `width` bits of the fraction of the `k`-th root of `p`. -/
def rootFraction (width k p : Nat) : BitVec width :=
  BitVec.ofNat width (rootFrom k (p * Nat.pow 2 (k * width)) (width + 5) 0)

variable (s : Shape)

/-- The chaining value to start with: fractions of the square roots of the first eight primes. -/
def Shape.start : List (BitVec s.width) :=
  (primes.take 8).map (rootFraction s.width 2)

/-- The round constants: fractions of the cube roots of the first primes. -/
def Shape.constants : List (BitVec s.width) :=
  (primes.take s.rounds).map (rootFraction s.width 3)

/-- The exclusive or of three rotations. -/
def bigSigma {w : Nat} (r : Nat × Nat × Nat) (x : BitVec w) : BitVec w :=
  x.rotateRight r.1 ^^^ x.rotateRight r.2.1 ^^^ x.rotateRight r.2.2

/-- The exclusive or of two rotations and a shift. -/
def smallSigma {w : Nat} (r : Nat × Nat × Nat) (x : BitVec w) : BitVec w :=
  x.rotateRight r.1 ^^^ x.rotateRight r.2.1 ^^^ (x >>> r.2.2)

/-- The message schedule, from the sixteen words of a block. The latest word comes first. -/
def Shape.schedule : (more : Nat) → List (BitVec s.width) → List (BitVec s.width)
  | 0, ws => ws
  | more + 1, ws =>
    let word (back : Nat) := ws.getD (back - 1) 0
    schedule more ((smallSigma s.smallSigma1 (word 2) + word 7 +
      smallSigma s.smallSigma0 (word 15) + word 16) :: ws)

/-- One round on the eight working words. -/
def Shape.round (working : List (BitVec s.width)) (kw : BitVec s.width × BitVec s.width) :
    List (BitVec s.width) :=
  match working with
  | [a, b, c, d, e, f, g, h] =>
    let t1 := h + bigSigma s.bigSigma1 e + ((e &&& f) ^^^ (~~~e &&& g)) + kw.1 + kw.2
    let t2 := bigSigma s.bigSigma0 a + ((a &&& b) ^^^ (a &&& c) ^^^ (b &&& c))
    [t1 + t2, a, b, c, d + t1, e, f, g]
  | other => other

/-- The chaining value after a block. -/
def Shape.compress (constants state block : List (BitVec s.width)) : List (BitVec s.width) :=
  let words := (s.schedule (s.rounds - 16) block.reverse).reverse
  List.zipWith (· + ·) state ((constants.zip words).foldl s.round state)

/-- The message with a one bit, zeros, and its length in bits, up to whole blocks. -/
def Shape.pad (message : Bytes) : Bytes :=
  let block := 2 * s.width
  let tail := s.width / 4
  let zeros := (block - (message.length + 1 + tail) % block) % block
  message ++ 0x80 :: (List.replicate zeros 0 ++ Bytes.ofNat tail (8 * message.length))

/-- The list cut into runs of `size`. -/
def runs (size : Nat) : (fuel : Nat) → List α → List (List α)
  | 0, _ => []
  | fuel + 1, xs => if xs.isEmpty then [] else xs.take size :: runs size fuel (xs.drop size)

/-- The hash of a message. -/
def Shape.hash (message : Bytes) : Bytes :=
  let bytes := s.pad message
  let words := (runs (s.width / 8) bytes.length bytes).map fun w =>
    BitVec.ofNat s.width (Bytes.toNat w)
  let blocks := runs 16 words.length words
  let final := blocks.foldl (s.compress s.constants) s.start
  final.flatMap fun w => Bytes.ofNat (s.width / 8) w.toNat

/-- SHA-256. -/
def sha256 (message : Bytes) : Bytes :=
  sha256Shape.hash message

/-- SHA-512. -/
def sha512 (message : Bytes) : Bytes :=
  sha512Shape.hash message

end SshTunnels.Sha2
