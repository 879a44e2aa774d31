import SshTunnels.Text.Digits

/-!
# Shortest decimals

The fewest decimal digits that read back as a given binary number, and of those the nearest to it.

A finite number is `m · 2 ^ q`. All reals between its lower and its upper bound round to it; the
bounds themselves do when `m` is even. In units of a quarter of the last place the number is `4 m`,
the upper bound `4 m + 2`, and the lower bound `4 m - 2`, or `4 m - 1` where the numbers below lie
closer together.
-/

namespace SshTunnels.Text

/-- A positive binary number with the bounds of what rounds to it, in units of `2 ^ unit`. -/
structure Rounding where
  low : Nat
  value : Nat
  high : Nat
  unit : Int
  closed : Bool
  deriving DecidableEq, Repr

/-- The bounds of a number given by its biased exponent and its fraction bits. -/
def Rounding.ofParts (exponent fraction : Nat) : Rounding :=
  let m := if exponent = 0 then fraction else fraction + Nat.pow 2 52
  let q : Int := (if exponent = 0 then 1 else (exponent : Int)) - 1075
  let below := if fraction = 0 ∧ 1 < exponent then 1 else 2
  ⟨4 * m - below, 4 * m, 4 * m + 2, q - 2, m % 2 == 0⟩

/-- Compares the decimal `d · 10 ^ k` with `x` units. -/
def Rounding.compare (r : Rounding) (d : Nat) (k : Int) (x : Nat) : Ordering :=
  Ord.compare (d * Nat.pow 10 k.toNat * Nat.pow 2 (-r.unit).toNat)
    (x * Nat.pow 2 r.unit.toNat * Nat.pow 10 (-k).toNat)

/-- The decimal `d · 10 ^ k` reads back as the number. -/
def Rounding.holds (r : Rounding) (d : Nat) (k : Int) : Bool :=
  (r.compare d k r.low == .gt || (r.closed && r.compare d k r.low == .eq)) &&
    (r.compare d k r.high == .lt || (r.closed && r.compare d k r.high == .eq))

/-- The greatest multiple of `10 ^ k` that is at most the number, as a multiple. -/
def Rounding.floor (r : Rounding) (k : Int) : Nat :=
  (r.value * Nat.pow 2 r.unit.toNat * Nat.pow 10 (-k).toNat) /
    (Nat.pow 10 k.toNat * Nat.pow 2 (-r.unit).toNat)

/-- The number is at least as near to `d · 10 ^ k` as to the next multiple. -/
def Rounding.nearLower (r : Rounding) (d : Nat) (k : Int) : Bool :=
  r.compare (2 * d + 1) k (2 * r.value) != .lt

/-- The exponent of the number's first decimal digit, found from an estimate that is at most one too
low. -/
def Rounding.magnitude (r : Rounding) : Int :=
  let estimate := ((r.value.log2 : Int) + r.unit) * 30103 / 100000
  let candidates := [estimate + 1, estimate, estimate - 1]
  (candidates.find? fun e => r.compare 1 e r.value != .gt).getD (estimate - 2)

/-- The shortest decimal from `n` digits on: its digits and its exponent. -/
def Rounding.shortestFrom (r : Rounding) (magnitude : Int) : (tries n : Nat) → Nat × Int
  | 0, n => (r.floor (magnitude + 1 - n), magnitude + 1 - n)
  | tries + 1, n =>
    let k := magnitude + 1 - n
    let d := r.floor k
    match r.holds d k, r.holds (d + 1) k with
    | true, true => if r.nearLower d k then (d, k) else (d + 1, k)
    | true, false => (d, k)
    | false, true => (d + 1, k)
    | false, false => shortestFrom r magnitude tries (n + 1)

/-- The shortest decimal. -/
def Rounding.shortest (r : Rounding) : Nat × Int :=
  r.shortestFrom r.magnitude 17 1

/-- Digits without the zeros at their end, and the exponent that goes with them. -/
def dropZeros (digits : List Char) (exponent : Int) : List Char × Int :=
  let kept := (digits.reverse.dropWhile (· == '0')).reverse
  (kept, exponent + (digits.length - kept.length : Nat))

/-- Digits with a point after the first `whole` of them, at least one digit on either side. -/
def placePoint (digits : List Char) (whole : Int) : List Char :=
  if whole ≤ 0 then '0' :: '.' :: (List.replicate (-whole).toNat '0' ++ digits)
  else
    let n := whole.toNat
    let front := digits.take n ++ List.replicate (n - digits.length) '0'
    front ++ '.' :: (if digits.length ≤ n then ['0'] else digits.drop n)

/-- The decimal text of a number given by its shortest digits: positional from `10 ^ -5` up to below
`10 ^ 16`, with an exponent otherwise. -/
def decimalText (d : Nat) (k : Int) : List Char :=
  let (digits, k) := dropZeros (toString d).toList k
  let scientific := k + digits.length - 1
  if -5 ≤ scientific ∧ scientific < 16 then placePoint digits (k + digits.length)
  else
    (match digits with
      | [c] => [c]
      | c :: rest => c :: '.' :: rest
      | [] => ['0']) ++ 'e' :: (toString scientific).toList

/-- The text of a binary number: the shortest that reads back. -/
def floatText (x : Float) : String :=
  let bits := x.toBits.toNat
  let exponent := bits / Nat.pow 2 52 % Nat.pow 2 11
  let fraction := bits % Nat.pow 2 52
  let negative := bits / Nat.pow 2 63 = 1
  if exponent = 2047 then
    if fraction ≠ 0 then "NaN" else if negative then "-inf" else "inf"
  else
    let body :=
      if exponent = 0 ∧ fraction = 0 then ['0', '.', '0']
      else
        let (d, k) := (Rounding.ofParts exponent fraction).shortest
        decimalText d k
    String.ofList (if negative then '-' :: body else body)

/-- The binary number that a text names: a decimal with an optional sign, fraction and exponent, or
a word for infinity or for no number. -/
def float? (text : String) : Option Float := do
  let (negative, cs) := match text.toList with
    | '-' :: rest => (true, rest)
    | '+' :: rest => (false, rest)
    | cs => (false, cs)
  let lower := cs.map Char.toLower
  let sign (x : Float) : Float := if negative then -x else x
  if lower = "nan".toList then some (sign (0.0 / 0.0))
  else if lower = "inf".toList ∨ lower = "infinity".toList then some (sign (1.0 / 0.0))
  else
    let whole := cs.takeWhile Char.isDigit
    let rest := cs.dropWhile Char.isDigit
    let (fraction, rest) := match rest with
      | '.' :: rest => (rest.takeWhile Char.isDigit, rest.dropWhile Char.isDigit)
      | rest => ([], rest)
    let exponent ← match rest with
      | [] => some (0 : Int)
      | c :: rest =>
        if c = 'e' ∨ c = 'E' then
          let (sign, ds) := match rest with
            | '-' :: ds => (-1, ds)
            | '+' :: ds => (1, ds)
            | ds => (1, ds)
          if ds ≠ [] ∧ ds.all Char.isDigit then some (sign * (ofDecimal ds : Int)) else none
        else none
    if whole = [] ∧ fraction = [] then none
    else
      let digits := ofDecimal (whole ++ fraction)
      let k := exponent - (fraction.length : Int)
      let magnitude := k + (toString digits).length
      some <| sign <|
        if digits = 0 ∨ magnitude < -400 then 0.0
        else if 400 < magnitude then 1.0 / 0.0
        else Float.ofScientific digits (k < 0) k.natAbs

end SshTunnels.Text
