/-!
# Digits

Decimal and hexadecimal numerals: padded printing, and reading under the rules that the
configuration formats and the command line share.
-/

namespace SshTunnels.Text

/-- The digit of value `n` in bases up to sixteen, in lower case. -/
def digitChar (n : Nat) : Char :=
  if n < 10 then Char.ofNat (48 + n) else Char.ofNat (87 + n)

/-- The value of a decimal digit. -/
def decimalValue? (c : Char) : Option Nat :=
  if '0' ≤ c ∧ c ≤ '9' then some (c.toNat - 48) else none

/-- The value of a hexadecimal digit of either case. -/
def hexValue? (c : Char) : Option Nat :=
  if '0' ≤ c ∧ c ≤ '9' then some (c.toNat - 48)
  else if 'a' ≤ c ∧ c ≤ 'f' then some (c.toNat - 87)
  else if 'A' ≤ c ∧ c ≤ 'F' then some (c.toNat - 55)
  else none

/-- The last `width` digits of `n` in base `base`, most significant first. -/
def digits (base : Nat) : (width : Nat) → (n : Nat) → List Char
  | 0, _ => []
  | width + 1, n => digits base width (n / base) ++ [digitChar (n % base)]

/-- `n` in decimal, with zeros in front up to `width` digits. -/
def padded (width n : Nat) : String :=
  let text := (toString n).toList
  String.ofList (List.replicate (width - text.length) '0' ++ text)

/-- The value of a run of decimal digits. -/
def ofDecimal (cs : List Char) : Nat :=
  cs.foldl (fun n c => n * 10 + (c.toNat - 48)) 0

/-- The value of a run of hexadecimal digits, unless one of them is something else. -/
def ofHex? (cs : List Char) : Option Nat :=
  cs.foldlM (fun n c => (hexValue? c).map (n * 16 + ·)) 0

/-- A whole number as an option's value is written: digits, with a plus sign in front at will. -/
def natural? (text : String) : Option Nat :=
  let body := match text.toList with
    | '+' :: rest => rest
    | cs => cs
  if body ≠ [] ∧ body.all Char.isDigit then some (ofDecimal body) else none

/-- A whole number with a sign in front at will. -/
def integer? (text : String) : Option Int :=
  match text.toList with
  | '-' :: rest =>
    if rest ≠ [] ∧ rest.all Char.isDigit then some (-(ofDecimal rest : Int)) else none
  | _ => (natural? text).map Int.ofNat

end SshTunnels.Text
