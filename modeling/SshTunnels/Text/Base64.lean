import SshTunnels.Bytes

/-!
# Base64

The standard alphabet with padding. Reading is strict: the length is a multiple of four, padding
stands only at the end of the text and the unused bits of the last digit are zero, so each byte
string has one written form.
-/

namespace SshTunnels.Base64

/-- The character of a digit below 64. -/
def digitChar (n : Nat) : Char :=
  if n < 26 then Char.ofNat (65 + n)
  else if n < 52 then Char.ofNat (71 + n)
  else if n < 62 then Char.ofNat (n - 4)
  else if n = 62 then '+'
  else '/'

/-- The digit of a character. -/
def digitValue? (c : Char) : Option Nat :=
  if 'A' ≤ c ∧ c ≤ 'Z' then some (c.toNat - 65)
  else if 'a' ≤ c ∧ c ≤ 'z' then some (c.toNat - 71)
  else if '0' ≤ c ∧ c ≤ '9' then some (c.toNat + 4)
  else if c = '+' then some 62
  else if c = '/' then some 63
  else none

/-- The padded form. -/
def encode : Bytes → List Char
  | [] => []
  | [a] =>
    let n := a.toNat * 16
    [digitChar (n / 64), digitChar (n % 64), '=', '=']
  | [a, b] =>
    let n := (a.toNat * 256 + b.toNat) * 4
    [digitChar (n / 4096), digitChar (n / 64 % 64), digitChar (n % 64), '=']
  | a :: b :: c :: rest =>
    let n := (a.toNat * 256 + b.toNat) * 256 + c.toNat
    digitChar (n / 262144) :: digitChar (n / 4096 % 64) :: digitChar (n / 64 % 64) ::
      digitChar (n % 64) :: encode rest

/-- The form without padding. -/
def encodeBare (bytes : Bytes) : List Char :=
  (encode bytes).filter (· != '=')

/-- One group of four characters: three bytes, or fewer when it is padded. -/
def decodeGroup (a b c d : Char) : Option Bytes := do
  let a ← digitValue? a
  let b ← digitValue? b
  if c = '=' then
    if d = '=' ∧ b % 16 = 0 then some [UInt8.ofNat (a * 4 + b / 16)] else none
  else
    let c ← digitValue? c
    if d = '=' then
      if c % 4 = 0 then some [UInt8.ofNat (a * 4 + b / 16), UInt8.ofNat (b * 16 + c / 4)] else none
    else
      let d ← digitValue? d
      some [UInt8.ofNat (a * 4 + b / 16), UInt8.ofNat (b * 16 + c / 4), UInt8.ofNat (c * 64 + d)]

/-- Reads padded groups that may follow each other even after padding. -/
def decodeGroups : List Char → Option Bytes
  | [] => some []
  | a :: b :: c :: d :: rest => do
    let group ← decodeGroup a b c d
    let bytes ← decodeGroups rest
    some (group ++ bytes)
  | _ => none

/-- Reads the padded form. -/
def decode (cs : List Char) : Option Bytes :=
  if (cs.take (cs.length - 4)).contains '=' then none else decodeGroups cs

end SshTunnels.Base64
