import SshTunnels.Bytes

/-!
# DER

The distinguished encoding of ASN.1 values, as far as private keys need it: each element is a tag of
one byte, a definite length in its shortest form, and contents.
-/

namespace SshTunnels.Der

/-- The length of an element and what follows it. -/
def readLength : Bytes → Option (Nat × Bytes)
  | [] => none
  | b :: rest =>
    let n := b.toNat
    if n < 0x80 then some (n, rest)
    else
      let width := n - 0x80
      let value := Bytes.toNat (rest.take width)
      let least := if width = 1 then 0x80 else Nat.pow 256 (width - 1)
      if 1 ≤ width ∧ width ≤ 4 ∧ width ≤ rest.length ∧ least ≤ value then
        some (value, rest.drop width)
      else none

/-- The tag and the contents of the first element, and what follows it. -/
def readElement : Bytes → Option (UInt8 × Bytes × Bytes)
  | [] => none
  | tag :: rest => do
    if tag &&& 0x1F = 0x1F then none
    else
      let (n, rest) ← readLength rest
      if n ≤ rest.length then some (tag, rest.take n, rest.drop n) else none

/-- The contents of a first element that has this tag, and what follows it. -/
def expect (tag : UInt8) (bytes : Bytes) : Option (Bytes × Bytes) :=
  match readElement bytes with
  | some (found, contents, rest) => if found = tag then some (contents, rest) else none
  | none => none

/-- The contents of the only element, which has this tag. -/
def only (tag : UInt8) (bytes : Bytes) : Option Bytes :=
  match expect tag bytes with
  | some (contents, []) => some contents
  | _ => none

/-- A natural number: in as few bytes as its sign allows. -/
def readNat (bytes : Bytes) : Option (Nat × Bytes) := do
  let (contents, rest) ← expect 0x02 bytes
  match contents with
  | [] => none
  | b :: more =>
    let minimal := b != 0 || match more with
      | [] => true
      | next :: _ => 0x80 ≤ next
    if b < 0x80 ∧ minimal then some (Bytes.toNat contents, rest) else none

/-- The bytes of a bit string of whole bytes. -/
def bitStringBytes : Bytes → Option Bytes
  | 0 :: bytes => some bytes
  | _ => none

end SshTunnels.Der
