import SshTunnels.Text.Digits

/-!
# UUIDs

128-bit identifiers. They are written in lower case with hyphens and read in any case, with or
without hyphens, in braces, or as a URN. Their order is that of their sixteen bytes.
-/

namespace SshTunnels

/-- A 128-bit identifier. -/
structure Uuid where
  bits : BitVec 128
  deriving DecidableEq, Repr

namespace Uuid

instance : Inhabited Uuid := ⟨⟨0⟩⟩

/-- The identifier of this number. -/
def ofNat (n : Nat) : Uuid :=
  ⟨BitVec.ofNat 128 n⟩

/-- The number that the sixteen bytes spell, most significant first. -/
def toNat (id : Uuid) : Nat :=
  id.bits.toNat

/-- Byte order. -/
def le (a b : Uuid) : Bool :=
  a.toNat ≤ b.toNat

/-- Eight, four, four, four and twelve digits, with hyphens between them. -/
def hyphenate : List Char → List Char
  | cs => cs.take 8 ++ '-' :: (cs.drop 8).take 4 ++ '-' :: (cs.drop 12).take 4 ++
      '-' :: (cs.drop 16).take 4 ++ '-' :: cs.drop 20

/-- The hyphenated lowercase form. -/
def text (id : Uuid) : String :=
  String.ofList (hyphenate (Text.digits 16 32 id.toNat))

instance : ToString Uuid := ⟨text⟩

/-- Reads thirty-two digits. -/
def ofDigits? (cs : List Char) : Option Uuid :=
  if cs.length = 32 then (Text.ofHex? cs).map ofNat else none

/-- Reads the hyphenated form. -/
def ofHyphenated? (cs : List Char) : Option Uuid :=
  let bare := cs.take 8 ++ (cs.drop 9).take 4 ++ (cs.drop 14).take 4 ++ (cs.drop 19).take 4 ++
    cs.drop 24
  if hyphenate bare = cs then ofDigits? bare else none

/-- Reads an identifier in any of its forms. -/
def ofString? (text : String) : Option Uuid :=
  match text.toList with
  | '\x7b' :: rest =>
    if rest.getLast? = some '\x7d' then ofHyphenated? rest.dropLast else none
  | cs =>
    if cs.length = 32 then ofDigits? cs
    else if cs.length = 45 ∧ (cs.take 9).map Char.toLower = "urn:uuid:".toList then
      ofHyphenated? (cs.drop 9)
    else ofHyphenated? cs

/-- The version that the thirteenth digit tells. -/
def version (id : Uuid) : Nat :=
  id.toNat / Nat.pow 2 76 % 16

/-- A version 7 identifier: the milliseconds of its making, then random bits. -/
def ofTime (millis random : Nat) : Uuid :=
  let field (value width place : Nat) : Nat := value % Nat.pow 2 width * Nat.pow 2 place
  ofNat (field millis 48 80 + field 7 4 76 + field (random / Nat.pow 2 62) 12 64 + field 2 2 62 +
    field random 62 0)

end Uuid
end SshTunnels
