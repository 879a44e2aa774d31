import SshTunnels.Text.Digits

/-!
# Byte strings

Contents of keys, files and streams. A text and its bytes are related by UTF-8; long contents are
told apart by their length and a 64-bit hash.
-/

namespace SshTunnels

/-- A string of bytes. -/
abbrev Bytes := List UInt8

namespace Bytes

/-- The UTF-8 form of a text. -/
def ofString (text : String) : Bytes :=
  text.toUTF8.toList

/-- The text that these bytes are the UTF-8 form of, if they are one. -/
def toString? (bytes : Bytes) : Option String :=
  String.fromUTF8? (ByteArray.mk bytes.toArray)

/-- Two lowercase hexadecimal digits per byte. -/
def hex (bytes : Bytes) : String :=
  String.ofList (bytes.flatMap fun b => Text.digits 16 2 b.toNat)

/-- Reads pairs of hexadecimal digits. -/
def ofHex? : List Char → Option Bytes
  | [] => some []
  | [_] => none
  | a :: b :: rest => do
    let high ← Text.hexValue? a
    let low ← Text.hexValue? b
    let bytes ← ofHex? rest
    some (UInt8.ofNat (16 * high + low) :: bytes)

/-- The big-endian value of a byte string. -/
def toNat (bytes : Bytes) : Nat :=
  bytes.foldl (fun n b => n * 256 + b.toNat) 0

/-- The last `width` bytes of `n`, most significant first. -/
def ofNat : (width : Nat) → (n : Nat) → Bytes
  | 0, _ => []
  | width + 1, n => ofNat width (n / 256) ++ [UInt8.ofNat (n % 256)]

/-- The 64-bit hash of Fowler, Noll and Vo in its xor-then-multiply form. -/
def fnv (bytes : Bytes) : UInt64 :=
  bytes.foldl (fun h b => (h ^^^ b.toUInt64) * 0x100000001b3) 0xcbf29ce484222325

/-- A 64-bit hash as sixteen hexadecimal digits. -/
def fnvText (bytes : Bytes) : String :=
  String.ofList (Text.digits 16 16 bytes.fnv.toNat)

end Bytes
end SshTunnels
