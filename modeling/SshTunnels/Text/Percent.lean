import SshTunnels.Bytes

/-!
# Percent encoding

Bytes that a URL must not show as themselves are written as a percent sign and two hexadecimal
digits. Decoding leaves alone a percent sign that no two digits follow.
-/

namespace SshTunnels.Text

/-- The characters that stand for themselves in a segment of a path. -/
def isPlainInPath (b : UInt8) : Bool :=
  0x20 < b && b < 0x7F && !(" \"<>`#?\x7b\x7d/%\\".toList.any fun c => c.toNat == b.toNat)

/-- An encoded byte. -/
def percentByte (b : UInt8) : List Char :=
  '%' :: (digits 16 2 b.toNat).map Char.toUpper

/-- A segment of a path, encoded. -/
def percentEncode (bytes : Bytes) : List Char :=
  bytes.flatMap fun b => if isPlainInPath b then [Char.ofNat b.toNat] else percentByte b

/-- The bytes that an encoded text stands for. -/
def percentDecode : List Char → Bytes
  | '%' :: a :: b :: rest =>
    match hexValue? a, hexValue? b with
    | some high, some low => UInt8.ofNat (16 * high + low) :: percentDecode rest
    | _, _ => 0x25 :: percentDecode (a :: b :: rest)
  | c :: rest => Bytes.ofString (String.singleton c) ++ percentDecode rest
  | [] => []

end SshTunnels.Text
