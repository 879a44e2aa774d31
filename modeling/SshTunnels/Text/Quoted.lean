import SshTunnels.Text.Digits

/-!
# Quoted texts

A text in quotes for people to read: quotes, backslashes and the usual control characters have short
escapes, and other characters that do not show are written by their number.
-/

namespace SshTunnels.Text

/-- Ranges of characters that do not show or that change how their neighbours show: controls,
combining marks, invisible and private characters. -/
def hiddenRanges : List (Nat × Nat) :=
  [(0x00, 0x1F), (0x7F, 0x9F), (0xAD, 0xAD), (0x300, 0x36F), (0x483, 0x489), (0x591, 0x5BD),
    (0x600, 0x605), (0x610, 0x61A), (0x61C, 0x61C), (0x64B, 0x65F), (0x180B, 0x180F),
    (0x1AB0, 0x1ACE), (0x1DC0, 0x1DFF), (0x200B, 0x200F), (0x2028, 0x202E), (0x205F, 0x206F),
    (0x20D0, 0x20F0), (0x3000, 0x3000), (0x302A, 0x302F), (0x3099, 0x309A), (0xA0, 0xA0),
    (0x1680, 0x1680), (0x2000, 0x200A), (0x202F, 0x202F), (0xE000, 0xF8FF), (0xFE00, 0xFE0F),
    (0xFE20, 0xFE2F), (0xFEFF, 0xFEFF), (0xFFF0, 0xFFFB), (0xFFFE, 0xFFFF), (0xE0000, 0x10FFFF)]

/-- The number of a character in hexadecimal, without zeros in front. -/
def hexNumber (n : Nat) : List Char :=
  match (digits 16 6 n).dropWhile (· == '0') with
  | [] => ['0']
  | cs => cs

/-- A character as it stands in a quoted text. -/
def escapeQuoted (c : Char) : List Char :=
  if c = '"' then ['\\', '"']
  else if c = '\\' then ['\\', '\\']
  else if c = '\n' then ['\\', 'n']
  else if c = '\r' then ['\\', 'r']
  else if c = '\t' then ['\\', 't']
  else if c = '\x00' then ['\\', '0']
  else if hiddenRanges.any fun r => r.1 ≤ c.toNat && c.toNat ≤ r.2 then
    '\\' :: 'u' :: '\x7b' :: (hexNumber c.toNat ++ ['\x7d'])
  else [c]

/-- The text in quotes. -/
def quoted (text : String) : String :=
  String.ofList ('"' :: (text.toList.flatMap escapeQuoted ++ ['"']))

end SshTunnels.Text
