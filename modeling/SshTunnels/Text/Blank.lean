/-!
# Blank characters

The characters that separate or surround a text: those with the `White_Space` property. Trimming
removes a run of them at either end.
-/

namespace SshTunnels.Text

/-- The characters with the `White_Space` property. -/
def isBlank (c : Char) : Bool :=
  let n := c.toNat
  (0x09 ≤ n && n ≤ 0x0D) || n == 0x20 || n == 0x85 || n == 0xA0 || n == 0x1680 ||
    (0x2000 ≤ n && n ≤ 0x200A) || n == 0x2028 || n == 0x2029 || n == 0x202F || n == 0x205F ||
    n == 0x3000

/-- The text without the blanks it starts with. -/
def trimStart (cs : List Char) : List Char :=
  cs.dropWhile isBlank

/-- The text without the blanks it ends with. -/
def trimEnd (cs : List Char) : List Char :=
  (cs.reverse.dropWhile isBlank).reverse

/-- The text without the blanks around it. -/
def trim (cs : List Char) : List Char :=
  trimEnd (trimStart cs)

/-- The lines of a text: a line ends at a line feed, which may follow a carriage return, or at the
end of the text. A final line feed starts no further line. -/
def lines (cs : List Char) : List (List Char) :=
  let rec go : List Char → List Char → List (List Char)
    | [], [] => []
    | [], line => [line.reverse]
    | '\n' :: rest, '\r' :: line => line.reverse :: go rest []
    | '\n' :: rest, line => line.reverse :: go rest []
    | c :: rest, line => go rest (c :: line)
  go cs []

/-- The words between single spaces, at most `limit`: the last holds all the rest. -/
def words : (limit : Nat) → List Char → List (List Char)
  | 0, _ => []
  | 1, cs => [cs]
  | limit + 2, cs =>
    match cs.dropWhile (· != ' ') with
    | [] => [cs]
    | _ :: rest => cs.takeWhile (· != ' ') :: words (limit + 1) rest

/-- The pieces of a text between occurrences of a character. -/
def splitOn (mark : Char) (cs : List Char) : List (List Char) :=
  let rec go : List Char → List Char → List (List Char)
    | [], piece => [piece.reverse]
    | c :: rest, piece => if c = mark then piece.reverse :: go rest [] else go rest (c :: piece)
  go cs []

end SshTunnels.Text
