import SshTunnels.Json.Basic
import SshTunnels.Text.Digits

/-!
# Writing JSON text

The two layouts of a JSON value: `write` without blanks, and `writePretty` with one member or
element per line. Strings escape quotes, backslashes and control characters, and nothing else.
-/

namespace SshTunnels.Json

/-- A character as it stands in a string. -/
def escape (c : Char) : List Char :=
  if c = '"' then ['\\', '"']
  else if c = '\\' then ['\\', '\\']
  else if c = '\n' then ['\\', 'n']
  else if c = '\r' then ['\\', 'r']
  else if c = '\t' then ['\\', 't']
  else if c = '\x08' then ['\\', 'b']
  else if c = '\x0c' then ['\\', 'f']
  else if c.toNat < 0x20 then '\\' :: 'u' :: Text.digits 16 4 c.toNat
  else [c]

/-- A string in its quotes. -/
def quote (text : String) : List Char :=
  '"' :: (text.toList.flatMap escape ++ ['"'])

/-- A number's spelling. -/
def Number.write (n : Number) : List Char :=
  (if n.negative then ['-'] else []) ++ (toString n.digits).toList ++
    (if n.integral then [] else 'e' :: (toString n.exponent).toList)

mutual

/-- A value without blanks. -/
def writeChars : Json → List Char
  | .null => ['n', 'u', 'l', 'l']
  | .bool true => ['t', 'r', 'u', 'e']
  | .bool false => ['f', 'a', 'l', 's', 'e']
  | .number n => n.write
  | .string s => quote s
  | .halfPair => quote ""
  | .array xs => '[' :: (writeElements xs ++ [']'])
  | .object ms => '\x7b' :: (writeMembers ms ++ ['\x7d'])

/-- Elements divided by commas. -/
def writeElements : List Json → List Char
  | [] => []
  | [x] => writeChars x
  | x :: y :: rest => writeChars x ++ ',' :: writeElements (y :: rest)

/-- Members divided by commas. -/
def writeMembers : List (String × Json) → List Char
  | [] => []
  | [(name, x)] => quote name ++ ':' :: writeChars x
  | (name, x) :: y :: rest => quote name ++ ':' :: (writeChars x ++ ',' :: writeMembers (y :: rest))

end

/-- The text of a value without blanks. -/
def write (j : Json) : String :=
  String.ofList j.writeChars

/-- A new line, indented by two blanks a level. -/
def newLine (level : Nat) : List Char :=
  '\n' :: List.replicate (2 * level) ' '

mutual

/-- A value at an indentation level, one member or element per line. -/
def prettyChars : (level : Nat) → Json → List Char
  | level, .array (x :: xs) =>
    '[' :: (prettyElements (level + 1) (x :: xs) ++ newLine level ++ [']'])
  | level, .object (m :: ms) =>
    '\x7b' :: (prettyMembers (level + 1) (m :: ms) ++ newLine level ++ ['\x7d'])
  | _, j => j.writeChars

/-- Elements, each on a line of its own. -/
def prettyElements : (level : Nat) → List Json → List Char
  | _, [] => []
  | level, [x] => newLine level ++ prettyChars level x
  | level, x :: y :: rest =>
    newLine level ++ prettyChars level x ++ ',' :: prettyElements level (y :: rest)

/-- Members, each on a line of its own. -/
def prettyMembers : (level : Nat) → List (String × Json) → List Char
  | _, [] => []
  | level, [(name, x)] => newLine level ++ quote name ++ ':' :: ' ' :: prettyChars level x
  | level, (name, x) :: y :: rest =>
    newLine level ++ quote name ++ ':' :: ' ' ::
      (prettyChars level x ++ ',' :: prettyMembers level (y :: rest))

end

/-- The text of a value with one member or element per line. -/
def writePretty (j : Json) : String :=
  String.ofList (j.prettyChars 0)

end SshTunnels.Json
