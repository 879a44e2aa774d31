import SshTunnels.Json.Basic
import SshTunnels.Text.Digits

/-!
# Reading JSON text

A reader for the grammar of JSON: blanks are the four of the grammar, strings hold no control
characters, numbers have no leading zeros, and nothing but blanks follows the value.

Each step of the reader spends one unit of fuel; the length of the text is enough, because every
value, element and member takes at least one character.
-/

namespace SshTunnels.Json

/-- The blanks between tokens. -/
def isSpace (c : Char) : Bool :=
  c == ' ' || c == '\n' || c == '\r' || c == '\t'

/-- The text from its first token on. -/
def skipSpace (cs : List Char) : List Char :=
  cs.dropWhile isSpace

/-- A piece of a string: a character, or half of a surrogate pair that an escape names. -/
inductive Piece where
  | char (c : Char)
  | half (code : Nat)

/-- The pieces of a string up to its closing quote, and what follows it. -/
def readPieces : List Char → Option (List Piece × List Char)
  | [] => none
  | '"' :: rest => some ([], rest)
  | '\\' :: 'u' :: a :: b :: c :: d :: rest => do
    let code ← Text.ofHex? [a, b, c, d]
    let (pieces, rest) ← readPieces rest
    some ((if 0xD800 ≤ code ∧ code < 0xE000 then .half code else .char (Char.ofNat code)) :: pieces,
      rest)
  | '\\' :: e :: rest => do
    let c ← match e with
      | '"' => some '"'
      | '\\' => some '\\'
      | '/' => some '/'
      | 'b' => some '\x08'
      | 'f' => some '\x0c'
      | 'n' => some '\n'
      | 'r' => some '\r'
      | 't' => some '\t'
      | _ => none
    let (pieces, rest) ← readPieces rest
    some (.char c :: pieces, rest)
  | c :: rest =>
    if c.toNat < 0x20 ∨ c = '\\' then none
    else do
      let (pieces, rest) ← readPieces rest
      some (.char c :: pieces, rest)

/-- The text that pieces spell: a high half must be followed by a low one, and a low half must
follow a high one. -/
def joinPieces : List Piece → Option (List Char)
  | [] => some []
  | .char c :: rest => (joinPieces rest).map (c :: ·)
  | .half high :: .half low :: rest =>
    if high < 0xDC00 ∧ 0xDC00 ≤ low then
      (joinPieces rest).map
        (Char.ofNat (0x10000 + (high - 0xD800) * 0x400 + (low - 0xDC00)) :: ·)
    else none
  | .half _ :: _ => none

/-- The string that pieces spell. -/
def ofPieces (pieces : List Piece) : Json :=
  (joinPieces pieces).elim .halfPair fun cs => .string (String.ofList cs)

/-- The longest run of decimal digits and what follows it. -/
def spanDigits (cs : List Char) : List Char × List Char :=
  (cs.takeWhile Char.isDigit, cs.dropWhile Char.isDigit)

/-- The fraction of a number: a point and at least one digit, or nothing. -/
def readFraction : List Char → Option (List Char × List Char)
  | '.' :: rest =>
    match spanDigits rest with
    | ([], _) => none
    | found => some found
  | cs => some ([], cs)

/-- The exponent of a number, or nothing. -/
def readExponent : List Char → Option (Option Int × List Char)
  | c :: rest =>
    if c = 'e' ∨ c = 'E' then
      let (negative, rest) := match rest with
        | '-' :: rest => (true, rest)
        | '+' :: rest => (false, rest)
        | rest => (false, rest)
      match spanDigits rest with
      | ([], _) => none
      | (ds, rest) =>
        let n : Int := Text.ofDecimal ds
        some (some (if negative then -n else n), rest)
    else some (none, c :: rest)
  | [] => some (none, [])

/-- A number: an optional minus sign, an integer without leading zeros, a fraction and an
exponent. -/
def readNumber (cs : List Char) : Option (Number × List Char) := do
  let (negative, cs) := match cs with
    | '-' :: rest => (true, rest)
    | cs => (false, cs)
  let (whole, cs) := spanDigits cs
  if whole = [] ∨ (whole.head? = some '0' ∧ 1 < whole.length) then none
  else
    let (fraction, cs) ← readFraction cs
    let (exponent, cs) ← readExponent cs
    some (⟨negative, Text.ofDecimal (whole ++ fraction),
      exponent.getD 0 - (fraction.length : Int), fraction.isEmpty && exponent.isNone⟩, cs)

mutual

/-- The value that a text starts with, and what follows it. -/
def readValue : (fuel : Nat) → List Char → Option (Json × List Char)
  | 0, _ => none
  | fuel + 1, cs =>
    match skipSpace cs with
    | 'n' :: 'u' :: 'l' :: 'l' :: rest => some (.null, rest)
    | 't' :: 'r' :: 'u' :: 'e' :: rest => some (.bool true, rest)
    | 'f' :: 'a' :: 'l' :: 's' :: 'e' :: rest => some (.bool false, rest)
    | '"' :: rest => (readPieces rest).map fun (pieces, rest) => (ofPieces pieces, rest)
    | '[' :: rest =>
      match skipSpace rest with
      | ']' :: rest => some (.array [], rest)
      | rest => (readElements fuel rest).map fun (xs, rest) => (.array xs, rest)
    | '\x7b' :: rest =>
      match skipSpace rest with
      | '\x7d' :: rest => some (.object [], rest)
      | rest => (readMembers fuel rest).map fun (ms, rest) => (.object ms, rest)
    | rest => (readNumber rest).map fun (n, rest) => (.number n, rest)

/-- The elements of an array up to its closing bracket. -/
def readElements : (fuel : Nat) → List Char → Option (List Json × List Char)
  | 0, _ => none
  | fuel + 1, cs => do
    let (x, rest) ← readValue fuel cs
    match skipSpace rest with
    | ',' :: rest => (readElements fuel rest).map fun (xs, rest) => (x :: xs, rest)
    | ']' :: rest => some ([x], rest)
    | _ => none

/-- The members of an object up to its closing brace. -/
def readMembers : (fuel : Nat) → List Char → Option (List (String × Json) × List Char)
  | 0, _ => none
  | fuel + 1, cs =>
    match skipSpace cs with
    | '"' :: rest => do
      let (pieces, rest) ← readPieces rest
      let name ← joinPieces pieces
      match skipSpace rest with
      | ':' :: rest => do
        let (x, rest) ← readValue fuel rest
        match skipSpace rest with
        | ',' :: rest =>
          (readMembers fuel rest).map fun (ms, rest) => ((String.ofList name, x) :: ms, rest)
        | '\x7d' :: rest => some ([(String.ofList name, x)], rest)
        | _ => none
      | _ => none
    | _ => none

end

/-- The value that a whole text spells. -/
def read? (text : String) : Option Json :=
  let cs := text.toList
  match readValue (2 * cs.length + 2) cs with
  | some (value, rest) => if skipSpace rest = [] then some value else none
  | none => none

end SshTunnels.Json
