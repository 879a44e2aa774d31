import SshTunnels.Bytes

/-!
# The wire format of keys

Keys are written as fields with a four-byte length in front. A `Cursor` walks over them. Where the
bytes come out of a text as they are read, even an empty field cannot be read once all of them are
used up; where they lie in memory, it can.
-/

namespace SshTunnels.Wire

/-- Bytes still to be read in the current section. -/
structure Cursor where
  rest : Bytes
  /-- More bytes follow behind the section. -/
  moreBehind : Bool
  /-- The bytes come out of a text as they are read. -/
  streamed : Bool

/-- A step that reads from a cursor and may fail. -/
abbrev Reader := StateT Cursor Option

namespace Reader

/-- Reads `n` bytes. -/
def take (n : Nat) : Reader Bytes := fun c =>
  if c.rest.length < n then none
  else if n = 0 ∧ c.rest = [] ∧ c.streamed ∧ ¬ c.moreBehind then none
  else some (c.rest.take n, { c with rest := c.rest.drop n })

/-- Reads an unsigned number of four bytes. -/
def u32 : Reader Nat := return (← take 4).toNat

/-- Reads one byte. -/
def byte : Reader UInt8 := return (← take 1).headD 0

/-- Reads a section with its length in front; it must be used up. -/
def nested (r : Reader α) : Reader α := do
  let n ← u32
  let c ← get
  if c.rest.length < n then failure
  else
    let behind := c.rest.drop n
    let inner : Cursor := ⟨c.rest.take n, c.moreBehind || !behind.isEmpty, c.streamed⟩
    match r inner with
    | some (a, ⟨[], _, _⟩) => do
      set { c with rest := behind }
      return a
    | _ => failure

/-- Reads a field. -/
def blob : Reader Bytes := nested do take (← get).rest.length

/-- Reads a field that holds a text. -/
def text : Reader String := do
  (← blob).toString?.elim failure pure

/-- Reads a name of at most 48 bytes. -/
def label : Reader String := do
  let bytes ← blob
  if 48 < bytes.length then failure else bytes.toString?.elim failure pure

/-- Reads a multiple-precision integer: no leading zero byte that the sign does not need. -/
def mpint : Reader Bytes := do
  match ← blob with
  | [0] => failure
  | 0 :: b :: rest => if b < 0x80 then failure else return 0 :: b :: rest
  | bytes => return bytes

/-- Runs a reader on bytes in memory, all of which must be used. -/
def run (r : Reader α) (bytes : Bytes) (streamed : Bool) : Option α :=
  match r ⟨bytes, false, streamed⟩ with
  | some (a, ⟨[], _, _⟩) => some a
  | _ => none

end Reader

/-- Writes a field. -/
def blob (bytes : Bytes) : Bytes :=
  Bytes.ofNat 4 bytes.length ++ bytes

/-- Writes a field that holds a text. -/
def text (s : String) : Bytes :=
  blob (Bytes.ofString s)

/-- The bytes of a natural number as a multiple-precision integer: as few as it takes, with a zero
in front if the highest bit is set. -/
def mpintOf (n : Nat) : Bytes :=
  if n = 0 then [] else Bytes.ofNat (n.log2 / 8 + 1 + (if n.log2 % 8 = 7 then 1 else 0)) n

end SshTunnels.Wire
