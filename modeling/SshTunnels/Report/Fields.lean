import SshTunnels.Bytes
import SshTunnels.Json.Writer
import SshTunnels.Stats
import SshTunnels.Text.Shortest
import SshTunnels.Time.Span
import SshTunnels.Tunnel.Config

/-!
# Fields of a record

Fields of an object, with something to fall back on when a field is missing or is of another make.
-/

namespace SshTunnels.Fields

/-- The text of a field. -/
def str? (j : Json) (k : String) : Option String := (j.get? k).bind Json.string?

/-- The text of a field, or the empty text. -/
def str (j : Json) (k : String) : String := (str? j k).getD ""

/-- The field itself, or `null`. -/
def sub (j : Json) (k : String) : Json := (j.get? k).getD .null

/-- The whole number of a field. -/
def num? (j : Json) (k : String) : Option Int := (j.get? k).bind Json.int?

/-- The whole number of a field, or another one. -/
def num (j : Json) (k : String) (fallback : Int) : Int := (num? j k).getD fallback

/-- The elements of a field. -/
def items (j : Json) (k : String) : List Json := ((j.get? k).bind Json.array?).getD []

/-- The texts among the elements of a field. -/
def texts (j : Json) (k : String) : List String := (items j k).filterMap Json.string?

/-- The members of a field. -/
def members (j : Json) (k : String) : List (String × Json) :=
  match j.get? k with
  | some (.object ms) => ms
  | _ => []

/-- The truth of a field. -/
def flag (j : Json) (k : String) : Bool := ((j.get? k).bind Json.bool?).getD false

/-- The identifier of a field. -/
def idOf (j : Json) (k : String) : Uuid := ((str? j k).bind Uuid.ofString?).getD default

/-- The tunnel kind of a field. -/
def kindOf (j : Json) (k : String) : TunnelKind := (TunnelKind.ofName? (str j k)).getD .reverse

/-- The port of a field. -/
def portOf (j : Json) (k : String) : UInt16 := UInt16.ofNat (num j k 0).toNat

/-- The number that a value spells. -/
def floatOf : Json → Float
  | .number n => n.toFloat
  | .string s => (Text.float? s).getD 0
  | _ => 0

/-- The tags of a field; a value that is no text is written out. -/
def tagsOf (j : Json) (k : String) : Tags :=
  .ofList ((members j k).map fun (k, v) => (k, v.string?.getD v.write))

/-- A number of milliseconds. -/
def millisOf (j : Json) (k : String) (fallback : Nat) : Span :=
  .ofMillis (num j k fallback).toNat

/-- Bytes: a text, hexadecimal digits, or a repeated text. -/
def bytesOf (j : Json) : Bytes :=
  match j.string?, str? j "hex" with
  | some text, _ => .ofString text
  | none, some digits => (Bytes.ofHex? digits.toList).getD []
  | none, none => (List.replicate (num j "times" 0).toNat (Bytes.ofString (str j "repeat"))).flatten

/-- The bytes of a field. -/
def bytes (j : Json) (k : String) : Bytes := bytesOf (sub j k)

end SshTunnels.Fields
