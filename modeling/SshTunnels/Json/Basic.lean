/-!
# JSON values

The values that configurations, rows and connection details are written as. Object members keep
their order and may repeat: which repetitions are faults is for the reader of a record to say.
-/

namespace SshTunnels

/-- A number as it is spelled: `digits · 10 ^ exponent`, with its sign. It is `integral` when it is
spelled with neither a fraction nor an exponent. -/
structure Json.Number where
  negative : Bool
  digits : Nat
  exponent : Int
  integral : Bool
  deriving DecidableEq, Repr

/-- A JSON value. `halfPair` is a string whose escapes name half of a surrogate pair: it is no text,
and only a reader that skips it can go on. -/
inductive Json where
  | null
  | bool (value : Bool)
  | number (value : Json.Number)
  | string (value : String)
  | halfPair
  | array (elements : List Json)
  | object (members : List (String × Json))
  deriving Repr

namespace Json

instance : Inhabited Json := ⟨.null⟩

/-- The number that is a whole number. -/
def ofInt (n : Int) : Json :=
  .number ⟨n < 0, n.natAbs, 0, true⟩

/-- The number that is a natural number. -/
def ofNat (n : Nat) : Json :=
  .number ⟨false, n, 0, true⟩

/-- A string, or `null` for none. -/
def ofString? (text : Option String) : Json :=
  text.elim .null .string

/-- The whole number that a spelling stands for. A fraction, an exponent or a negative zero makes it
no whole number, and so does a size beyond 64 bits. -/
def Number.toInt? (n : Number) : Option Int :=
  if n.integral then
    if n.negative then
      if 0 < n.digits ∧ n.digits ≤ 0x8000000000000000 then some (-(n.digits : Int)) else none
    else if n.digits < UInt64.size then some n.digits else none
  else none

/-- The nearest binary number of 64 bits. Exponents far outside its range are cut short, so that the
powers of ten stay small. -/
def Number.toFloat (n : Number) : Float :=
  let magnitude := n.exponent + (toString n.digits).length
  let value :=
    if n.digits = 0 ∨ magnitude < -400 then 0.0
    else if 400 < magnitude then 1.0 / 0.0
    else Float.ofScientific n.digits (n.exponent < 0) n.exponent.natAbs
  if n.negative then -value else value

/-- The value of an object's member of this name, the first if there are several. -/
def get? : Json → String → Option Json
  | .object members, name => members.lookup name
  | _, _ => none

/-- The text of a string. -/
def string? : Json → Option String
  | .string s => some s
  | _ => none

/-- The truth value. -/
def bool? : Json → Option Bool
  | .bool b => some b
  | _ => none

/-- The whole number. -/
def int? : Json → Option Int
  | .number n => n.toInt?
  | _ => none

/-- The whole number, if it lies from `low` to `high`. -/
def intIn? (low high : Int) (j : Json) : Option Int :=
  j.int?.filter fun n => decide (low ≤ n ∧ n ≤ high)

/-- The number as a 16-bit port. -/
def port? (j : Json) : Option UInt16 :=
  (j.intIn? 0 65535).map fun n => UInt16.ofNat n.toNat

/-- The number as a signed 64-bit integer. -/
def int64? (j : Json) : Option Int :=
  j.intIn? (-0x8000000000000000) 0x7fffffffffffffff

/-- The elements of an array. -/
def array? : Json → Option (List Json)
  | .array xs => some xs
  | _ => none

end Json
end SshTunnels
