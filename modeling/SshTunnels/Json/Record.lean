import SshTunnels.Json.Basic

/-!
# Records in JSON

How a record with named fields is read from a value. An object names each declared field at most
once and may hold other members, which are skipped; an array lists every field in order. A choice
between names is a string, or an object whose only member has that name and the value `null`.
-/

namespace SshTunnels.Json

/-- The members of a record that a value holds, by field name. -/
abbrev Fields := List (String × Json)

/-- The declared fields of a record: none when a field is named twice, or when an array has not
exactly one element per field. -/
def fields? (names : List String) : Json → Option Fields
  | .object members =>
    let declared := members.filter fun m => names.contains m.1
    if (declared.map (·.1)).Nodup then some declared else none
  | .array elements =>
    if elements.length = names.length then some (names.zip elements) else none
  | _ => none

/-- A field that must be there. -/
def Fields.required (fields : Fields) (name : String) (read : Json → Option α) : Option α :=
  (fields.lookup name).bind read

/-- A field that may be missing or `null`. -/
def Fields.optional (fields : Fields) (name : String) (read : Json → Option α) :
    Option (Option α) :=
  match fields.lookup name with
  | none | some .null => some none
  | some j => (read j).map some

/-- The name that a choice between names picks. -/
def choice? : Json → Option String
  | .string name => some name
  | .object [(name, .null)] => some name
  | _ => none

mutual

/-- The nesting depth of a value. -/
def depth : Json → Nat
  | .array xs => 1 + depthElements xs
  | .object ms => 1 + depthMembers ms
  | _ => 0

/-- The depth of the deepest element. -/
def depthElements : List Json → Nat
  | [] => 0
  | x :: rest => max x.depth (depthElements rest)

/-- The depth of the deepest member. -/
def depthMembers : List (String × Json) → Nat
  | [] => 0
  | (_, x) :: rest => max x.depth (depthMembers rest)

end

mutual

/-- Every string in the value is a text and every number has a finite value: the value can be kept
before it is known which record it belongs to. -/
def keepable : Json → Bool
  | .halfPair => false
  | .number n => n.toInt?.isSome || n.toFloat.isFinite
  | .array xs => keepableElements xs
  | .object ms => keepableMembers ms
  | _ => true

/-- Every element can be kept. -/
def keepableElements : List Json → Bool
  | [] => true
  | x :: rest => x.keepable && keepableElements rest

/-- Every member can be kept. -/
def keepableMembers : List (String × Json) → Bool
  | [] => true
  | (_, x) :: rest => x.keepable && keepableMembers rest

end

/-- The greatest nesting depth of a value that is kept before it is known which record it belongs
to. -/
def maxKeptDepth : Nat := 127

/-- A record of one of several kinds: the field `tag` names the kind, as a member anywhere in an
object or as the first element of an array, and the rest is the record of that kind. -/
def tagged? (tag : String) (j : Json) : Option (String × Json) :=
  if j.keepable && j.depth ≤ maxKeptDepth then
    match j with
    | .object members =>
      match members.filter (·.1 == tag) with
      | [(_, .string kind)] => some (kind, .object (members.filter (·.1 != tag)))
      | _ => none
    | .array (.string kind :: rest) => some (kind, .array rest)
    | _ => none
  else none

end SshTunnels.Json
