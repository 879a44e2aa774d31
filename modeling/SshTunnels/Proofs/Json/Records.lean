import SshTunnels.Json.Record
import SshTunnels.Proofs.Lookup

/-!
# Records whose members are in another order

The order of an object's members shows neither in the fields that a record finds there
(`fields?_perm`) nor in the kind that its tag names (`tagged?_object`).
-/

namespace SshTunnels.Json

/-- A value that can be kept, as a member of a record, until the record's kind is known: its strings
are whole, its numbers finite, and it is not nested too deep. -/
def Kept (x : Json) : Prop :=
  x.keepable = true ∧ x.depth < maxKeptDepth

instance (x : Json) : Decidable x.Kept :=
  inferInstanceAs (Decidable (_ ∧ _))

variable {ms ms' : List (String × Json)} {name tag : String}

theorem keepableMembers_iff : keepableMembers ms = true ↔ ∀ m ∈ ms, m.2.keepable = true := by
  induction ms with
  | nil => simp [keepableMembers]
  | cons m ms ih => simp [keepableMembers, ih]

theorem depthMembers_lt_iff {d : Nat} (hd : 0 < d) :
    depthMembers ms < d ↔ ∀ m ∈ ms, m.2.depth < d := by
  induction ms with
  | nil => simp [depthMembers, hd]
  | cons m ms ih => rw [depthMembers, Nat.max_lt, ih, List.forall_mem_cons]

/-- An object's members can be kept exactly if each of them can. -/
theorem keepable_object_iff : ((Json.object ms).keepable && (Json.object ms).depth ≤ maxKeptDepth) =
    true ↔ ∀ m ∈ ms, m.2.Kept := by
  have hdepth : (Json.object ms).depth ≤ maxKeptDepth ↔ ∀ m ∈ ms, m.2.depth < maxKeptDepth := by
    rw [← depthMembers_lt_iff (by decide), depth]
    omega
  rw [Bool.and_eq_true, decide_eq_true_eq, hdepth, keepable, keepableMembers_iff]
  simp only [Kept, ← forall_and]

/-- The fields of a record that an object holds, and the object whose members are in another order:
neither has them, or each is found in both. -/
theorem fields?_perm (hp : ms.Perm ms') (names : List String) :
    Option.Rel (fun f f' : Fields => ∀ name, f.lookup name = f'.lookup name)
      ((Json.object ms).fields? names) ((Json.object ms').fields? names) := by
  have hdeclared := hp.filter fun m => names.contains m.1
  simp only [fields?, ← (hdeclared.map (·.1)).nodup_iff]
  split
  · next hn => exact .some (lookup_perm hdeclared hn)
  · exact .none

/-- A member that the record does not declare is skipped. -/
theorem fields?_cons_of_not_mem {names : List String} (h : name ∉ names) (x : Json) :
    (Json.object ((name, x) :: ms)).fields? names = (Json.object ms).fields? names := by
  have hskip : ((name, x) :: ms).filter (fun m => names.contains m.1) =
      ms.filter fun m => names.contains m.1 := by
    rw [List.filter_cons, if_neg (by simpa using h)]
  rw [fields?, hskip, fields?]

/-- The kind that the tag of an object names. -/
def tagOf? (tag : String) (ms : List (String × Json)) : Option String :=
  match ms.filter (·.1 == tag) with
  | [(_, .string kind)] => some kind
  | _ => none

theorem tagged?_object (tag : String) (ms : List (String × Json)) :
    (Json.object ms).tagged? tag = if ∀ m ∈ ms, m.2.Kept then
      (tagOf? tag ms).map fun kind => (kind, .object (ms.filter (·.1 != tag))) else none := by
  simp only [tagged?, keepable_object_iff, tagOf?]
  split
  · generalize ms.filter (·.1 == tag) = tags
    rcases tags with _ | ⟨⟨_, x⟩, _ | _⟩
    · rfl
    · cases x <;> rfl
    · cases x <;> rfl
  · rfl

theorem tagOf?_perm (hp : ms.Perm ms') (tag : String) : tagOf? tag ms = tagOf? tag ms' := by
  have htags := hp.filter (·.1 == tag)
  unfold tagOf?
  split
  · next htag =>
    rw [htag, List.singleton_perm] at htags
    rw [← htags]
  · next hnone =>
    split
    · next htag =>
      rw [htag, List.perm_singleton] at htags
      exact absurd htags (hnone _ _)
    · rfl

theorem tagOf?_cons_of_ne (h : name ≠ tag) (x : Json) :
    tagOf? tag ((name, x) :: ms) = tagOf? tag ms := by
  rw [tagOf?, List.filter_cons, if_neg (by simpa using h), tagOf?]

theorem mem_of_tagOf? {kind : String} (h : tagOf? tag ms = some kind) :
    (tag, .string kind) ∈ ms := by
  unfold tagOf? at h
  split at h
  · next first kind' heq =>
    cases h
    have hmem : (first, .string kind) ∈ ms.filter (·.1 == tag) := heq ▸ List.mem_singleton_self _
    obtain ⟨hin, hname⟩ := List.mem_filter.mp hmem
    have hfirst : first = tag := by simpa using hname
    exact hfirst ▸ hin
  · cases h

end SshTunnels.Json
