import Mathlib.Data.List.Nodup
import Mathlib.Data.List.Perm.Basic

/-!
# Looking up

What a list of pairs holds for a key after its values are changed, after pairs are taken out, and,
if no key comes twice, in another order.
-/

namespace SshTunnels

variable {κ α β : Type} [BEq κ] [LawfulBEq κ] {es es' : List (κ × α)} {k : κ} {v : α}

theorem lookup_eq_none_iff_not_mem : es.lookup k = none ↔ k ∉ es.map (·.1) := by
  rw [List.lookup_eq_none_iff]
  constructor
  · intro h hm
    obtain ⟨e, he, rfl⟩ := List.mem_map.mp hm
    exact absurd (h e he) (by simp)
  · intro h e he
    exact bne_iff_ne.mpr fun hk => h (hk ▸ List.mem_map_of_mem he)

theorem mem_of_lookup (h : es.lookup k = some v) : (k, v) ∈ es := by
  obtain ⟨before, after, rfl, -⟩ := List.lookup_eq_some_iff.mp h
  exact List.mem_append_right _ List.mem_cons_self

variable [DecidableEq κ]

theorem lookup_cons_eq (first k : κ) (v : α) (es : List (κ × α)) :
    ((first, v) :: es).lookup k = if k = first then some v else es.lookup k := by
  rw [List.lookup_cons]
  by_cases h : k = first
  · rw [if_pos h, beq_iff_eq.mpr h]
  · rw [if_neg h, beq_eq_false_iff_ne.mpr h]

/-- In a list with each key once, every pair is found. -/
theorem lookup_of_mem (hn : (es.map (·.1)).Nodup) (h : (k, v) ∈ es) : es.lookup k = some v := by
  induction es with
  | nil => exact absurd h List.not_mem_nil
  | cons e es ih =>
    obtain ⟨first, w⟩ := e
    obtain ⟨hfirst, hn⟩ := List.nodup_cons.mp hn
    rw [lookup_cons_eq]
    cases List.mem_cons.mp h with
    | inl he =>
      cases he
      exact if_pos rfl
    | inr he =>
      have hne : k ≠ first := fun hk => hfirst (List.mem_map.mpr ⟨(k, v), he, hk⟩)
      rw [if_neg hne]
      exact ih hn he

/-- With each key once, the order of the pairs does not matter. -/
theorem lookup_perm (hp : es.Perm es') (hn : (es.map (·.1)).Nodup) (k : κ) :
    es.lookup k = es'.lookup k := by
  have hn' : (es'.map (·.1)).Nodup := (hp.map _).nodup_iff.mp hn
  refine Option.ext fun v => ⟨fun h => ?_, fun h => ?_⟩
  · exact lookup_of_mem hn' (hp.mem_iff.mp (mem_of_lookup h))
  · exact lookup_of_mem hn (hp.mem_iff.mpr (mem_of_lookup h))

theorem lookup_map (f : κ → α → β) (es : List (κ × α)) (k : κ) :
    (es.map fun e => (e.1, f e.1 e.2)).lookup k = (es.lookup k).map (f k) := by
  induction es with
  | nil => rfl
  | cons e es ih =>
    obtain ⟨first, v⟩ := e
    rw [List.map_cons, lookup_cons_eq, lookup_cons_eq, ih]
    split
    · next h => rw [h]; rfl
    · rfl

theorem lookup_filter_ne (es : List (κ × α)) (gone k : κ) :
    (es.filter (·.1 != gone)).lookup k = if k = gone then none else es.lookup k := by
  induction es with
  | nil => exact (ite_self none).symm
  | cons e es ih =>
    obtain ⟨first, v⟩ := e
    rw [List.filter_cons, lookup_cons_eq]
    by_cases hfirst : first = gone
    · subst hfirst
      rw [if_neg (by simp), ih]
      split <;> rfl
    · rw [if_pos (bne_iff_ne.mpr hfirst), lookup_cons_eq, ih]
      by_cases hk : k = first
      · rw [if_pos hk, if_pos hk, if_neg (fun h => hfirst (hk.symm.trans h))]
      · rw [if_neg hk, if_neg hk]

/-- With each key once, a pair stays in a filtered list if it passes the filter itself. -/
theorem lookup_filter (hn : (es.map (·.1)).Nodup) (p : κ × α → Bool) (k : κ) :
    (es.filter p).lookup k = (es.lookup k).filter fun v => p (k, v) := by
  induction es with
  | nil => rfl
  | cons e es ih =>
    obtain ⟨first, v⟩ := e
    obtain ⟨hfirst, hr⟩ := List.nodup_cons.mp hn
    rw [lookup_cons_eq, List.filter_cons]
    by_cases hk : k = first
    · subst hk
      have hnone : es.lookup k = none := lookup_eq_none_iff_not_mem.mpr hfirst
      rw [if_pos rfl, Option.filter_some]
      split
      · rw [lookup_cons_eq, if_pos rfl]
      · rw [ih hr, hnone]
        rfl
    · rw [if_neg hk, ← ih hr]
      split
      · rw [lookup_cons_eq, if_neg hk]
      · rfl

end SshTunnels
