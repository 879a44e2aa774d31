import Mathlib.Data.List.Infix
import SshTunnels.Key.Armour

/-!
# First occurrences

A text is split at the first place where a marker stands (`splitAtFirst?_eq_some_iff`). What is put
behind that place does not move it, and where a marker cannot lie across the seam of two texts, it
is looked for in each of them in turn (`splitAtFirst?_append`).
-/

namespace SshTunnels.Armour

variable {m u v text before after : List Char}

/-- A marker stands in a text between two parts, and nowhere earlier. -/
structure FirstAt (m text before after : List Char) : Prop where
  eq : text = before ++ m ++ after
  first : ∀ earlier later, text = earlier ++ m ++ later → before.length ≤ earlier.length

/-- A text and another one behind it hold no marker across their seam. -/
def Clear (m u v : List Char) : Prop :=
  ∀ a b, m = a ++ b → a ≠ [] → b ≠ [] → a <:+ u → ¬ b <+: v

/-! ## Splitting a text -/

theorem firstAt_of_splitAtFirst? (h : splitAtFirst? m text = some (before, after)) :
    FirstAt m text before after := by
  induction text generalizing before with
  | nil =>
    rw [splitAtFirst?] at h
    split at h
    · next hm =>
      cases h
      exact ⟨by rw [hm]; rfl, fun _ _ _ => Nat.zero_le _⟩
    · cases h
  | cons c rest ih =>
    rw [splitAtFirst?] at h
    split at h
    · next hm =>
      cases h
      obtain ⟨t, ht⟩ := List.isPrefixOf_iff_prefix.mp hm
      refine ⟨?_, fun _ _ _ => Nat.zero_le _⟩
      rw [← ht, List.drop_left, List.nil_append]
    · next hm =>
      obtain ⟨⟨before', after'⟩, hrest, heq⟩ := Option.map_eq_some_iff.mp h
      cases heq
      have hfirst := ih hrest
      refine ⟨by rw [hfirst.eq]; rfl, fun earlier later heq => ?_⟩
      cases earlier with
      | nil => exact absurd (List.isPrefixOf_iff_prefix.mpr ⟨later, heq.symm⟩) hm
      | cons e earlier =>
        exact Nat.succ_le_succ (hfirst.first earlier later (List.cons.inj heq).2)

theorem splitAtFirst?_ne_none (h : m <:+: text) : splitAtFirst? m text ≠ none := by
  obtain ⟨earlier, later, rfl⟩ := h
  induction earlier with
  | nil =>
    rw [List.nil_append]
    cases htext : m ++ later with
    | nil =>
      rw [splitAtFirst?, if_pos (List.append_eq_nil_iff.mp htext).1]
      exact Option.some_ne_none _
    | cons c rest =>
      rw [splitAtFirst?, if_pos (List.isPrefixOf_iff_prefix.mpr ⟨later, htext⟩)]
      exact Option.some_ne_none _
  | cons e earlier ih =>
    rw [List.cons_append, List.cons_append, splitAtFirst?]
    split
    · exact Option.some_ne_none _
    · rw [ne_eq, Option.map_eq_none_iff]
      exact ih

theorem FirstAt.occurs (h : FirstAt m text before after) : m <:+: text :=
  ⟨before, after, h.eq.symm⟩

theorem splitAtFirst?_eq_none_iff : splitAtFirst? m text = none ↔ ¬ m <:+: text := by
  constructor
  · intro h hm
    exact splitAtFirst?_ne_none hm h
  · intro hm
    refine Option.eq_none_iff_forall_ne_some.mpr fun (before, after) h => ?_
    exact hm (firstAt_of_splitAtFirst? h).occurs

/-- A text is split at the first occurrence of a marker. -/
theorem splitAtFirst?_eq_some_iff :
    splitAtFirst? m text = some (before, after) ↔ FirstAt m text before after := by
  refine ⟨firstAt_of_splitAtFirst?, fun h => ?_⟩
  obtain ⟨⟨before', after'⟩, hsplit⟩ :=
    Option.ne_none_iff_exists'.mp (splitAtFirst?_ne_none h.occurs)
  have h' := firstAt_of_splitAtFirst? hsplit
  have hlength : before.length = before'.length :=
    Nat.le_antisymm (h.first _ _ h'.eq) (h'.first _ _ h.eq)
  have heq : before ++ (m ++ after) = before' ++ (m ++ after') := by
    rw [← List.append_assoc, ← List.append_assoc, ← h.eq, ← h'.eq]
  obtain ⟨rfl, hrest⟩ := List.append_inj heq hlength
  rw [hsplit, List.append_cancel_left hrest]

/-! ## Texts that are put together -/

/-- What stands behind the first occurrence does not matter. -/
theorem splitAtFirst?_append_of_some (h : splitAtFirst? m u = some (before, after))
    (v : List Char) : splitAtFirst? m (u ++ v) = some (before, after ++ v) := by
  rw [splitAtFirst?_eq_some_iff] at h ⊢
  refine ⟨by rw [h.eq, List.append_assoc], fun earlier later heq => ?_⟩
  -- an occurrence in front of the first one would have to end in front of its end as well
  by_contra hlt
  have hlength := congrArg List.length h.eq
  simp only [List.length_append] at hlength
  have hwithin : earlier ++ m <+: u :=
    List.prefix_of_prefix_length_le ⟨later, heq.symm⟩ ⟨v, rfl⟩
      (by rw [List.length_append]; omega)
  obtain ⟨rest, hrest⟩ := hwithin
  exact hlt (h.first earlier rest hrest.symm)

theorem prefix_append_cases (h : m <+: u ++ v) : m <+: u ∨ ∃ b, m = u ++ b ∧ b <+: v := by
  obtain ⟨t, ht⟩ := h
  rcases List.append_eq_append_iff.mp ht with ⟨b, hu, -⟩ | ⟨b, hm, hv⟩
  · exact .inl ⟨b, hu.symm⟩
  · exact .inr ⟨b, hm, t, hv.symm⟩

theorem splitAtFirst?_append_of_none (hc : Clear m u v) (h : splitAtFirst? m u = none) :
    splitAtFirst? m (u ++ v) = (splitAtFirst? m v).map fun s => (u ++ s.1, s.2) := by
  induction u with
  | nil => exact Option.map_id'.symm
  | cons c rest ih =>
    rw [splitAtFirst?] at h
    split at h
    · cases h
    · next hm =>
      have hrest : Clear m rest v := fun a b hab ha hb hsuffix =>
        hc a b hab ha hb (hsuffix.trans (List.suffix_cons c rest))
      have hnot : ¬ m.isPrefixOf (c :: (rest ++ v)) = true := by
        intro hfront
        rcases prefix_append_cases (u := c :: rest) (List.isPrefixOf_iff_prefix.mp hfront) with
          hu | ⟨b, hmb, hbv⟩
        · exact hm (List.isPrefixOf_iff_prefix.mpr hu)
        · refine hc _ b hmb (List.cons_ne_nil c rest) ?_ List.suffix_rfl hbv
          rintro rfl
          exact hm (List.isPrefixOf_iff_prefix.mpr (by rw [hmb, List.append_nil]))
      rw [List.cons_append, splitAtFirst?, if_neg hnot,
        ih hrest (Option.map_eq_none_iff.mp h), Option.map_map]
      rfl

/-- A marker that cannot lie across a seam is looked for in front of it and then behind it. -/
theorem splitAtFirst?_append (hc : Clear m u v) : splitAtFirst? m (u ++ v) =
    ((splitAtFirst? m u).map fun s => (s.1, s.2 ++ v)).or
      ((splitAtFirst? m v).map fun s => (u ++ s.1, s.2)) := by
  cases h : splitAtFirst? m u with
  | none => exact splitAtFirst?_append_of_none hc h
  | some s => exact splitAtFirst?_append_of_some h v

/-- No marker lies across a seam behind a character that it does not hold. -/
theorem clear_concat {c : Char} (hc : c ∉ m) (u v : List Char) : Clear m (u ++ [c]) v := by
  rintro a b rfl ha - hsuffix
  have hlast := hsuffix.getLast ha
  rw [List.getLast_append_singleton] at hlast
  exact absurd (List.mem_append_left b (hlast ▸ List.getLast_mem ha)) hc

/-- No marker lies across a seam in front of a character that it does not hold. -/
theorem clear_cons {c : Char} (hc : c ∉ m) (u v : List Char) : Clear m u (c :: v) := by
  rintro a b rfl - hb - hfront
  have hhead := hfront.head hb
  rw [List.head_cons] at hhead
  exact absurd (List.mem_append_right a (hhead ▸ List.head_mem hb)) hc

theorem clear_nil_left (m v : List Char) : Clear m [] v :=
  fun _ _ _ ha _ hsuffix => absurd (List.suffix_nil.mp hsuffix) ha

end SshTunnels.Armour
