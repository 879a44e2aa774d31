import Mathlib.Data.String.Basic
import SshTunnels.Proofs.Lookup
import SshTunnels.Stats

/-!
# What tags hold

Tags are in the order of their keys, each key once, whatever they are made of (`Ordered`). So what
they hold for a key is all there is to know: a key that is set holds its value (`get?_insert`), and
of two sets of tags that are merged the second counts (`get?_merge`).
-/

namespace SshTunnels.Tags

variable {t extra : Tags} {entries : List (String × String)} {key k value : String}

/-- The keys are in order, each once. -/
def Ordered (t : Tags) : Prop :=
  (t.entries.map (·.1)).Pairwise (· < ·)

instance (t : Tags) : Decidable t.Ordered :=
  inferInstanceAs (Decidable (List.Pairwise _ _))

/-! ## The order of the keys -/

theorem mem_keys_insertEntry : k ∈ (insertEntry key value entries).map (·.1) ↔
    k = key ∨ k ∈ entries.map (·.1) := by
  induction entries with
  | nil => simp [insertEntry]
  | cons e rest ih =>
    obtain ⟨first, v⟩ := e
    rw [insertEntry]
    split
    · simp
    · split
      · next hkey => simp [hkey]
      · rw [List.map_cons, List.mem_cons, ih, List.map_cons, List.mem_cons]
        exact or_left_comm

theorem pairwise_insertEntry (h : (entries.map (·.1)).Pairwise (· < ·)) :
    ((insertEntry key value entries).map (·.1)).Pairwise (· < ·) := by
  induction entries with
  | nil => exact List.pairwise_singleton _ _
  | cons e rest ih =>
    obtain ⟨first, v⟩ := e
    obtain ⟨hfirst, hrest⟩ := List.pairwise_cons.mp h
    rw [insertEntry]
    split
    · next hlt =>
      refine List.pairwise_cons.mpr ⟨fun k hk => ?_, h⟩
      rcases List.mem_cons.mp hk with rfl | hk
      · exact hlt
      · exact lt_trans hlt (hfirst k hk)
    · next hle =>
      split
      · next hkey =>
        subst hkey
        exact h
      · next hne =>
        refine List.pairwise_cons.mpr ⟨fun k hk => ?_, ih hrest⟩
        rcases mem_keys_insertEntry.mp hk with rfl | hk
        · exact lt_of_le_of_ne (not_lt.mp hle) (Ne.symm hne)
        · exact hfirst k hk

theorem ordered_empty : empty.Ordered :=
  List.Pairwise.nil

theorem Ordered.insert (h : t.Ordered) (key value : String) : (t.insert key value).Ordered :=
  pairwise_insertEntry h

/-- Merging keeps the order, even of entries that are in none. -/
theorem Ordered.merge (h : t.Ordered) (extra : Tags) : (t.merge extra).Ordered := by
  rw [Tags.merge]
  generalize extra.entries = entries
  induction entries generalizing t with
  | nil => exact h
  | cons e rest ih => exact ih (h.insert e.1 e.2)

theorem ordered_ofList (entries : List (String × String)) : (ofList entries).Ordered :=
  ordered_empty.merge ⟨entries⟩

theorem Ordered.erase (h : t.Ordered) (key : String) : (t.erase key).Ordered :=
  h.sublist (List.filter_sublist.map _)

theorem Ordered.nodup (h : t.Ordered) : (t.entries.map (·.1)).Nodup :=
  h.imp fun hlt => ne_of_lt hlt

/-! ## The value of a key -/

theorem lookup_insertEntry (key value : String) (entries : List (String × String)) (k : String) :
    (insertEntry key value entries).lookup k =
      if k = key then some value else entries.lookup k := by
  induction entries with
  | nil => rw [insertEntry, lookup_cons_eq]
  | cons e rest ih =>
    obtain ⟨first, v⟩ := e
    rw [insertEntry]
    split
    · rw [lookup_cons_eq]
    · split
      · next hkey =>
        subst hkey
        rw [lookup_cons_eq, lookup_cons_eq]
        by_cases hk : k = key
        · rw [if_pos hk, if_pos hk]
        · rw [if_neg hk, if_neg hk, if_neg hk]
      · next hne =>
        rw [lookup_cons_eq, lookup_cons_eq, ih]
        by_cases hk : k = first
        · rw [if_pos hk, if_pos hk, if_neg fun h => hne (h.symm.trans hk)]
        · rw [if_neg hk, if_neg hk]

@[simp]
theorem get?_empty (k : String) : empty.get? k = none :=
  rfl

theorem get?_insert (t : Tags) (key value k : String) :
    (t.insert key value).get? k = if k = key then some value else t.get? k :=
  lookup_insertEntry key value t.entries k

theorem get?_foldl_insert (hn : (entries.map (·.1)).Nodup) (t : Tags) (k : String) :
    (entries.foldl (fun tags e => tags.insert e.1 e.2) t).get? k =
      (entries.lookup k).or (t.get? k) := by
  induction entries generalizing t with
  | nil => rfl
  | cons e rest ih =>
    obtain ⟨first, v⟩ := e
    obtain ⟨hfirst, hrest⟩ := List.nodup_cons.mp hn
    rw [List.foldl_cons, ih hrest, get?_insert, lookup_cons_eq]
    by_cases hk : k = first
    · rw [if_pos hk, if_pos hk, hk, lookup_eq_none_iff_not_mem.mpr hfirst]
      rfl
    · rw [if_neg hk, if_neg hk]

/-- Of two sets of tags the second counts. -/
theorem get?_merge (h : extra.Ordered) (t : Tags) (k : String) :
    (t.merge extra).get? k = (extra.get? k).or (t.get? k) :=
  get?_foldl_insert h.nodup t k

theorem get?_ofList (hn : (entries.map (·.1)).Nodup) (k : String) :
    (ofList entries).get? k = entries.lookup k := by
  rw [ofList, get?_foldl_insert hn, get?_empty, Option.or_none]

end SshTunnels.Tags
