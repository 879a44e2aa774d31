import SshTunnels.Manager
import SshTunnels.Proofs.Lookup

/-!
# Keyed lists

The manager keeps tunnels in lists of pairs in which no key comes twice. This module says what such
a list holds for a key after an entry is set, and that its keys stay distinct.
-/

namespace SshTunnels
namespace Manager

variable {α β : Type}

/-- The keys of a list of pairs, in order. -/
abbrev ids (entries : List (Uuid × α)) : List Uuid :=
  entries.map (·.1)

theorem ids_map (f : Uuid → α → β) (es : List (Uuid × α)) :
    ids (es.map fun e => (e.1, f e.1 e.2)) = ids es := by
  rw [ids, List.map_map]
  rfl

theorem nodup_ids_filter {es : List (Uuid × α)} (hn : (ids es).Nodup) (p : Uuid × α → Bool) :
    (ids (es.filter p)).Nodup :=
  hn.sublist (List.filter_sublist.map _)

/-! ## Setting an entry -/

theorem any_key_iff {es : List (Uuid × α)} {id : Uuid} :
    es.any (·.1 == id) = true ↔ id ∈ ids es := by
  rw [List.any_eq_true, List.mem_map]
  exact exists_congr fun e => and_congr_right fun _ => beq_iff_eq

/-- An entry that is there already keeps its place. -/
theorem upsert_of_mem {es : List (Uuid × α)} {id : Uuid} (h : id ∈ ids es) (v : α) :
    upsert es id v = es.map fun e => (e.1, if e.1 = id then v else e.2) := by
  rw [upsert, if_pos (any_key_iff.mpr h)]
  refine List.map_congr_left fun e _ => ?_
  by_cases he : e.1 = id
  · rw [if_pos (beq_iff_eq.mpr he), if_pos he, he]
  · rw [if_neg (mt beq_iff_eq.mp he), if_neg he]

/-- A new entry comes last. -/
theorem upsert_of_not_mem {es : List (Uuid × α)} {id : Uuid} (h : id ∉ ids es) (v : α) :
    upsert es id v = es ++ [(id, v)] := by
  rw [upsert, if_neg (mt any_key_iff.mp h)]

theorem lookup_append_singleton {es : List (Uuid × α)} {id : Uuid} (h : id ∉ ids es) (v : α)
    (k : Uuid) : (es ++ [(id, v)]).lookup k = if k = id then some v else es.lookup k := by
  rw [List.lookup_append, lookup_cons_eq]
  by_cases hk : k = id
  · rw [hk, lookup_eq_none_iff_not_mem.mpr h]
    rfl
  · rw [if_neg hk, if_neg hk]
    exact Option.or_none

theorem nodup_ids_append_singleton {es : List (Uuid × α)} {id : Uuid} (hn : (ids es).Nodup)
    (h : id ∉ ids es) (v : α) : (ids (es ++ [(id, v)])).Nodup := by
  rw [ids, List.map_append]
  refine List.nodup_append.mpr ⟨hn, List.nodup_singleton _, ?_⟩
  intro k hk k' hk' heq
  have hid : k = id := heq.trans (List.mem_singleton.mp hk')
  exact h (hid ▸ hk)

/-- Setting an entry changes what is found for its key, and nothing else. -/
theorem lookup_upsert (es : List (Uuid × α)) (id : Uuid) (v : α) (k : Uuid) :
    (upsert es id v).lookup k = if k = id then some v else es.lookup k := by
  by_cases h : id ∈ ids es
  · rw [upsert_of_mem h, lookup_map fun i w => if i = id then v else w]
    by_cases hk : k = id
    · have hsome := mt lookup_eq_none_iff_not_mem.mp (not_not.mpr h)
      obtain ⟨w, hw⟩ := Option.ne_none_iff_exists'.mp hsome
      rw [hk, hw]
      simp
    · simp [hk]
  · rw [upsert_of_not_mem h, lookup_append_singleton h]

theorem nodup_ids_upsert {es : List (Uuid × α)} (hn : (ids es).Nodup) (id : Uuid) (v : α) :
    (ids (upsert es id v)).Nodup := by
  by_cases h : id ∈ ids es
  · rw [upsert_of_mem h, ids_map fun i w => if i = id then v else w]
    exact hn
  · rw [upsert_of_not_mem h]
    exact nodup_ids_append_singleton hn h v

end Manager
end SshTunnels
