import SshTunnels.Proofs.Store.Changes

/-!
# The table of keys

What is found in the table of keys once a key is stored or forgotten, and what the tables would be
had a key never been stored (`Database.without`): whatever is done to other keys and to tunnels is
done to those tables alike.
-/

namespace SshTunnels.Database

/-- A key keeps its identifier when it gets another kind and other contents. -/
theorem comp_replaced (id : Uuid) (p : Uuid → Bool) (kind : KeyKind) (contents : Bytes) :
    ((fun k : StoredKey => p k.id) ∘ fun k => if k.id == id then { k with kind, contents } else k) =
      fun k => p k.id := by
  funext k
  rw [Function.comp_apply]
  split <;> rfl

variable (db : Database) (id key : Uuid)

/-- A key that is stored again keeps the time at which it was stored first. -/
theorem key?_putKey (now : Timestamp) (kind : KeyKind) (contents : Bytes) :
    (db.putKey now id kind contents).key? key = if key = id then
      some ⟨id, kind, contents, ((db.key? id).map (·.createdAt)).getD now.stored⟩
      else db.key? key := by
  unfold putKey
  split
  · next old hold =>
    have hid : old.id = id := by simpa using List.find?_some hold
    rw [key?, List.find?_map, comp_replaced id (· == key), ← key?]
    split
    · next heq =>
      subst heq
      rw [hold]
      simp [hid]
    · next hne =>
      cases hfind : db.key? key with
      | none => rfl
      | some k =>
        have hk : k.id = key := by simpa using List.find?_some hfind
        rw [Option.map_some, if_neg (by simpa [hk] using hne)]
  · next hnone =>
    rw [key?, List.find?_append, ← key?]
    split
    · next heq =>
      subst heq
      simp [hnone]
    · next hne => simp [Ne.symm hne]

theorem find?_filter_id (keys : List StoredKey) : (keys.filter (·.id != id)).find? (·.id == key) =
    if key = id then none else keys.find? (·.id == key) := by
  rw [List.find?_filter]
  split
  · next heq =>
    subst heq
    simp
  · next hne =>
    congr 1
    funext k
    by_cases hk : k.id = key
    · simp [hk, hne]
    · simp [hk]

/-! ## The tables without a key -/

/-- The tables as they would be had a key never been stored. -/
def without (db : Database) (key : Uuid) : Database :=
  { db with
    keys := db.keys.filter (·.id != key)
    authorizations := db.authorizations.filter (·.key != key) }

theorem keys_without_eq_iff : (db.without key).keys = db.keys ↔ db.key? key = none := by
  simp [without, key?]

theorem authorizations_without_eq_iff : (db.without key).authorizations = db.authorizations ↔
    ∀ a ∈ db.authorizations, a.key ≠ key := by
  simp [without]

theorem without_eq_self_iff : db.without key = db ↔
    db.key? key = none ∧ ∀ a ∈ db.authorizations, a.key ≠ key := by
  rw [← keys_without_eq_iff, ← authorizations_without_eq_iff]
  constructor
  · intro h
    rw [h]
    exact ⟨rfl, rfl⟩
  · rintro ⟨hkeys, hauth⟩
    calc db.without key = ⟨db.tunnels, (db.without key).keys, (db.without key).authorizations⟩ := rfl
      _ = db := by rw [hkeys, hauth]

theorem key?_without : (db.without key).key? id = if id = key then none else db.key? id :=
  find?_filter_id key id db.keys

theorem getTunnel_without : (db.without key).getTunnel id = db.getTunnel id :=
  rfl

theorem insertTunnel_without (config : TunnelConfig) :
    (db.without key).insertTunnel config = (db.insertTunnel config).map (·.without key) := by
  have hsame : (db.without key).tunnel? = db.tunnel? := rfl
  simp only [insertTunnel, addTunnel, hsame]
  split
  · rfl
  · split <;> rfl

theorem setTunnelEnabled_without (enabled : Bool) :
    (db.without key).setTunnelEnabled id enabled =
      (db.setTunnelEnabled id enabled).map (·.without key) := by
  have hsame : (db.without key).tunnel? = db.tunnel? := rfl
  simp only [setTunnelEnabled, hsame]
  split <;> rfl

theorem deleteTunnel_without :
    (db.without key).deleteTunnel id = (db.deleteTunnel id).map (·.without key) := by
  have hsame : (db.without key).tunnel? = db.tunnel? := rfl
  simp only [deleteTunnel, hsame]
  split
  · rfl
  · simp [without, Except.map, List.filter_filter, Bool.and_comm]

variable {db id key}

theorem putKey_without (hne : id ≠ key) (now : Timestamp) (kind : KeyKind) (contents : Bytes) :
    (db.without key).putKey now id kind contents =
      (db.putKey now id kind contents).without key := by
  simp only [putKey, key?_without, if_neg hne]
  split
  · simp only [without, List.filter_map, comp_replaced _ (· != key)]
  · simp [without, List.filter_append, hne]

theorem without_putKey (now : Timestamp) (kind : KeyKind) (contents : Bytes) :
    (db.putKey now key kind contents).without key = db.without key := by
  unfold putKey
  split
  · simp only [without, List.filter_map, comp_replaced _ (· != key)]
    congr 1
    refine (List.map_congr_left fun k hk => ?_).trans (List.map_id _)
    rw [if_neg (by simpa using (List.mem_filter.mp hk).2)]
    rfl
  · simp [without, List.filter_append]

theorem authorizeKey_without (hne : id ≠ key) (tunnel : Uuid) (kind : TunnelKind) :
    (db.without key).authorizeKey tunnel kind id =
      (db.authorizeKey tunnel kind id).map (·.without key) := by
  have hthere : (db.without key).isAuthorized tunnel id = db.isAuthorized tunnel id := by
    rw [Bool.eq_iff_iff]
    simp only [isAuthorized, without, List.any_filter, List.any_eq_true, Bool.and_eq_true,
      beq_iff_eq, bne_iff_ne]
    refine exists_congr fun a => and_congr_right fun _ => and_iff_right_of_imp ?_
    rintro ⟨-, rfl⟩
    exact hne
  have hsame : (db.without key).tunnel? = db.tunnel? := rfl
  simp only [authorizeKey, hthere, hsame, key?_without, if_neg hne]
  split
  · rfl
  · split
    · rfl
    · simp [without, Except.map, List.filter_append, hne]

theorem without_authorizeKey {tunnel : Uuid} {kind : TunnelKind} {db' : Database}
    (h : db.authorizeKey tunnel kind key = .ok db') : db'.without key = db.without key := by
  rcases authorizeKey_ok h with ⟨-, rfl⟩ | ⟨-, -, -, rfl⟩
  · rfl
  · simp [without, List.filter_append]

end SshTunnels.Database
