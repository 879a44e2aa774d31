import Mathlib.Data.List.Nodup
import SshTunnels.Proofs.Histories
import SshTunnels.Proofs.Store.Changes
import SshTunnels.Proofs.Time.StoredOrder

/-!
# Authorizations

Which keys a tunnel has after requests to the store in any order. A tunnel and a key have one
authorization at most, of one kind: the kind under which the key was first authorized since the two
were last parted (`PairsRecorded.kinds`). Authorizing the key again under another kind, as one may
after the tunnel's kind changed, succeeds and changes nothing, so the key is not listed under that
kind. Keys are listed by their age, since stored times are in the order of their texts.
-/

namespace SshTunnels

/-- The clock's reading when a key is stored. -/
def StoreEvent.reading? : StoreEvent → Option Timestamp
  | .putKey now _ _ _ => some now
  | _ => none

/-! ## Single tables -/

namespace Database

variable {db : Database} {tunnel key : Uuid} {kind : TunnelKind}

theorem isAuthorized_iff : db.isAuthorized tunnel key = true ↔
    ∃ kind, (⟨tunnel, kind, key⟩ : Authorization) ∈ db.authorizations := by
  simp only [isAuthorized, List.any_eq_true, Bool.and_eq_true, beq_iff_eq]
  constructor
  · rintro ⟨⟨t, kind, k⟩, hmem, rfl, rfl⟩
    exact ⟨kind, hmem⟩
  · rintro ⟨kind, hmem⟩
    exact ⟨_, hmem, rfl, rfl⟩

theorem key?_eq_some {k : StoredKey} (h : db.key? key = some k) : k ∈ db.keys ∧ k.id = key := by
  unfold key? at h
  exact ⟨List.mem_of_find?_eq_some h, by simpa using List.find?_some h⟩

theorem keyLe_iff {a b : StoredKey} : keyLe a b = true ↔
    a.createdAt < b.createdAt ∨ a.createdAt = b.createdAt ∧ a.id.toNat ≤ b.id.toNat := by
  simp [keyLe, Uuid.le]

theorem keyLe_trans (a b c : StoredKey) (hab : keyLe a b = true) (hbc : keyLe b c = true) :
    keyLe a c = true := by
  rw [keyLe_iff] at *
  rcases hab with hab | ⟨hab, hid⟩
  · rcases hbc with hbc | ⟨hbc, -⟩
    · exact .inl (String.lt_trans hab hbc)
    · exact .inl (hbc ▸ hab)
  · rcases hbc with hbc | ⟨hbc, hid'⟩
    · exact .inl (hab ▸ hbc)
    · exact .inr ⟨hab.trans hbc, Nat.le_trans hid hid'⟩

theorem keyLe_total (a b : StoredKey) : (keyLe a b || keyLe b a) = true := by
  rw [Bool.or_eq_true, keyLe_iff, keyLe_iff]
  rcases lt_trichotomy a.createdAt b.createdAt with hlt | heq | hgt
  · exact .inl (.inl hlt)
  · rcases Nat.le_total a.id.toNat b.id.toNat with hle | hle
    · exact .inl (.inr ⟨heq, hle⟩)
    · exact .inr (.inr ⟨heq.symm, hle⟩)
  · exact .inr (.inl hgt)

/-- The keys that are authorized for a tunnel of this kind. -/
def authorizedKeys (db : Database) (tunnel : Uuid) (kind : TunnelKind) : List StoredKey :=
  (db.authorizations.filter fun a => a.tunnel == tunnel && a.kind == kind).filterMap
    fun a => db.key? a.key

theorem mem_authorizedKeys {k : StoredKey} : k ∈ db.authorizedKeys tunnel kind ↔
    ⟨tunnel, kind, k.id⟩ ∈ db.authorizations ∧ db.key? k.id = some k := by
  simp only [authorizedKeys, List.mem_filterMap, List.mem_filter, Bool.and_eq_true, beq_iff_eq]
  constructor
  · rintro ⟨⟨t, kind', key⟩, ⟨hmem, rfl, rfl⟩, hkey⟩
    obtain ⟨-, rfl⟩ := key?_eq_some hkey
    exact ⟨hmem, hkey⟩
  · rintro ⟨hmem, hkey⟩
    exact ⟨_, ⟨hmem, rfl, rfl⟩, hkey⟩

/-- A tunnel lists the keys that are authorized for it under its kind and are there. -/
theorem mem_tunnelKeys : key ∈ db.tunnelKeys tunnel kind ↔
    ⟨tunnel, kind, key⟩ ∈ db.authorizations ∧ (db.key? key).isSome = true := by
  rw [tunnelKeys, ← authorizedKeys]
  simp only [List.mem_map, List.mem_mergeSort, mem_authorizedKeys, Option.isSome_iff_exists]
  constructor
  · rintro ⟨k, ⟨hmem, hk⟩, rfl⟩
    exact ⟨hmem, k, hk⟩
  · rintro ⟨hmem, k, hk⟩
    obtain ⟨-, rfl⟩ := key?_eq_some hk
    exact ⟨k, ⟨hmem, hk⟩, rfl⟩

/-- If no pair of a tunnel and a key is authorized twice, no key of a tunnel is found twice. -/
theorem nodup_authorizedKeys (once : (db.authorizations.map fun a => (a.tunnel, a.key)).Nodup)
    (tunnel : Uuid) (kind : TunnelKind) :
    (db.authorizedKeys tunnel kind).Pairwise fun a b => a.id ≠ b.id := by
  rw [authorizedKeys, List.pairwise_filterMap]
  have hpairs := (List.pairwise_map.mp once).filter fun a => a.tunnel == tunnel && a.kind == kind
  refine hpairs.imp_of_mem fun {a b} ha hb hne k hk k' hk' heq => hne ?_
  simp only [List.mem_filter, Bool.and_eq_true, beq_iff_eq] at ha hb
  obtain ⟨-, hid⟩ := key?_eq_some hk
  obtain ⟨-, hid'⟩ := key?_eq_some hk'
  rw [ha.2.1, hb.2.1, ← hid, ← hid', heq]

theorem nodup_tunnelKeys (once : (db.authorizations.map fun a => (a.tunnel, a.key)).Nodup)
    (tunnel : Uuid) (kind : TunnelKind) : (db.tunnelKeys tunnel kind).Nodup :=
  List.pairwise_map.mpr
    ((List.mergeSort_perm _ _).symm.pairwise (nodup_authorizedKeys once tunnel kind) Ne.symm)

/-- Then the keys of a tunnel are listed by their stored creation times, and of keys of one time the
one with the smaller identifier comes first. -/
theorem sorted_authorizedKeys (once : (db.authorizations.map fun a => (a.tunnel, a.key)).Nodup)
    (tunnel : Uuid) (kind : TunnelKind) :
    ((db.authorizedKeys tunnel kind).mergeSort keyLe).Pairwise fun a b =>
      a.createdAt < b.createdAt ∨ a.createdAt = b.createdAt ∧ a.id.toNat < b.id.toNat := by
  have hdistinct := List.pairwise_map.mp (nodup_tunnelKeys once tunnel kind)
  have hsorted := List.pairwise_mergeSort keyLe_trans keyLe_total (db.authorizedKeys tunnel kind)
  refine (hsorted.and hdistinct).imp fun {a b} ⟨hle, hne⟩ => ?_
  rw [keyLe_iff] at hle
  refine hle.imp_right fun ⟨heq, hid⟩ => ⟨heq, Nat.lt_of_le_of_ne hid fun hsame => hne ?_⟩
  exact congrArg Uuid.mk (BitVec.eq_of_toNat_eq hsame)

theorem sorted_tunnelKeys (once : (db.authorizations.map fun a => (a.tunnel, a.key)).Nodup)
    (tunnel : Uuid) (kind : TunnelKind) :
    (db.tunnelKeys tunnel kind).Pairwise fun a b => ∀ k k', db.key? a = some k →
      db.key? b = some k' →
      k.createdAt < k'.createdAt ∨ k.createdAt = k'.createdAt ∧ k.id.toNat < k'.id.toNat := by
  rw [tunnelKeys, ← authorizedKeys, List.pairwise_map]
  have hsorted := sorted_authorizedKeys once tunnel kind
  refine hsorted.imp_of_mem fun {a b} ha hb hle k k' hk hk' => ?_
  rw [List.mem_mergeSort, mem_authorizedKeys] at ha hb
  rw [ha.2] at hk
  rw [hb.2] at hk'
  cases hk
  cases hk'
  exact hle

end Database

namespace Store

variable {h : StoreHistory} {s : Store} {db db' : Database} {tunnel key : Uuid} {kind : TunnelKind}

/-! ## What a history says -/

/-- The request parts the key from the tunnel: the authorization is taken back, or the key or the
tunnel goes. -/
def parts (tunnel key : Uuid) : StoreEvent × StoreReply → Bool
  | (.revokeKey t k, .ok _) => t == tunnel && k == key
  | (.deleteKey k, .ok _) => k == key
  | (.deleteTunnel t, .ok _) => t == tunnel
  | _ => false

/-- The kind under which the request authorizes the key for the tunnel. -/
def grants? (tunnel key : Uuid) : StoreEvent × StoreReply → Option TunnelKind
  | (.authorizeKey t kind k, .ok _) => if t = tunnel ∧ k = key then some kind else none
  | _ => none

/-- The kinds under which the key was authorized for the tunnel since the two were parted, the latest
first. -/
def kindsGranted (tunnel key : Uuid) : StoreHistory → List TunnelKind
  | [] => []
  | x :: h =>
    if parts tunnel key x then [] else (grants? tunnel key x).toList ++ kindsGranted tunnel key h

/-- The key was authorized for the tunnel under this kind, and the two were not parted since. -/
def Authorized (h : StoreHistory) (tunnel : Uuid) (kind : TunnelKind) (key : Uuid) : Prop :=
  ∃ since before, h = since ++ (.authorizeKey tunnel kind key, .ok ()) :: before ∧
    ∀ x ∈ since, parts tunnel key x = false

theorem authorized_cons {x : StoreEvent × StoreReply} : Authorized (x :: h) tunnel kind key ↔
    x = (.authorizeKey tunnel kind key, .ok ()) ∨
      Authorized h tunnel kind key ∧ parts tunnel key x = false :=
  exists_since_cons

theorem grants?_eq_some {x : StoreEvent × StoreReply} :
    grants? tunnel key x = some kind ↔ x = (.authorizeKey tunnel kind key, .ok ()) := by
  constructor
  · intro hx
    unfold grants? at hx
    split at hx
    · next t k _ =>
      split at hx
      · next heq =>
        cases hx
        rw [heq.1, heq.2]
      · cases hx
    · cases hx
  · rintro rfl
    simp [grants?]

theorem mem_kindsGranted : kind ∈ kindsGranted tunnel key h ↔ Authorized h tunnel kind key := by
  induction h with
  | nil => exact iff_of_false List.not_mem_nil not_exists_since_nil
  | cons x h ih =>
    rw [authorized_cons, kindsGranted]
    by_cases hparts : parts tunnel key x = true
    · rw [if_pos hparts]
      refine iff_of_false List.not_mem_nil ?_
      rintro (rfl | ⟨-, hnot⟩)
      · cases hparts
      · rw [hparts] at hnot
        cases hnot
    · rw [if_neg hparts, List.mem_append, Option.mem_toList, grants?_eq_some, ih]
      simp [hparts]

theorem kindsGranted_authorize (t k : Uuid) :
    kindsGranted t k ((.authorizeKey tunnel kind key, .ok ()) :: h) =
      (if tunnel = t ∧ key = k then [kind] else []) ++ kindsGranted t k h := by
  have hparts : parts t k (.authorizeKey tunnel kind key, .ok ()) = false := rfl
  have hgrants : grants? t k (.authorizeKey tunnel kind key, .ok ()) =
      if tunnel = t ∧ key = k then some kind else none := rfl
  rw [kindsGranted, hparts, if_neg Bool.false_ne_true, hgrants]
  split <;> rfl

/-- The time at which a key was stored that has not been deleted since. -/
def birth (key : Uuid) : StoreHistory → Option Timestamp
  | [] => none
  | (.putKey now id _ _, .ok _) :: h =>
    if id = key then (birth key h).or (some now) else birth key h
  | (.deleteKey id, .ok _) :: h => if id = key then none else birth key h
  | _ :: h => birth key h

/-- The clock shows years of four digits, and no leap seconds. -/
def Timely (h : StoreHistory) : Prop :=
  ∀ x ∈ h, ∀ now ∈ x.1.reading?, now.Plain

instance : Decidable (Timely h) :=
  inferInstanceAs (Decidable (∀ x ∈ h, ∀ now ∈ x.1.reading?, now.Plain))

/-- The first key was stored before the second, or at the same time and has the smaller
identifier. -/
def Older (h : StoreHistory) (a b : Uuid) : Prop :=
  ∃ t u, birth a h = some t ∧ birth b h = some u ∧ (t.Before u ∨ t = u ∧ a.toNat < b.toNat)

theorem Timely.birth (hclock : Timely h) {t : Timestamp} (ht : birth key h = some t) :
    t.Plain := by
  induction h with
  | nil => cases ht
  | cons x h ih =>
    obtain ⟨hx, hrest⟩ : (∀ now ∈ x.1.reading?, now.Plain) ∧ Timely h :=
      List.forall_mem_cons.mp hclock
    unfold Store.birth at ht
    split at ht
    · next heq => cases heq
    · next now id _ _ _ _ heq =>
      cases heq
      split at ht
      · rw [Option.or_eq_some_iff] at ht
        rcases ht with hold | ⟨-, hnow⟩
        · exact ih hrest hold
        · cases hnow
          exact hx _ rfl
      · exact ih hrest ht
    · next heq =>
      cases heq
      split at ht
      · cases ht
      · exact ih hrest ht
    · next heq =>
      cases heq
      exact ih hrest ht

/-- A key stays stored until a request parts it from all tunnels. -/
theorem isSome_birth_cons {x : StoreEvent × StoreReply} (tunnel : Uuid) (hb : (birth key h).isSome = true)
    (hx : parts tunnel key x = false) : (birth key (x :: h)).isSome = true := by
  unfold birth
  split
  · next heq =>
    cases heq
  · next heq =>
    cases heq
    split
    · rw [Option.isSome_or, hb, Bool.true_or]
    · exact hb
  · next heq =>
    cases heq
    rw [if_neg (by simpa [parts] using hx)]
    exact hb
  · next heq =>
    cases heq
    exact hb

/-! ## What the tables record -/

/-- The keys that are stored, with the times at which they were. -/
structure KeysRecorded (h : StoreHistory) (db : Database) : Prop where
  once : (db.keys.map (·.id)).Nodup
  births : ∀ key, (db.key? key).map (·.createdAt) = (birth key h).map (·.stored)

/-- A change that is not about keys. -/
theorem KeysRecorded.of_same (hr : KeysRecorded h db) {x : StoreEvent × StoreReply}
    (hk : db'.keys = db.keys) (hx : ∀ key, birth key (x :: h) = birth key h) :
    KeysRecorded (x :: h) db' where
  once := hk ▸ hr.once
  births key := by
    rw [hx, Database.key?, hk]
    exact hr.births key

theorem KeysRecorded.isSome_birth (hr : KeysRecorded h db) (key : Uuid) :
    (birth key h).isSome = (db.key? key).isSome := by
  simpa using (congrArg Option.isSome (hr.births key)).symm

theorem KeysRecorded.exists_birth (hr : KeysRecorded h db) {k : StoredKey}
    (hk : db.key? k.id = some k) : ∃ t, birth k.id h = some t ∧ k.createdAt = t.stored := by
  have hb := hr.births k.id
  rw [hk, Option.map_some, eq_comm, Option.map_eq_some_iff] at hb
  obtain ⟨t, ht, heq⟩ := hb
  exact ⟨t, ht, heq.symm⟩

theorem KeysRecorded.replaced (hr : KeysRecorded h db) {now : Timestamp} {id : Uuid}
    {kind : KeyKind} {contents : Bytes} (hid : (db.key? id).isSome = true)
    (hk : db'.keys = db.keys.map fun k => if k.id == id then { k with kind, contents } else k) :
    KeysRecorded ((.putKey now id kind contents, .ok ()) :: h) db' where
  once := by
    have hids : db'.keys.map (·.id) = db.keys.map (·.id) := by
      rw [hk, List.map_map]
      refine List.map_congr_left fun k _ => ?_
      simp only [Function.comp_apply]
      split <;> rfl
    rw [hids]
    exact hr.once
  births key := by
    have hkey : (db'.key? key).map (·.createdAt) = (db.key? key).map (·.createdAt) := by
      have hfind : ((fun k : StoredKey => k.id == key) ∘
          fun k => if k.id == id then { k with kind, contents } else k) = fun k => k.id == key := by
        funext k
        simp only [Function.comp_apply]
        split <;> rfl
      rw [Database.key?, hk, List.find?_map, hfind, Option.map_map, Database.key?]
      refine Option.map_congr fun k _ => ?_
      simp only [Function.comp_apply]
      split <;> rfl
    rw [hkey, hr.births, birth]
    split
    · next heq =>
      rw [heq, ← hr.isSome_birth, Option.isSome_iff_exists] at hid
      obtain ⟨t, ht⟩ := hid
      rw [ht, Option.some_or]
    · rfl

theorem KeysRecorded.added (hr : KeysRecorded h db) {now : Timestamp} {id : Uuid}
    {kind : KeyKind} {contents : Bytes} (hid : db.key? id = none)
    (hk : db'.keys = db.keys ++ [⟨id, kind, contents, now.stored⟩]) :
    KeysRecorded ((.putKey now id kind contents, .ok ()) :: h) db' where
  once := by
    rw [hk, List.map_append]
    refine List.nodup_append.mpr ⟨hr.once, List.nodup_singleton _, ?_⟩
    rintro _ hmem _ hnew rfl
    obtain ⟨k, hold, heq⟩ := List.mem_map.mp hmem
    have hsame : k.id = id := heq.trans (List.mem_singleton.mp hnew)
    simpa [hsame] using List.find?_eq_none.mp hid k hold
  births key := by
    rw [Database.key?, hk, List.find?_append, ← Database.key?, birth]
    by_cases heq : id = key
    · subst heq
      have hnone := hr.isSome_birth id
      rw [hid, Option.isSome_none, Option.isSome_eq_false_iff, Option.isNone_iff_eq_none] at hnone
      simp [hid, hnone]
    · simp [heq, hr.births]

theorem KeysRecorded.deleted (hr : KeysRecorded h db) {id : Uuid}
    (hk : db'.keys = db.keys.filter (·.id != id)) :
    KeysRecorded ((.deleteKey id, .ok ()) :: h) db' where
  once := by
    rw [hk]
    exact hr.once.sublist (List.filter_sublist.map _)
  births key := by
    rw [Database.key?, hk, List.find?_filter, birth]
    by_cases heq : id = key
    · rw [if_pos heq, List.find?_eq_none.mpr]
      · rfl
      · rintro k -
        simp [heq]
    · rw [if_neg heq, ← hr.births, Database.key?]
      congr 2
      funext k
      by_cases hkey : k.id = key
      · simp [hkey, Ne.symm heq]
      · simp [hkey]

/-- The authorizations: one at most of a tunnel and a key, of a key that is stored and of the kind
under which it was first authorized. -/
structure PairsRecorded (h : StoreHistory) (db : Database) : Prop where
  once : (db.authorizations.map fun a => (a.tunnel, a.key)).Nodup
  known : ∀ a ∈ db.authorizations, (birth a.key h).isSome = true
  kinds : ∀ tunnel kind key, ⟨tunnel, kind, key⟩ ∈ db.authorizations ↔
    (kindsGranted tunnel key h).getLast? = some kind

/-- A request that authorizes nothing. -/
theorem PairsRecorded.parted (hr : PairsRecorded h db) {x : StoreEvent × StoreReply}
    (hx : ∀ tunnel key, grants? tunnel key x = none)
    (ha : db'.authorizations = db.authorizations.filter fun a => !parts a.tunnel a.key x) :
    PairsRecorded (x :: h) db' where
  once := by
    rw [ha]
    exact hr.once.sublist (List.filter_sublist.map _)
  known a hmem := by
    rw [ha, List.mem_filter, Bool.not_eq_true'] at hmem
    exact isSome_birth_cons a.tunnel (hr.known a hmem.1) hmem.2
  kinds tunnel kind key := by
    rw [ha, List.mem_filter, hr.kinds, kindsGranted, hx]
    by_cases hparts : parts tunnel key x = true
    · simp [hparts]
    · simp [hparts]

/-- A request that parts nothing and authorizes nothing. -/
theorem PairsRecorded.of_same (hr : PairsRecorded h db) {x : StoreEvent × StoreReply}
    (hx : ∀ tunnel key, parts tunnel key x = false ∧ grants? tunnel key x = none)
    (ha : db'.authorizations = db.authorizations) : PairsRecorded (x :: h) db' := by
  refine hr.parted (fun tunnel key => (hx tunnel key).2) ?_
  rw [ha, List.filter_eq_self.mpr]
  intro a _
  rw [(hx a.tunnel a.key).1, Bool.not_false]

/-- A key that is authorized already keeps its kind. -/
theorem PairsRecorded.authorizedBefore (hr : PairsRecorded h db)
    (hthere : db.isAuthorized tunnel key = true) :
    PairsRecorded ((.authorizeKey tunnel kind key, .ok ()) :: h) db where
  once := hr.once
  known a hmem := isSome_birth_cons a.tunnel (hr.known a hmem) rfl
  kinds t k' k := by
    rw [hr.kinds, kindsGranted_authorize]
    by_cases heq : tunnel = t ∧ key = k
    · -- the kind that is on record was granted before this one, and stays
      obtain ⟨rfl, rfl⟩ := heq
      obtain ⟨first, hfirst⟩ := Database.isAuthorized_iff.mp hthere
      rw [hr.kinds] at hfirst
      rw [List.getLast?_append, hfirst, Option.some_or]
    · rw [if_neg heq, List.nil_append]

/-- A key that is not authorized yet is, under this kind. -/
theorem PairsRecorded.authorized (hr : PairsRecorded h db) (hk : KeysRecorded h db)
    (hfree : db.isAuthorized tunnel key = false) (hkey : (db.key? key).isSome = true)
    (ha : db'.authorizations = db.authorizations ++ [⟨tunnel, kind, key⟩]) :
    PairsRecorded ((.authorizeKey tunnel kind key, .ok ()) :: h) db' where
  once := by
    rw [ha, List.map_append]
    refine List.nodup_append.mpr ⟨hr.once, List.nodup_singleton _, ?_⟩
    rintro _ hmem _ hnew rfl
    obtain ⟨⟨t, k', k⟩, hold, heq⟩ := List.mem_map.mp hmem
    cases heq.trans (List.mem_singleton.mp hnew)
    rw [Database.isAuthorized_iff.mpr ⟨k', hold⟩] at hfree
    cases hfree
  known a hmem := by
    rw [ha, List.mem_append, List.mem_singleton] at hmem
    rcases hmem with hold | rfl
    · exact isSome_birth_cons a.tunnel (hr.known a hold) rfl
    · exact (hk.isSome_birth key).trans hkey
  kinds t k' k := by
    rw [ha, List.mem_append, hr.kinds, kindsGranted_authorize, List.mem_singleton]
    by_cases heq : tunnel = t ∧ key = k
    · obtain ⟨rfl, rfl⟩ := heq
      -- the two were parted, so this is the first kind
      have hnone : kindsGranted tunnel key h = [] := by
        rw [← List.getLast?_eq_none_iff]
        cases hlast : (kindsGranted tunnel key h).getLast? with
        | none => rfl
        | some first =>
          rw [Database.isAuthorized_iff.mpr ⟨first, (hr.kinds _ _ _).mpr hlast⟩] at hfree
          cases hfree
      simp [hnone, eq_comm]
    · have hne : (⟨t, k', k⟩ : Authorization) ≠ ⟨tunnel, kind, key⟩ := by
        rintro ⟨⟩
        exact heq ⟨rfl, rfl⟩
      simp [heq, hne]

/-- What the tables record of a history. -/
structure Recorded (h : StoreHistory) (db : Database) : Prop where
  keys : KeysRecorded h db
  pairs : PairsRecorded h db

theorem recorded_start : Recorded [] {} where
  keys := ⟨List.nodup_nil, fun _ => rfl⟩
  pairs := ⟨List.nodup_nil, nofun, fun _ _ _ => iff_of_false List.not_mem_nil nofun⟩

theorem Recorded.failed (hr : Recorded h db) (event : StoreEvent) (e : StoreError) :
    Recorded ((event, .error e) :: h) db where
  keys := hr.keys.of_same rfl fun _ => by cases event <;> rfl
  pairs := hr.pairs.of_same (fun _ _ => by cases event <;> exact ⟨rfl, rfl⟩) rfl

theorem Recorded.done {event : StoreEvent} (hc : Database.Change db event db')
    (hr : Recorded h db) : Recorded ((event, .ok ()) :: h) db' := by
  cases hc with
  | inserted _ _ =>
    exact ⟨hr.keys.of_same rfl fun _ => rfl, hr.pairs.of_same (fun _ _ => ⟨rfl, rfl⟩) rfl⟩
  | updated _ _ =>
    exact ⟨hr.keys.of_same rfl fun _ => rfl, hr.pairs.of_same (fun _ _ => ⟨rfl, rfl⟩) rfl⟩
  | enabled _ =>
    exact ⟨hr.keys.of_same rfl fun _ => rfl, hr.pairs.of_same (fun _ _ => ⟨rfl, rfl⟩) rfl⟩
  | tunnelDeleted _ =>
    refine ⟨hr.keys.of_same rfl fun _ => rfl, hr.pairs.parted (fun _ _ => rfl) ?_⟩
    exact List.filter_congr fun a _ => by simp [parts, bne, eq_comm]
  | keyReplaced hid =>
    exact ⟨hr.keys.replaced hid rfl, hr.pairs.of_same (fun _ _ => ⟨rfl, rfl⟩) rfl⟩
  | keyAdded hid =>
    exact ⟨hr.keys.added hid rfl, hr.pairs.of_same (fun _ _ => ⟨rfl, rfl⟩) rfl⟩
  | keyDeleted _ =>
    refine ⟨hr.keys.deleted rfl, hr.pairs.parted (fun _ _ => rfl) ?_⟩
    exact List.filter_congr fun a _ => by simp [parts, bne, eq_comm]
  | authorizedBefore hthere =>
    exact ⟨hr.keys.of_same rfl fun _ => rfl, hr.pairs.authorizedBefore hthere⟩
  | authorized hfree _ hkey =>
    exact ⟨hr.keys.of_same rfl fun _ => rfl, hr.pairs.authorized hr.keys hfree hkey rfl⟩
  | revoked =>
    refine ⟨hr.keys.of_same rfl fun _ => rfl, hr.pairs.parted (fun _ _ => rfl) ?_⟩
    refine List.filter_congr fun a _ => ?_
    rw [parts, Bool.beq_comm, Bool.beq_comm (a := a.key)]

/-- The tables record what the history says, at every moment of every run. -/
theorem Run.recorded (hr : Run h s) : Recorded h s.database :=
  hr.induct recorded_start (fun event e hold => hold.failed event e) Recorded.done

/-! ## What is listed -/

/-- A tunnel lists the keys whose first kind is the one that is asked for. -/
theorem Recorded.mem_tunnelKeys (hr : Recorded h db) : key ∈ db.tunnelKeys tunnel kind ↔
    (kindsGranted tunnel key h).getLast? = some kind := by
  rw [Database.mem_tunnelKeys, ← hr.pairs.kinds]
  refine and_iff_left_of_imp fun hmem => ?_
  rw [← hr.keys.isSome_birth]
  exact hr.pairs.known _ hmem

/-- Keys are listed in the order of their creation, and of keys of one time the one with the smaller
identifier comes first. -/
theorem Recorded.sorted_tunnelKeys (hr : Recorded h db) (hclock : Timely h) (tunnel : Uuid)
    (kind : TunnelKind) : (db.tunnelKeys tunnel kind).Pairwise (Older h) := by
  rw [Database.tunnelKeys, ← Database.authorizedKeys, List.pairwise_map]
  have hsorted := Database.sorted_authorizedKeys hr.pairs.once tunnel kind
  refine hsorted.imp_of_mem fun {a b} ha hb hle => ?_
  rw [List.mem_mergeSort, Database.mem_authorizedKeys] at ha hb
  obtain ⟨t, ht, hat⟩ := hr.keys.exists_birth ha.2
  obtain ⟨u, hu, hbu⟩ := hr.keys.exists_birth hb.2
  refine ⟨t, u, ht, hu, ?_⟩
  rw [hat, hbu] at hle
  -- the stored texts are in the order of the times
  rcases hle with hlt | ⟨heq, hid⟩
  · exact .inl ((Timestamp.stored_lt_iff (hclock.birth ht) (hclock.birth hu)).mp hlt)
  · exact .inr ⟨Timestamp.stored_inj (hclock.birth ht) (hclock.birth hu) heq, hid⟩

/-! ## The law of a history -/

/-- What the store lists after a history. -/
structure Listed (h : StoreHistory) (db : Database) : Prop where
  /-- No key is listed twice. -/
  once : ∀ tunnel kind, (db.tunnelKeys tunnel kind).Nodup
  /-- Keys are listed in the order of their creation. -/
  sorted : Timely h → ∀ tunnel kind, (db.tunnelKeys tunnel kind).Pairwise (Older h)
  /-- A key is listed under the kind under which it was first authorized since it was last parted
  from the tunnel. -/
  listed : ∀ tunnel kind key, key ∈ db.tunnelKeys tunnel kind ↔
    (kindsGranted tunnel key h).getLast? = some kind
  /-- So it is listed exactly under the kinds that it was authorized under, if these are not two. -/
  exact : ∀ tunnel key,
    (∀ kind, key ∈ db.tunnelKeys tunnel kind ↔ Authorized h tunnel kind key) ↔
      ∀ kind kind', Authorized h tunnel kind key → Authorized h tunnel kind' key → kind = kind'

theorem Recorded.exact_iff (hr : Recorded h db) (tunnel key : Uuid) :
    (∀ kind, key ∈ db.tunnelKeys tunnel kind ↔ Authorized h tunnel kind key) ↔
      ∀ kind kind', Authorized h tunnel kind key → Authorized h tunnel kind' key →
        kind = kind' := by
  simp only [hr.mem_tunnelKeys, ← mem_kindsGranted]
  constructor
  · intro hexact kind kind' hk hk'
    exact Option.some.inj (((hexact kind).mpr hk).symm.trans ((hexact kind').mpr hk'))
  · intro hagree kind
    refine ⟨List.mem_of_getLast?, fun hmem => ?_⟩
    cases hlast : (kindsGranted tunnel key h).getLast? with
    | none =>
      rw [List.getLast?_eq_none_iff.mp hlast] at hmem
      cases hmem
    | some first => rw [hagree first kind (List.mem_of_getLast? hlast) hmem]

/-- The store lists keys by this law after every history. -/
theorem listed_of_run (hr : Run h s) : Listed h s.database where
  once := Database.nodup_tunnelKeys hr.recorded.pairs.once
  sorted := hr.recorded.sorted_tunnelKeys
  listed _ _ _ := hr.recorded.mem_tunnelKeys
  exact := hr.recorded.exact_iff

/-- Two keys are authorized for a tunnel, the younger one first: both are listed. -/
theorem both_keys_listed :
    ∃ h s, Run h s ∧ Timely h ∧ Listed h s.database ∧ Older h (.ofNat 8) (.ofNat 7) ∧
      .ofNat 7 ∈ s.database.tunnelKeys (.ofNat 1) .reverse ∧
      .ofNat 8 ∈ s.database.tunnelKeys (.ofNat 1) .reverse := by
  have h₁ := Run.start.next (.insertTunnel (.reverse ⟨.ofNat 1, ⟨0, 0⟩, true, 4000⟩))
  have h₂ := h₁.next (.putKey ⟨0, 0⟩ (.ofNat 8) .publicKey [1])
  have h₃ := h₂.next (.putKey ⟨60, 0⟩ (.ofNat 7) .publicKey [2])
  have h₄ := h₃.next (.authorizeKey (.ofNat 1) .reverse (.ofNat 7))
  have h₅ := h₄.next (.authorizeKey (.ofNat 1) .reverse (.ofNat 8))
  have hl := listed_of_run h₅
  refine ⟨_, _, h₅, ?_, hl, ⟨⟨0, 0⟩, ⟨60, 0⟩, ?_, ?_, .inl (.inl ?_)⟩, (hl.listed _ _ _).mpr ?_,
    (hl.listed _ _ _).mpr ?_⟩
  · decide +kernel
  · decide +kernel
  · decide +kernel
  · decide +kernel
  · decide +kernel
  · decide +kernel

/-- A key is authorized for a reverse tunnel, the tunnel becomes a standard one, and the key is
authorized for it again: the store says that this is done, and does not list the key. -/
theorem authorized_key_unlisted :
    ∃ h s, Run h s ∧ Authorized h (.ofNat 1) .standard (.ofNat 7) ∧
      s.database.tunnelKeys (.ofNat 1) .standard = [] := by
  have h₁ := Run.start.next (.insertTunnel (.reverse ⟨.ofNat 1, ⟨0, 0⟩, true, 4000⟩))
  have h₂ := h₁.next (.putKey ⟨0, 0⟩ (.ofNat 7) .publicKey [1])
  have h₃ := h₂.next (.authorizeKey (.ofNat 1) .reverse (.ofNat 7))
  have h₄ := h₃.next (.updateTunnel
    (.standard ⟨.ofNat 1, ⟨0, 0⟩, true, 4000, none, "bastion", 22, "db", 5432⟩))
  have h₅ := h₄.next (.authorizeKey (.ofNat 1) .standard (.ofNat 7))
  refine ⟨_, _, h₅, mem_kindsGranted.mp ?_, ?_⟩
  · decide +kernel
  · decide +kernel

end Store
end SshTunnels
