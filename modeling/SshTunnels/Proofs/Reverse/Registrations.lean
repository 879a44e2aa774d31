import Mathlib.Data.List.Nodup
import Mathlib.Data.List.Sort
import SshTunnels.Proofs.Histories
import SshTunnels.Reverse.Registry

/-!
# Registrations

What a registry holds after tunnels were registered and taken out and registrations taken back, in
any order. Three facts carry the rest: no tunnel and no port comes twice (`Sound`), every number
given out belongs to one registration, which is either there or has ended (`Sound.numbers`), and
the entries are the registrations that nothing has ended since they were made (`Run.present`).

So a registration that is replaced is over, and taking it back later does not touch its successor;
and what the registry answers does not depend on the order in which it lists its entries.
-/

namespace SshTunnels

/-- What is done to a registry. -/
inductive RegistryEvent where
  | register (tunnel : RegisteredTunnel)
  | deregister (id : Uuid)
  | release (registration : Registration)
  deriving DecidableEq, Repr

/-- What a registry answers. -/
inductive RegistryReply where
  | done
  | registered (registration : Registration)
  | refused (error : TunnelError)
  deriving DecidableEq, Repr

/-- What has been done to a registry, each event with its reply, the latest first. -/
abbrev RegistryHistory := List (RegistryEvent × RegistryReply)

/-- The registration that made an entry. -/
def RegistryEntry.registration (e : RegistryEntry) : Registration :=
  ⟨e.tunnel.id, e.serial⟩

namespace Registry

variable {r r' : Registry} {t : RegisteredTunnel} {g : Registration} {e : RegistryEntry}

/-! ## Single operations -/

theorem mem_removeIf {gone : RegistryEntry → Bool} :
    e ∈ (r.removeIf gone).entries ↔ e ∈ r.entries ∧ gone e = false := by
  simp [removeIf]

/-- The registry once a tunnel is registered. -/
def enroll (r : Registry) (t : RegisteredTunnel) : Registry :=
  { r.removeIf (·.tunnel.id == t.id) with
    entries := (r.removeIf (·.tunnel.id == t.id)).entries ++ [⟨t, r.nextSerial⟩]
    nextSerial := r.nextSerial + 1 }

theorem mem_enroll : e ∈ (r.enroll t).entries ↔
    (e ∈ r.entries ∧ e.tunnel.id ≠ t.id) ∨ e = ⟨t, r.nextSerial⟩ := by
  rw [enroll, List.mem_append, mem_removeIf, beq_eq_false_iff_ne, List.mem_singleton]

/-- Taking back a registration takes out its entry alone. -/
theorem mem_release : e ∈ (r.release g).entries ↔ e ∈ r.entries ∧ e.registration ≠ g := by
  rw [release, mem_removeIf, Bool.and_eq_false_iff, beq_eq_false_iff_ne, beq_eq_false_iff_ne,
    RegistryEntry.registration, ← not_and_or]
  cases g
  rw [ne_eq, Registration.mk.injEq]

/-- A registration that succeeds: no other tunnel held the port. -/
theorem register_ok (h : r.register t = .ok (g, r')) :
    (∀ e ∈ r.entries, e.tunnel.port = t.port → e.tunnel.id = t.id) ∧
      g = ⟨t.id, r.nextSerial⟩ ∧ r' = r.enroll t := by
  unfold register at h
  split at h
  · cases h
  · next hnone =>
    cases h
    refine ⟨fun e he hport => ?_, rfl, rfl⟩
    simpa [hport] using List.find?_eq_none.mp hnone e he

/-- A registration that is refused: the error names a tunnel that holds the port. -/
theorem register_error {err : TunnelError} (h : r.register t = .error err) :
    ∃ e ∈ r.entries, e.tunnel.port = t.port ∧ e.tunnel.id ≠ t.id ∧
      err = .portConflict t.port e.tunnel.id := by
  unfold register at h
  split at h
  · next owner howner =>
    cases h
    have hheld := List.find?_some howner
    simp only [Bool.and_eq_true, beq_iff_eq, bne_iff_ne] at hheld
    exact ⟨owner, List.mem_of_find?_eq_some howner, hheld.1, hheld.2, rfl⟩
  · cases h

/-- A registration takes the place of an earlier one for the same tunnel. -/
theorem entries_of_register (h : r.register t = .ok (g, r')) :
    r'.entries = (r.entries.filter fun e => !(e.tunnel.id == t.id)) ++ [⟨t, r.nextSerial⟩] := by
  obtain ⟨-, -, rfl⟩ := register_ok h
  rfl

/-- The entries after a registration: the new one, and those of other tunnels. -/
theorem mem_entries_of_register (h : r.register t = .ok (g, r')) {e : RegistryEntry}
    (he : e ∈ r'.entries) : e.tunnel = t ∨ e ∈ r.entries ∧ e.tunnel.id ≠ t.id := by
  obtain ⟨-, -, rfl⟩ := register_ok h
  rcases mem_enroll.mp he with hold | rfl
  · exact .inr hold
  · exact .inl rfl

/-! ## No tunnel and no port twice -/

/-- No tunnel is registered twice. -/
def Once (r : Registry) : Prop :=
  (r.entries.map (·.tunnel.id)).Nodup

/-- No port is held twice. -/
def Apart (r : Registry) : Prop :=
  (r.entries.map (·.tunnel.port)).Nodup

theorem Once.register (hr : r.Once) (h : r.register t = .ok (g, r')) : r'.Once := by
  rw [Once, entries_of_register h, List.map_append]
  refine List.nodup_append.mpr ⟨hr.sublist (List.filter_sublist.map _), List.nodup_singleton _, ?_⟩
  intro id hid id' hid' heq
  obtain ⟨e, he, rfl⟩ := List.mem_map.mp hid
  have hne := (List.mem_filter.mp he).2
  rw [Bool.not_eq_true', beq_eq_false_iff_ne] at hne
  exact hne (heq.trans (List.mem_singleton.mp hid'))

theorem Once.eq_of_id (hr : r.Once) {e e' : RegistryEntry} (he : e ∈ r.entries)
    (he' : e' ∈ r.entries) (h : e.tunnel.id = e'.tunnel.id) : e = e' :=
  List.inj_on_of_nodup_map hr he he' h

/-- With no tunnel registered twice, an entry is found under the identifier that it has. -/
theorem Once.find?_eq_some_iff (hr : r.Once) (he : e ∈ r.entries) {id : Uuid} :
    r.entries.find? (·.tunnel.id == id) = some e ↔ e.tunnel.id = id := by
  constructor
  · intro h
    simpa using List.find?_some h
  · rintro rfl
    cases hf : r.entries.find? (·.tunnel.id == e.tunnel.id) with
    | none => simpa using List.find?_eq_none.mp hf e he
    | some e' =>
      have hid : e'.tunnel.id = e.tunnel.id := by simpa using List.find?_some hf
      rw [hr.eq_of_id (List.mem_of_find?_eq_some hf) he hid]

theorem Apart.register (hr : r.Apart) (h : r.register t = .ok (g, r')) : r'.Apart := by
  rw [Apart, entries_of_register h, List.map_append]
  refine List.nodup_append.mpr ⟨hr.sublist (List.filter_sublist.map _), List.nodup_singleton _, ?_⟩
  intro port hport port' hport' heq
  obtain ⟨e, he, rfl⟩ := List.mem_map.mp hport
  obtain ⟨hmem, hne⟩ := List.mem_filter.mp he
  -- another entry with the new tunnel's port would have been a conflict
  have hid := (register_ok h).1 e hmem (heq.trans (List.mem_singleton.mp hport'))
  simp [hid] at hne

theorem Apart.eq_of_port (hr : r.Apart) {e e' : RegistryEntry} (he : e ∈ r.entries)
    (he' : e' ∈ r.entries) (h : e.tunnel.port = e'.tunnel.port) : e = e' :=
  List.inj_on_of_nodup_map hr he he' h

/-! ## What a registry answers -/

theorem holder?_eq_some {port : UInt16} {e : RegistryEntry} (h : r.holder? port = some e) :
    e ∈ r.entries ∧ e.tunnel.port = port := by
  unfold holder? at h
  have hport := List.find?_some h
  exact ⟨List.mem_of_find?_eq_some h, beq_iff_eq.mp hport⟩

/-- With no port held twice, the holder of a port is the entry with this port. -/
theorem Apart.holder?_eq_some_iff (hr : r.Apart) {port : UInt16} {e : RegistryEntry} :
    r.holder? port = some e ↔ e ∈ r.entries ∧ e.tunnel.port = port := by
  constructor
  · exact holder?_eq_some
  · rintro ⟨hmem, hport⟩
    cases hh : r.holder? port with
    | none =>
      unfold holder? at hh
      simpa [hport] using List.find?_eq_none.mp hh e hmem
    | some e' =>
      obtain ⟨hmem', hport'⟩ := holder?_eq_some hh
      rw [hr.eq_of_port hmem hmem' (hport.trans hport'.symm)]

/-- A key may forward for the registered tunnels that authorize it. -/
theorem mem_authorizedTunnels {key : PublicKey} {allowed : AuthorizedTunnel} :
    allowed ∈ r.authorizedTunnels key ↔
      ∃ e ∈ r.entries, e.tunnel.authorizes key = true ∧
        ⟨e.tunnel.id, e.tunnel.port⟩ = allowed := by
  rw [authorizedTunnels, List.mem_mergeSort, List.mem_map]
  constructor
  · rintro ⟨e, he, heq⟩
    obtain ⟨hmem, hauthorizes⟩ := List.mem_filter.mp he
    exact ⟨e, hmem, hauthorizes, heq⟩
  · rintro ⟨e, hmem, hauthorizes, heq⟩
    exact ⟨e, List.mem_filter.mpr ⟨hmem, hauthorizes⟩, heq⟩

/-- The ports that a key may forward for come in order, each once. -/
theorem Apart.sorted_authorizedTunnels (hr : r.Apart) (key : PublicKey) :
    (r.authorizedTunnels key).Pairwise fun a b => a.port < b.port := by
  have hsorted : (r.authorizedTunnels key).Pairwise fun a b => a.port ≤ b.port := by
    have := @List.pairwise_mergeSort AuthorizedTunnel (fun a b => decide (a.port ≤ b.port))
      (fun a b c => by simpa using UInt16.le_trans) (fun a b => by simpa using UInt16.le_total _ _)
      ((r.entries.filter (·.tunnel.authorizes key)).map fun e => ⟨e.tunnel.id, e.tunnel.port⟩)
    simpa [authorizedTunnels] using this
  have hdistinct : ((r.authorizedTunnels key).map (·.port)).Nodup := by
    have hperm := (List.mergeSort_perm ((r.entries.filter (·.tunnel.authorizes key)).map
      fun e => (⟨e.tunnel.id, e.tunnel.port⟩ : AuthorizedTunnel)) fun a b => a.port ≤ b.port).map
        (·.port)
    rw [authorizedTunnels, hperm.nodup_iff, List.map_map]
    exact hr.sublist (List.filter_sublist.map _)
  rw [List.Nodup, List.pairwise_map] at hdistinct
  exact (hsorted.and hdistinct).imp fun h => UInt16.lt_of_le_of_ne h.1 h.2

/-- A registry with the same entries in another order answers the same. -/
theorem Apart.answers_perm (hr : r.Apart) (h : r'.entries.Perm r.entries) :
    (∀ port, r'.holder? port = r.holder? port) ∧
      ∀ key, r'.authorizedTunnels key = r.authorizedTunnels key := by
  have hr' : r'.Apart := (h.map _).nodup_iff.mpr hr
  constructor
  · intro port
    refine Option.ext fun e => ?_
    rw [hr'.holder?_eq_some_iff, hr.holder?_eq_some_iff, h.mem_iff]
  · intro key
    -- both lists are strictly increasing and have the same elements
    refine List.Pairwise.eq_of_mem_iff (r := fun a b : AuthorizedTunnel => a.port < b.port)
      (hr'.sorted_authorizedTunnels key) (hr.sorted_authorizedTunnels key) fun allowed => ?_
    simp only [mem_authorizedTunnels, h.mem_iff]

/-- A tunnel that a key may forward for is the one that holds its port. -/
theorem Apart.holder?_of_authorized (hr : r.Apart) {key : PublicKey} {allowed : AuthorizedTunnel}
    (h : allowed ∈ r.authorizedTunnels key) :
    ∃ e, r.holder? allowed.port = some e ∧ e.tunnel.id = allowed.id ∧
      e.tunnel.authorizes key = true := by
  obtain ⟨e, he, hauthorizes, rfl⟩ := mem_authorizedTunnels.mp h
  exact ⟨e, hr.holder?_eq_some_iff.mpr ⟨he, rfl⟩, rfl, hauthorizes⟩

/-! ## What every operation keeps -/

/-- No tunnel and no port comes twice, and every number given out so far belongs to one
registration, which is there or has ended. -/
structure Sound (r : Registry) : Prop where
  once : r.Once
  apart : r.Apart
  numbers : (r.entries.map (·.serial) ++ r.ended).Perm (List.range r.nextSerial)

theorem sound_empty : Sound {} where
  once := List.nodup_nil
  apart := List.nodup_nil
  numbers := List.Perm.refl _

/-- Taking entries out moves their numbers to those that have ended. -/
theorem Sound.removeIf (hr : Sound r) (gone : RegistryEntry → Bool) : Sound (r.removeIf gone) where
  once := hr.once.sublist (List.filter_sublist.map _)
  apart := hr.apart.sublist (List.filter_sublist.map _)
  numbers := by
    have hswap : (r.ended ++ (r.entries.filter gone).map (·.serial)).Perm
        ((r.entries.filter gone).map (·.serial) ++ r.ended) := List.perm_append_comm
    have hsplit : ((r.entries.filter fun e => !gone e) ++ r.entries.filter gone).Perm r.entries :=
      List.perm_append_comm.trans (List.filter_append_perm gone r.entries)
    have hmoved := (hsplit.map (·.serial)).append_right r.ended
    rw [List.map_append, List.append_assoc] at hmoved
    exact (hswap.append_left _).trans (hmoved.trans hr.numbers)

theorem Sound.register (hr : Sound r) (h : r.register t = .ok (g, r')) : Sound r' where
  once := hr.once.register h
  apart := hr.apart.register h
  numbers := by
    obtain ⟨-, -, rfl⟩ := register_ok h
    have hrest := (hr.removeIf (·.tunnel.id == t.id)).numbers
    rw [enroll, List.map_append, List.map_singleton, List.range_succ, List.append_assoc]
    exact (List.perm_append_comm.append_left _).trans
      ((List.append_assoc _ _ _ ▸ hrest.append_right [r.nextSerial]))

theorem Sound.serial_lt (hr : Sound r) (he : e ∈ r.entries) : e.serial < r.nextSerial :=
  List.mem_range.mp
    (hr.numbers.subset (List.mem_append_left _ (List.mem_map_of_mem he)))

/-- A number that was given out has ended exactly if no entry has it. -/
theorem Sound.mem_ended_iff (hr : Sound r) {n : Nat} (hn : n < r.nextSerial) :
    n ∈ r.ended ↔ ∀ e ∈ r.entries, e.serial ≠ n := by
  have hmem := hr.numbers.mem_iff.mpr (List.mem_range.mpr hn)
  have hdisjoint := List.disjoint_of_nodup_append (hr.numbers.nodup_iff.mpr List.nodup_range)
  constructor
  · rintro hended e he rfl
    exact hdisjoint (List.mem_map_of_mem he) hended
  · intro hnone
    rcases List.mem_append.mp hmem with hthere | hended
    · obtain ⟨e, he, heq⟩ := List.mem_map.mp hthere
      exact absurd heq (hnone e he)
    · exact hended

/-- With no port held twice, a registration is refused exactly if another tunnel holds the port. -/
theorem Apart.register_error_iff (hr : r.Apart) {err : TunnelError} :
    r.register t = .error err ↔ ∃ e ∈ r.entries, e.tunnel.port = t.port ∧ e.tunnel.id ≠ t.id ∧
      err = .portConflict t.port e.tunnel.id := by
  constructor
  · exact register_error
  · rintro ⟨e, he, hport, hid, rfl⟩
    cases hreg : r.register t with
    | ok out => exact absurd ((register_ok hreg).1 e he hport) hid
    | error err =>
      obtain ⟨e', he', hport', -, rfl⟩ := register_error hreg
      rw [hr.eq_of_port he he' (hport.trans hport'.symm)]

/-! ## Histories -/

/-- What an event makes of a registry, and the reply to it. -/
def step (r : Registry) : RegistryEvent → Registry × RegistryReply
  | .register t =>
    match r.register t with
    | .ok (g, r) => (r, .registered g)
    | .error e => (r, .refused e)
  | .deregister id => (r.deregister id, .done)
  | .release g => (r.release g, .done)

/-- `Run h r`: the events of `h`, replied to as it says, have brought an empty registry to `r`. -/
inductive Run : RegistryHistory → Registry → Prop where
  | start : Run [] {}
  | next {h : RegistryHistory} {r : Registry} (event : RegistryEvent) :
      Run h r → Run ((event, (r.step event).2) :: h) (r.step event).1

/-- What ends a registration: its tunnel is registered anew or taken out, or it is taken back
itself. -/
def Ends (g : Registration) : RegistryEvent × RegistryReply → Prop
  | (.register t, .registered _) => t.id = g.id
  | (.deregister id, _) => id = g.id
  | (.release g', _) => g' = g
  | _ => False

/-- The tunnel was registered with this registration, and nothing has ended it since. -/
def Stands (h : RegistryHistory) (t : RegisteredTunnel) (g : Registration) : Prop :=
  ∃ since before, h = since ++ (.register t, .registered g) :: before ∧ ∀ x ∈ since, ¬ Ends g x

variable {h : RegistryHistory}

theorem Stands.mem (hs : Stands h t g) : (.register t, .registered g) ∈ h := by
  obtain ⟨since, before, rfl, -⟩ := hs
  exact List.mem_append_right _ List.mem_cons_self

/-- A registration stands after one more event if it was made by it, or stood and was not ended. -/
theorem stands_cons {x : RegistryEvent × RegistryReply} :
    Stands (x :: h) t g ↔ x = (.register t, .registered g) ∨ Stands h t g ∧ ¬ Ends g x :=
  exists_since_cons

/-- One event: either a tunnel is registered, or a registration is refused and nothing changes, or
the entries that the event ends are taken out. -/
theorem step_cases (r : Registry) (event : RegistryEvent) :
    (∃ t r', event = .register t ∧ r.register t = .ok (⟨t.id, r.nextSerial⟩, r') ∧
      r.step event = (r', .registered ⟨t.id, r.nextSerial⟩)) ∨
    (∃ t err, event = .register t ∧ r.register t = .error err ∧
      r.step event = (r, .refused err)) ∨
    (∃ gone, r.step event = (r.removeIf gone, .done) ∧ (∀ t, event ≠ .register t) ∧
      ∀ e, gone e = true ↔ Ends e.registration (event, .done)) := by
  cases event with
  | register t =>
    cases hreg : r.register t with
    | ok out =>
      obtain ⟨g, r'⟩ := out
      obtain ⟨-, rfl, -⟩ := register_ok hreg
      exact .inl ⟨t, r', rfl, hreg, by simp only [step, hreg]⟩
    | error err => exact .inr (.inl ⟨t, err, rfl, hreg, by simp only [step, hreg]⟩)
  | deregister id =>
    exact .inr (.inr ⟨_, rfl, nofun, fun e => beq_iff_eq.trans eq_comm⟩)
  | release g =>
    refine .inr (.inr ⟨_, rfl, nofun, fun e => ?_⟩)
    rw [Bool.and_eq_true, beq_iff_eq, beq_iff_eq, Ends, RegistryEntry.registration]
    cases g
    rw [Registration.mk.injEq]
    exact and_congr eq_comm eq_comm

theorem Sound.step (hr : Sound r) (event : RegistryEvent) : Sound (r.step event).1 := by
  rcases r.step_cases event with ⟨t, r', -, hreg, hs⟩ | ⟨t, err, -, -, hs⟩ | ⟨gone, hs, -⟩
  · rw [hs]
    exact hr.register hreg
  · rw [hs]
    exact hr
  · rw [hs]
    exact hr.removeIf gone

theorem Run.sound (hr : Run h r) : Sound r := by
  induction hr with
  | start => exact sound_empty
  | next event _ ih => exact ih.step event

/-- The entries are the registrations that stand. -/
theorem Run.present (hr : Run h r) : e ∈ r.entries ↔ Stands h e.tunnel e.registration := by
  induction hr with
  | start => exact iff_of_false List.not_mem_nil not_exists_since_nil
  | @next h r event _ ih =>
    rw [stands_cons]
    rcases r.step_cases event with ⟨t, r', rfl, hreg, hs⟩ | ⟨t, err, rfl, -, hs⟩ | ⟨gone, hs, hne, hgone⟩
    · obtain ⟨-, -, rfl⟩ := register_ok hreg
      rw [hs, mem_enroll, ih, or_comm]
      refine or_congr ?_ (and_congr_right fun _ => not_congr eq_comm)
      constructor
      · rintro rfl
        rfl
      · intro heq
        obtain ⟨tunnel, serial⟩ := e
        cases heq
        rfl
    · rw [hs]
      simpa [Ends] using ih
    · rw [hs, mem_removeIf, ih, ← Bool.not_eq_true, hgone]
      simp [hne]

/-- A registration of the history has its tunnel's identifier, and a number that was given out
and that no other tunnel's entry has. -/
theorem Run.issued (hr : Run h r) (hg : (.register t, .registered g) ∈ h) :
    g.id = t.id ∧ g.serial < r.nextSerial ∧ ∀ e ∈ r.entries, e.serial = g.serial → e.tunnel = t := by
  induction hr with
  | start => exact absurd hg List.not_mem_nil
  | @next h r event hrun ih =>
    rcases r.step_cases event with ⟨t', r', rfl, hreg, hs⟩ | ⟨t', err, rfl, -, hs⟩ | ⟨gone, hs, hne, -⟩
    · obtain ⟨-, -, rfl⟩ := register_ok hreg
      rw [hs] at hg ⊢
      rcases List.mem_cons.mp hg with heq | hold
      · cases heq
        refine ⟨rfl, Nat.lt_succ_self _, fun e he hserial => ?_⟩
        rcases mem_enroll.mp he with ⟨hmem, -⟩ | rfl
        · exact absurd hserial (hrun.sound.serial_lt hmem).ne
        · rfl
      · obtain ⟨hid, hlt, hothers⟩ := ih hold
        refine ⟨hid, Nat.lt_succ_of_lt hlt, fun e he hserial => ?_⟩
        rcases mem_enroll.mp he with ⟨hmem, -⟩ | rfl
        · exact hothers e hmem hserial
        · exact absurd hserial hlt.ne'
    · rw [hs] at hg ⊢
      refine ih ((List.mem_cons.mp hg).resolve_left ?_)
      rintro ⟨⟩
    · rw [hs] at hg ⊢
      obtain ⟨hid, hlt, hothers⟩ := ih ((List.mem_cons.mp hg).resolve_left fun heq => by cases heq)
      exact ⟨hid, hlt, fun e he => hothers e (mem_removeIf.mp he).1⟩

theorem Run.contains_iff (hr : Run h r) (id : Uuid) :
    r.contains id = true ↔ ∃ t g, t.id = id ∧ Stands h t g := by
  simp only [contains, List.any_eq_true, beq_iff_eq]
  constructor
  · rintro ⟨e, he, hid⟩
    exact ⟨e.tunnel, e.registration, hid, hr.present.mp he⟩
  · rintro ⟨t, g, hid, hstands⟩
    have hg : g = ⟨t.id, g.serial⟩ := by rw [← (hr.issued hstands.mem).1]
    have he : (⟨t, g.serial⟩ : RegistryEntry) ∈ r.entries := hr.present.mpr (hg ▸ hstands)
    exact ⟨_, he, hid⟩

theorem Run.mem_ended_iff (hr : Run h r) (hg : (.register t, .registered g) ∈ h) :
    g.serial ∈ r.ended ↔ (⟨t, g.serial⟩ : RegistryEntry) ∉ r.entries := by
  obtain ⟨-, hlt, hothers⟩ := hr.issued hg
  rw [hr.sound.mem_ended_iff hlt]
  constructor
  · intro hnone hmem
    exact hnone _ hmem rfl
  · rintro hnot ⟨tunnel, serial⟩ he rfl
    exact hnot (hothers _ he rfl ▸ he)

theorem step_of_refused {err : TunnelError} (h : (r.step (.register t)).2 = .refused err) :
    (r.step (.register t)).1 = r := by
  rcases r.step_cases (.register t) with ⟨_, _, -, -, hs⟩ | ⟨_, _, -, -, hs⟩ | ⟨_, hs, -⟩
  · rw [hs] at h
    cases h
  · rw [hs]
  · rw [hs] at h
    cases h

/-! ## The law of a history -/

/-- What a registry holds and answers after a history. -/
structure Lawful (h : RegistryHistory) (r : Registry) : Prop where
  /-- Every entry is found under its tunnel's identifier, and under that alone. -/
  ids : ∀ e ∈ r.entries, ∀ id, r.entries.find? (·.tunnel.id == id) = some e ↔ e.tunnel.id = id
  /-- No port is held twice. -/
  ports : r.Apart
  /-- A tunnel is refused exactly if another one holds its port; the error names that one. -/
  refused : ∀ t err, r.register t = .error err ↔ ∃ e ∈ r.entries,
    e.tunnel.port = t.port ∧ e.tunnel.id ≠ t.id ∧ err = .portConflict t.port e.tunnel.id
  /-- A refusal changes nothing. -/
  unchanged : ∀ t err, (r.step (.register t)).2 = .refused err → (r.step (.register t)).1 = r
  /-- A tunnel is registered exactly if its last registration was neither taken out nor taken back
  since. -/
  registered : ∀ id, r.contains id = true ↔ ∃ t g, t.id = id ∧ Stands h t g
  /-- A registration has ended exactly if it is no longer there. -/
  ended : ∀ t g, (.register t, .registered g) ∈ h →
    (g.serial ∈ r.ended ↔ (⟨t, g.serial⟩ : RegistryEntry) ∉ r.entries)
  /-- The order of the entries does not show in the answers. -/
  unordered : ∀ es : List RegistryEntry, es.Perm r.entries →
    (∀ port, holder? { r with entries := es } port = r.holder? port) ∧
      ∀ key, authorizedTunnels { r with entries := es } key = r.authorizedTunnels key
  /-- The tunnels of a key come in the order of their ports. -/
  sorted : ∀ key, (r.authorizedTunnels key).Pairwise fun a b => a.port < b.port
  /-- A tunnel of a key is the one that holds its port. -/
  holds : ∀ key, ∀ allowed ∈ r.authorizedTunnels key,
    ∃ e, r.holder? allowed.port = some e ∧ e.tunnel.id = allowed.id

/-- A registry is lawful after every history. -/
theorem lawful_of_run (hr : Run h r) : Lawful h r := by
  have hsound := hr.sound
  refine ⟨fun e he id => hsound.once.find?_eq_some_iff he, hsound.apart,
    fun _ _ => hsound.apart.register_error_iff, fun _ _ => step_of_refused, hr.contains_iff,
    fun _ _ => hr.mem_ended_iff, ?_, hsound.apart.sorted_authorizedTunnels, ?_⟩
  · intro es hes
    exact @Apart.answers_perm r { r with entries := es } hsound.apart hes
  · intro key allowed hallowed
    obtain ⟨e, he, hid, -⟩ := hsound.apart.holder?_of_authorized hallowed
    exact ⟨e, he, hid⟩

/-- A tunnel is registered anew on another port, its old port goes to a second tunnel, and then its
first registration is taken back: that one has ended, and the tunnel is still registered. -/
theorem successor_survives :
    ∃ h r, Run h r ∧ Lawful h r ∧ (.release ⟨default, 0⟩, .done) ∈ h ∧ 0 ∈ r.ended ∧
      r.contains default = true ∧ (∃ e, r.holder? 4000 = some e ∧ e.tunnel.id = .ofNat 1) := by
  have h₁ := Run.start.next (.register ⟨default, 4000, []⟩)
  have h₂ := h₁.next (.register ⟨default, 4001, []⟩)
  have h₃ := (h₂.next (.register ⟨.ofNat 1, 4000, []⟩)).next (.release ⟨default, 0⟩)
  refine ⟨_, _, h₃, lawful_of_run h₃, ?_, ?_, ?_, ?_⟩
  · decide +kernel
  · decide +kernel
  · decide +kernel
  · exact ⟨⟨⟨.ofNat 1, 4000, []⟩, 2⟩, by decide +kernel, rfl⟩

end Registry
end SshTunnels
