import SshTunnels.Proofs.Manager.Entries
import SshTunnels.Proofs.Manager.History
import SshTunnels.Proofs.Tunnel.SameLive

/-!
# The books of a manager

A manager has sound books when its lists hold every tunnel once, every supervisor it holds has a
number of its own under which one tunnel was built, and that tunnel is still the live tunnel that
the manager has on record (`Sound`).

This module says what starting the missing supervisors does to each tunnel, and that it keeps the
books sound, provided that no supervisor is left whose tunnel has changed (`Ready`).
-/

namespace SshTunnels

namespace DesiredTunnel

/-- The tunnel without its flag. -/
def clear (d : DesiredTunnel) : DesiredTunnel :=
  { d with needsRestart := false }

end DesiredTunnel

namespace Manager

/-- The tunnels that these acts build, each with the number of its supervisor. -/
def built (acts : List ManagerAct) : List (Nat × TunnelConfig) :=
  acts.filterMap ManagerAct.build?

/-- The supervisors that these acts start for a tunnel, and what they are built from. -/
def builtFor (acts : List ManagerAct) (id : Uuid) : List (Nat × TunnelConfig) :=
  (built acts).filter (·.2.id == id)

/-- The books of a manager that has done `acts` are sound. -/
structure Sound (m : Manager) (acts : List ManagerAct) : Prop where
  desired_once : (ids m.desired).Nodup
  desired_own : ∀ {id d}, m.desired.lookup id = some d → d.config.id = id
  supervised_once : (ids m.supervised).Nodup
  recorded : built acts = m.builds
  numbered : m.builds.map (·.1) = List.range m.builds.length
  distinct : ∀ {id id' s s'}, m.supervised.lookup id = some s → m.supervised.lookup id' = some s' →
    s.serial = s'.serial → id = id'
  origin : ∀ {id s}, m.supervised.lookup id = some s →
    ∃ c, (s.serial, c) ∈ m.builds ∧ c.sameLive s.config = true

/-- No supervisor is left whose tunnel is not wanted or has changed. -/
def Ready (m : Manager) : Prop :=
  ∀ id s, m.supervised.lookup id = some s →
    ∃ d, m.desired.lookup id = some d ∧ s.config.sameLive d.config = true

@[simp] theorem built_append (acts acts' : List ManagerAct) :
    built (acts ++ acts') = built acts ++ built acts' :=
  List.filterMap_append

@[simp] theorem built_stops (serials : List Nat) : built (serials.map .stop) = [] :=
  List.filterMap_eq_nil_iff.mpr (List.forall_mem_map.mpr fun _ _ => rfl)

@[simp] theorem built_aborts (serials : List Nat) : built (serials.map .abort) = [] :=
  List.filterMap_eq_nil_iff.mpr (List.forall_mem_map.mpr fun _ _ => rfl)

@[simp] theorem built_gauge (count : Nat) : built [.gauge count] = [] := rfl

theorem builtFor_append (acts acts' : List ManagerAct) (id : Uuid) :
    builtFor (acts ++ acts') id = builtFor acts id ++ builtFor acts' id := by
  rw [builtFor, built_append, List.filter_append]
  rfl

/-- With each number once, one entry is found under a number. -/
theorem filter_number {l : List (Nat × TunnelConfig)} (hn : (l.map (·.1)).Nodup) {n : Nat}
    {c : TunnelConfig} (h : (n, c) ∈ l) : l.filter (·.1 == n) = [(n, c)] := by
  induction l with
  | nil => exact absurd h List.not_mem_nil
  | cons e l ih =>
    obtain ⟨k, hl⟩ := List.nodup_cons.mp hn
    cases List.mem_cons.mp h with
    | inl he =>
      subst he
      rw [List.filter_cons, if_pos (beq_self_eq_true n), List.filter_eq_nil_iff.mpr]
      intro e' he' heq
      exact k (List.mem_map.mpr ⟨e', he', beq_iff_eq.mp heq⟩)
    | inr he =>
      have hne : e.1 ≠ n := fun heq => k (List.mem_map.mpr ⟨(n, c), he, heq.symm⟩)
      rw [List.filter_cons, if_neg (mt beq_iff_eq.mp hne)]
      exact ih hl he

namespace Sound

variable {m m' : Manager} {acts : List ManagerAct}

theorem serial_lt (h : Sound m acts) {n : Nat} {c : TunnelConfig} (hn : (n, c) ∈ m.builds) :
    n < m.started.length := by
  have hm : n ∈ m.builds.map (·.1) := List.mem_map_of_mem hn
  rw [h.numbered, List.mem_range] at hm
  rwa [builds, List.length_map] at hm

theorem supervised_lt (h : Sound m acts) {id : Uuid} {s : SupervisedTunnel}
    (hs : m.supervised.lookup id = some s) : s.serial < m.started.length := by
  obtain ⟨c, hc, -⟩ := h.origin hs
  exact h.serial_lt hc

/-- Under each number one tunnel has been built. -/
theorem built_once (h : Sound m acts) {n : Nat} {c : TunnelConfig} (hc : (n, c) ∈ m.builds) :
    (built acts).filter (·.1 == n) = [(n, c)] := by
  have hn : (m.builds.map (·.1)).Nodup := h.numbered ▸ List.nodup_range
  rw [h.recorded]
  exact filter_number hn hc

theorem of_alike (h : Sound m acts) (ha : m.Alike m') : Sound m' acts where
  desired_once := ha.desired ▸ h.desired_once
  desired_own hd := h.desired_own (ha.desired ▸ hd)
  supervised_once := ha.supervised ▸ h.supervised_once
  recorded := h.recorded.trans ha.builds.symm
  numbered := ha.builds ▸ h.numbered
  distinct hs hs' := h.distinct (ha.supervised ▸ hs) (ha.supervised ▸ hs')
  origin hs := ha.builds ▸ h.origin (ha.supervised ▸ hs)

/-- Acts that build nothing leave the books as they are. -/
theorem append (h : Sound m acts) {more : List ManagerAct} (hm : built more = []) :
    Sound m (acts ++ more) :=
  { h with recorded := by rw [built_append, hm, List.append_nil, h.recorded] }

theorem filter (h : Sound m acts) (p : Uuid × SupervisedTunnel → Bool) :
    Sound { m with supervised := m.supervised.filter p } acts := by
  have hl : ∀ {id s}, (m.supervised.filter p).lookup id = some s →
      m.supervised.lookup id = some s := by
    intro id s hs
    rw [lookup_filter h.supervised_once] at hs
    exact (Option.filter_eq_some_iff.mp hs).1
  exact {
    desired_once := h.desired_once
    desired_own := h.desired_own
    supervised_once := nodup_ids_filter h.supervised_once p
    recorded := h.recorded
    numbered := h.numbered
    distinct := fun hs hs' => h.distinct (hl hs) (hl hs')
    origin := fun hs => h.origin (hl hs) }

end Sound

/-! ## Ensuring one supervisor -/

variable {m : Manager} {acts : List ManagerAct} {id k : Uuid} {d : DesiredTunnel}

theorem ensure_of_some {s : SupervisedTunnel} (hs : m.supervised.lookup id = some s) :
    ensure (m, acts) id d =
      ({ m with supervised := upsert m.supervised id { s with config := d.config } }, acts) := by
  simp only [ensure, hs]

theorem ensure_of_none (hs : m.supervised.lookup id = none) :
    ensure (m, acts) id d =
      ({ m with
        supervised := m.supervised ++ [(id, ⟨d.config, m.started.length⟩)]
        started := m.started ++ [⟨m.started.length, d.config, m.isEnding, false⟩] },
        acts ++ [.start m.started.length d.config]) := by
  simp only [ensure, hs]

/-- Ensuring one supervisor leaves the other tunnels alone. -/
theorem ensure_lookup_ne (hk : k ≠ id) :
    (ensure (m, acts) id d).1.supervised.lookup k = m.supervised.lookup k := by
  cases hs : m.supervised.lookup id with
  | some s =>
    rw [ensure_of_some hs, lookup_upsert, if_neg hk]
  | none =>
    rw [ensure_of_none hs, lookup_append_singleton (lookup_eq_none_iff_not_mem.mp hs), if_neg hk]

/-- Ensuring touches nothing but the supervised and the started tunnels. -/
theorem ensure_unchanged {β : Type} (f : Manager → β)
    (hf : ∀ m supervised started, f { m with supervised, started } = f m)
    (state : Manager × List ManagerAct) (id : Uuid) (d : DesiredTunnel) :
    f (ensure state id d).1 = f state.1 := by
  obtain ⟨m, acts⟩ := state
  cases hs : m.supervised.lookup id with
  | some s =>
    rw [ensure_of_some hs]
    exact hf m _ m.started
  | none =>
    rw [ensure_of_none hs]
    exact hf m _ _

theorem length_le_ensure :
    m.started.length ≤ (ensure (m, acts) id d).1.started.length := by
  cases hs : m.supervised.lookup id with
  | some s => exact Nat.le_of_eq (by rw [ensure_of_some hs])
  | none =>
    rw [ensure_of_none hs, List.length_append]
    exact Nat.le_add_right _ _

/-- Ensuring keeps the books, if the supervisor that is kept has the same live tunnel. -/
theorem Sound.ensure (h : Sound m acts)
    (hd : ∀ s, m.supervised.lookup id = some s → s.config.sameLive d.config = true) :
    Sound (Manager.ensure (m, acts) id d).1 (Manager.ensure (m, acts) id d).2 := by
  cases hs : m.supervised.lookup id with
  | some s =>
    rw [ensure_of_some hs]
    -- what is found afterwards was found before under the same number
    have hl : ∀ {i t}, (upsert m.supervised id { s with config := d.config }).lookup i = some t →
        ∃ t', m.supervised.lookup i = some t' ∧ t'.serial = t.serial ∧
          t'.config.sameLive t.config = true := by
      intro i t ht
      rw [lookup_upsert] at ht
      split at ht
      · next hi =>
        cases ht
        exact ⟨s, hi ▸ hs, rfl, hd s hs⟩
      · exact ⟨t, ht, rfl, TunnelConfig.sameLive_refl _⟩
    exact {
      desired_once := h.desired_once
      desired_own := h.desired_own
      supervised_once := nodup_ids_upsert h.supervised_once _ _
      recorded := h.recorded
      numbered := h.numbered
      distinct := fun ht ht' heq => by
        obtain ⟨t, hl₁, hn, -⟩ := hl ht
        obtain ⟨t', hl₂, hn', -⟩ := hl ht'
        exact h.distinct hl₁ hl₂ (hn.trans (heq.trans hn'.symm))
      origin := fun ht => by
        obtain ⟨t, hl₁, hn, hlive⟩ := hl ht
        obtain ⟨c, hc, hsame⟩ := h.origin hl₁
        exact ⟨c, hn ▸ hc, TunnelConfig.sameLive_trans hsame hlive⟩ }
  | none =>
    rw [ensure_of_none hs]
    -- the new number is beyond all that were given out, so nobody else has it
    have hm := lookup_eq_none_iff_not_mem.mp hs
    have hb : (m.started ++ [(⟨m.started.length, d.config, m.isEnding, false⟩ :
        StartedSupervisor)]).map (·.build) = m.builds ++ [(m.started.length, d.config)] := by
      rw [List.map_append]
      rfl
    have hlen : m.builds.length = m.started.length := List.length_map _
    have hl : ∀ {i} {t : SupervisedTunnel},
        (m.supervised ++ [(id, (⟨d.config, m.started.length⟩ : SupervisedTunnel))]).lookup i =
          some t →
          (i = id ∧ t = ⟨d.config, m.started.length⟩) ∨ m.supervised.lookup i = some t := by
      intro i t ht
      rw [lookup_append_singleton hm] at ht
      split at ht
      · next hi =>
        cases ht
        exact .inl ⟨hi, rfl⟩
      · exact .inr ht
    exact {
      desired_once := h.desired_once
      desired_own := h.desired_own
      supervised_once := nodup_ids_append_singleton h.supervised_once hm _
      recorded := by
        rw [builds, hb, built_append, h.recorded]
        rfl
      numbered := by
        rw [builds, hb, List.map_append, h.numbered, List.length_append, hlen]
        exact List.range_succ.symm
      distinct := fun ht ht' heq => by
        rcases hl ht with ⟨rfl, rfl⟩ | ho
        · rcases hl ht' with ⟨rfl, rfl⟩ | ho'
          · rfl
          · exact absurd heq (Nat.ne_of_gt (h.supervised_lt ho'))
        · rcases hl ht' with ⟨rfl, rfl⟩ | ho'
          · exact absurd heq (Nat.ne_of_lt (h.supervised_lt ho))
          · exact h.distinct ho ho' heq
      origin := fun ht => by
        rw [builds, hb]
        rcases hl ht with ⟨rfl, rfl⟩ | ho
        · exact ⟨d.config, List.mem_append_right _ List.mem_cons_self,
            TunnelConfig.sameLive_refl _⟩
        · obtain ⟨c, hc, hsame⟩ := h.origin ho
          exact ⟨c, List.mem_append_left _ hc, hsame⟩ }

theorem ensure_append (acts more : List ManagerAct) (m : Manager) (id : Uuid) (d : DesiredTunnel) :
    ensure (m, acts ++ more) id d =
      ((ensure (m, more) id d).1, acts ++ (ensure (m, more) id d).2) := by
  cases hs : m.supervised.lookup id with
  | some s => rw [ensure_of_some hs, ensure_of_some hs]
  | none => rw [ensure_of_none hs, ensure_of_none hs, List.append_assoc]

/-! ## Ensuring every desired tunnel -/

/-- Starts the desired tunnels one after the other, or keeps the supervisors that they have. -/
def ensureAll (state : Manager × List ManagerAct) (ds : List (Uuid × DesiredTunnel)) :
    Manager × List ManagerAct :=
  ds.foldl (fun state e => ensure state e.1 e.2) state

theorem ensureAll_append (acts more : List ManagerAct) (m : Manager)
    (ds : List (Uuid × DesiredTunnel)) :
    ensureAll (m, acts ++ more) ds =
      ((ensureAll (m, more) ds).1, acts ++ (ensureAll (m, more) ds).2) := by
  induction ds generalizing m more with
  | nil => rfl
  | cons e ds ih =>
    show ensureAll (ensure (m, acts ++ more) e.1 e.2) ds = _
    rw [ensure_append, ih]
    rfl

theorem ensureAll_unchanged {β : Type} (f : Manager → β)
    (hf : ∀ m supervised started, f { m with supervised, started } = f m)
    (state : Manager × List ManagerAct) (ds : List (Uuid × DesiredTunnel)) :
    f (ensureAll state ds).1 = f state.1 := by
  induction ds generalizing state with
  | nil => rfl
  | cons e ds ih => exact (ih _).trans (ensure_unchanged f hf state e.1 e.2)

/-- What becomes of a tunnel, and what is built for it, when the desired tunnels are ensured. -/
inductive Served (m : Manager) (id : Uuid) :
    Option DesiredTunnel → Option SupervisedTunnel → List (Nat × TunnelConfig) → Prop where
  | ignored : Served m id none (m.supervised.lookup id) []
  | kept {s : SupervisedTunnel} {d : DesiredTunnel} : m.supervised.lookup id = some s →
      Served m id (some d) (some ⟨d.config, s.serial⟩) []
  | begun {d : DesiredTunnel} {n : Nat} : m.supervised.lookup id = none → m.started.length ≤ n →
      Served m id (some d) (some ⟨d.config, n⟩) [(n, d.config)]

/-- Ensuring one supervisor serves its tunnel. -/
theorem served_ensure (hd : d.config.id = id) :
    ∃ bs, builtFor (ensure (m, acts) id d).2 id = builtFor acts id ++ bs ∧
      Served m id (some d) ((ensure (m, acts) id d).1.supervised.lookup id) bs := by
  cases hs : m.supervised.lookup id with
  | some s =>
    rw [ensure_of_some hs, lookup_upsert, if_pos rfl]
    exact ⟨[], (List.append_nil _).symm, .kept hs⟩
  | none =>
    rw [ensure_of_none hs, lookup_append_singleton (lookup_eq_none_iff_not_mem.mp hs), if_pos rfl,
      builtFor_append]
    refine ⟨_, rfl, ?_⟩
    have hb : builtFor [.start m.started.length d.config] id = [(m.started.length, d.config)] :=
      List.filter_cons_of_pos (beq_iff_eq.mpr hd)
    rw [hb]
    exact .begun hs (Nat.le_refl _)

theorem builtFor_ensure_ne (hd : d.config.id = id) (hk : k ≠ id) :
    builtFor (ensure (m, acts) id d).2 k = builtFor acts k := by
  cases hs : m.supervised.lookup id with
  | some s => rw [ensure_of_some hs]
  | none =>
    rw [ensure_of_none hs, builtFor_append]
    have hb : builtFor [.start m.started.length d.config] k = [] :=
      List.filter_cons_of_neg (fun h => hk ((beq_iff_eq.mp h).symm.trans hd))
    rw [hb, List.append_nil]

/-- A tunnel is served as if it were the only one. -/
theorem Served.of_ensure {m' : Manager} {od : Option DesiredTunnel} {os : Option SupervisedTunnel}
    {bs : List (Nat × TunnelConfig)} (h : Served m' k od os bs)
    (hs : m'.supervised.lookup k = m.supervised.lookup k)
    (hl : m.started.length ≤ m'.started.length) : Served m k od os bs := by
  cases h with
  | ignored =>
    rw [hs]
    exact .ignored
  | kept hk => exact .kept (hs ▸ hk)
  | begun hk hn => exact .begun (hs ▸ hk) (Nat.le_trans hl hn)

/-- A tunnel that is served has the configuration that is desired. -/
theorem Served.config_eq {od : Option DesiredTunnel} {os : Option SupervisedTunnel}
    {bs : List (Nat × TunnelConfig)} (h : Served m k od os bs)
    (hnone : od = none → m.supervised.lookup k = none) :
    os.map (·.config) = od.map (·.config) := by
  cases h with
  | ignored =>
    rw [hnone rfl]
    rfl
  | kept _ => rfl
  | begun _ _ => rfl

theorem served_ensureAll {ds : List (Uuid × DesiredTunnel)} (hn : (ids ds).Nodup)
    (hown : ∀ e ∈ ds, e.2.config.id = e.1) (id : Uuid) (m : Manager) (acts : List ManagerAct) :
    ∃ bs, builtFor (ensureAll (m, acts) ds).2 id = builtFor acts id ++ bs ∧
      Served m id (ds.lookup id) ((ensureAll (m, acts) ds).1.supervised.lookup id) bs := by
  induction ds generalizing m acts with
  | nil => exact ⟨[], (List.append_nil _).symm, .ignored⟩
  | cons e ds ih =>
    obtain ⟨k, d⟩ := e
    obtain ⟨hk, hr⟩ := List.nodup_cons.mp hn
    have hd : d.config.id = k := hown _ List.mem_cons_self
    obtain ⟨bs, hb, hserved⟩ := ih hr (fun e he => hown e (List.mem_cons_of_mem _ he))
      (ensure (m, acts) k d).1 (ensure (m, acts) k d).2
    rw [show ensureAll (m, acts) ((k, d) :: ds) = ensureAll (ensure (m, acts) k d) ds from rfl,
      lookup_cons_eq]
    by_cases hid : id = k
    · subst hid
      rw [lookup_eq_none_iff_not_mem.mpr hk] at hserved
      rw [if_pos rfl]
      -- the later tunnels are others, so what the first step made of this one stays
      generalize (ensureAll (ensure (m, acts) id d) ds).1.supervised.lookup id = os at hserved ⊢
      cases hserved
      rw [hb, List.append_nil]
      exact served_ensure hd
    · rw [if_neg hid]
      refine ⟨bs, ?_, hserved.of_ensure (ensure_lookup_ne hid) length_le_ensure⟩
      rw [hb, builtFor_ensure_ne hd hid]

/-- Ensuring keeps the books, if every supervisor that is kept has the same live tunnel. -/
theorem Sound.ensureAll {ds : List (Uuid × DesiredTunnel)} (hn : (ids ds).Nodup)
    (h : Sound m acts) (hd : ∀ e ∈ ds, ∀ s, m.supervised.lookup e.1 = some s →
      s.config.sameLive e.2.config = true) :
    Sound (Manager.ensureAll (m, acts) ds).1 (Manager.ensureAll (m, acts) ds).2 := by
  induction ds generalizing m acts with
  | nil => exact h
  | cons e ds ih =>
    obtain ⟨k, d⟩ := e
    obtain ⟨hk, hr⟩ := List.nodup_cons.mp hn
    refine ih hr (h.ensure (hd _ List.mem_cons_self)) ?_
    intro e he s hs
    have hne : e.1 ≠ k := fun heq => hk (List.mem_map.mpr ⟨e, he, heq⟩)
    exact hd e (List.mem_cons_of_mem _ he) s ((ensure_lookup_ne hne).symm.trans hs)

theorem isBuild_of_mem_ensure {a : ManagerAct} (ha : a ∈ (ensure (m, acts) id d).2) :
    a ∈ acts ∨ a.build?.isSome = true := by
  cases hs : m.supervised.lookup id with
  | some s =>
    rw [ensure_of_some hs] at ha
    exact .inl ha
  | none =>
    rw [ensure_of_none hs] at ha
    rcases List.mem_append.mp ha with ha | ha
    · exact .inl ha
    · exact .inr (List.mem_singleton.mp ha ▸ rfl)

/-- All that is done on the way is to start supervisors. -/
theorem isBuild_of_mem_ensureAll {ds : List (Uuid × DesiredTunnel)} {a : ManagerAct}
    (ha : a ∈ (ensureAll (m, acts) ds).2) : a ∈ acts ∨ a.build?.isSome = true := by
  induction ds generalizing m acts with
  | nil => exact .inl ha
  | cons e ds ih =>
    rcases ih ha with h | h
    · exact isBuild_of_mem_ensure h
    · exact .inr h

/-! ## Starting what is missing -/

/-- The manager with no flag set, about to start what is missing. -/
def cleared (m : Manager) : Manager :=
  { m with
    desired := m.desired.map fun e => (e.1, e.2.clear)
    phase := .free }

theorem startMissing_eq (m : Manager) :
    m.startMissing =
      ((ensureAll (m.cleared, []) m.cleared.desired).1,
        (ensureAll (m.cleared, []) m.cleared.desired).2 ++
          [.gauge (ensureAll (m.cleared, []) m.cleared.desired).1.supervised.length]) :=
  rfl

theorem lookup_cleared (m : Manager) (id : Uuid) :
    m.cleared.desired.lookup id = (m.desired.lookup id).map DesiredTunnel.clear :=
  lookup_map (fun _ => DesiredTunnel.clear) m.desired id

theorem Sound.cleared (h : Sound m acts) : Sound m.cleared acts :=
  { h with
    desired_once := by
      have hids : ids m.cleared.desired = ids m.desired :=
        ids_map (fun _ => DesiredTunnel.clear) m.desired
      exact hids ▸ h.desired_once
    desired_own := fun {id d} hd => by
      rw [lookup_cleared] at hd
      obtain ⟨d', hd', rfl⟩ := Option.map_eq_some_iff.mp hd
      exact @Sound.desired_own m acts h id d' hd' }

theorem startMissing_phase (m : Manager) : m.startMissing.1.phase = .free := by
  rw [startMissing_eq]
  exact ensureAll_unchanged (·.phase) (fun _ _ _ => rfl) _ _

theorem startMissing_desired (m : Manager) (id : Uuid) :
    m.startMissing.1.desired.lookup id = (m.desired.lookup id).map DesiredTunnel.clear := by
  rw [startMissing_eq, ← lookup_cleared]
  exact congrArg (List.lookup id) (ensureAll_unchanged (·.desired) (fun _ _ _ => rfl) _ _)

/-- The number of supervised tunnels is reported last. -/
theorem startMissing_gauge (m : Manager) :
    (m.startMissing.2.filterMap ManagerAct.gauge?).getLast? =
      some m.startMissing.1.supervised.length := by
  rw [startMissing_eq, List.filterMap_append]
  exact List.getLast?_concat

theorem not_stop_of_mem_startMissing {m : Manager} {a : ManagerAct} (ha : a ∈ m.startMissing.2)
    (n : Nat) : a ≠ .stop n ∧ a ≠ .abort n := by
  rw [startMissing_eq] at ha
  rcases List.mem_append.mp ha with ha | ha
  · rcases isBuild_of_mem_ensureAll ha with ha | ha
    · exact absurd ha List.not_mem_nil
    · constructor
      · rintro rfl
        exact absurd ha Bool.false_ne_true
      · rintro rfl
        exact absurd ha Bool.false_ne_true
  · rw [List.mem_singleton.mp ha]
    exact ⟨nofun, nofun⟩

theorem Sound.startMissing (h : Sound m acts) (hr : Ready m) :
    Sound m.startMissing.1 (acts ++ m.startMissing.2) := by
  have hc := h.cleared
  have hkeep : ∀ e ∈ m.cleared.desired, ∀ s, m.cleared.supervised.lookup e.1 = some s →
      s.config.sameLive e.2.config = true := by
    intro e he s hs
    obtain ⟨d, hd, hlive⟩ := hr _ _ hs
    have he' : m.cleared.desired.lookup e.1 = some e.2 := lookup_of_mem hc.desired_once he
    rw [lookup_cleared, hd] at he'
    exact (Option.some.inj he').symm ▸ hlive
  have hall := (Sound.ensureAll hc.desired_once hc hkeep).append
    (built_gauge (Manager.ensureAll (m.cleared, []) m.cleared.desired).1.supervised.length)
  have hsplit := ensureAll_append acts [] m.cleared m.cleared.desired
  rw [List.append_nil] at hsplit
  rw [hsplit, List.append_assoc] at hall
  exact hall

/-- Every tunnel is served by starting what is missing. -/
theorem served_startMissing (h : Sound m acts) (id : Uuid) :
    Served m id ((m.desired.lookup id).map DesiredTunnel.clear)
      (m.startMissing.1.supervised.lookup id) (builtFor m.startMissing.2 id) := by
  have hown : ∀ e ∈ m.cleared.desired, e.2.config.id = e.1 := fun e he =>
    h.cleared.desired_own (lookup_of_mem h.cleared.desired_once he)
  obtain ⟨bs, hb, hserved⟩ := served_ensureAll h.cleared.desired_once hown id m.cleared []
  have hgauge : ∀ count, builtFor [.gauge count] id = [] := fun _ => rfl
  rw [startMissing_eq, builtFor_append, hgauge, List.append_nil, hb, ← lookup_cleared]
  exact hserved.of_ensure rfl (Nat.le_refl _)

/-- Afterwards the supervised tunnels are the desired ones. -/
theorem startMissing_aligned (h : Sound m acts) (hr : Ready m) (id : Uuid) :
    (m.startMissing.1.supervised.lookup id).map (·.config) =
      (m.startMissing.1.desired.lookup id).map (·.config) := by
  rw [startMissing_desired]
  refine (served_startMissing h id).config_eq fun hnone => ?_
  cases hs : m.supervised.lookup id with
  | none => rfl
  | some s =>
    obtain ⟨d, hd, -⟩ := hr _ _ hs
    rw [hd] at hnone
    cases hnone

end Manager
end SshTunnels
