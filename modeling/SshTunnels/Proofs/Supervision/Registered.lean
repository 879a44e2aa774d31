import SshTunnels.Proofs.Supervision.Running

/-!
# Discovery follows supervision

Once everything that the manager has set going has come to its end, discovery tells of a tunnel what
the manager holds: it has an entry exactly while the tunnel is supervised, with its port. That is so
for every tunnel whose last registration or deregistration did not come from a supervisor that was
aborted (`discovered_of_run`). A supervisor that is aborted while its tunnel runs leaves its entry
behind (`listed_after_abort`).

Two supervisors of one tunnel never get in each other's way, unless one was aborted: the older has
finished before the younger is started (`Run.single`).
-/

namespace SshTunnels
namespace Supervision

open Manager (built)

variable {options : ManagerOptions} {createdAt now : Instant} {host : String}
  {h : ManagerHistory} {s s' : Supervision} {n k : Nat} {c c' : TunnelConfig} {id : Uuid}

/-! ## One supervisor after the other -/

/-- Supervisor `n` has been aborted or has finished. -/
def IsGone (s : Supervision) (n : Nat) : Prop :=
  .abort n ∈ s.acts ∨ (s.crew n).phase = .finished

/-- Of two supervisors of a tunnel one is gone. -/
def Single (s : Supervision) : Prop :=
  ∀ k n c c', (k, c) ∈ built s.acts → (n, c') ∈ built s.acts → c.id = c'.id → k ≠ n →
    s.IsGone k ∨ s.IsGone n

theorem IsGone.tell {event : SupervisorEvent} (hk : s.IsGone k) :
    (s.tell now n c event).IsGone k := by
  refine hk.imp_right fun hp => ?_
  by_cases hkn : k = n
  · subst hkn
    rw [crew_tell_self]
    exact ((Supervisor.step_stepped c (s.crew k) now event).of_finished hp).1
  · rw [crew_tell_of_ne hkn]
    exact hp

theorem IsGone.manage {event : ManagerEvent} (hk : s.IsGone k)
    (hs : (s.manage now event).manager.Sound (s.manage now event).acts)
    (hb : (k, c) ∈ built s.acts) : (s.manage now event).IsGone k := by
  refine hk.imp (List.mem_append_left _) fun hp => ?_
  rw [crew_manage_of_not_mem fun c' hc' => Manager.not_built_before hs hb hc']
  exact hp

/-- Whoever is followed by another is gone. -/
theorem Run.isGone_of_replaced {event : ManagerEvent} (hr : Run (new options createdAt host) h s)
    (hc : event.isCall = true → s.manager.phase = .free)
    (he : ∀ n, event = .ended n → (s.crew n).phase = .finished)
    (hk : (k, c) ∈ built s.acts) (hn : (n, c') ∈ built (s.manager.step now event).2)
    (hid : c.id = c'.id) : (s.manage now event).IsGone k := by
  obtain ⟨before, after, heq⟩ := List.append_of_mem (start_mem_of_built hn)
  have hbefore : (k, c) ∈ built (s.acts ++ before) := by
    rw [Manager.built_append]
    exact List.mem_append_left _ hk
  rcases (hr.manager.careful now hc).replaces before n c' after heq k c hbefore hid with
    habort | ⟨since, t, _, _, _, _, hh, -, -⟩
  · refine .inl ?_
    rw [acts_manage, heq, ← List.append_assoc]
    exact List.mem_append_left _ habort
  · refine .inr (((hr.manages now event hc he).manned k).ended t ?_)
    rw [hh]
    exact List.mem_append_right _ List.mem_cons_self

theorem Run.single (hr : Run (new options createdAt host) h s) : s.Single := by
  induction hr with
  | start => exact fun _ _ _ _ hk => nomatch hk
  | @manages h s now event hr hc he ih =>
    have hs := (hr.manages now event hc he).sound
    intro k n c c' hk hn hid hne
    rcases mem_built_manage.mp hk with hk | hk <;> rcases mem_built_manage.mp hn with hn | hn
    · exact (ih k n c c' hk hn hid hne).imp (·.manage hs hk) (·.manage hs hn)
    · exact .inl (hr.isGone_of_replaced hc he hk hn hid)
    · exact .inr (hr.isGone_of_replaced hc he hn hk hid.symm)
    · -- of two that are started at once each would hold the tunnel
      have hhandled := Manager.handled_step hr.sound now hc c.id
      have hk := hhandled.holder_of_mem (Manager.mem_builtFor.mpr ⟨hk, rfl⟩)
      have hn := hhandled.holder_of_mem (Manager.mem_builtFor.mpr ⟨hn, hid.symm⟩)
      exact absurd (Option.some.inj (hk.symm.trans hn)) hne
  | tells _ _ _ _ _ ih =>
    intro k n c c' hk hn hid hne
    exact (ih k n c c' hk hn hid hne).imp (·.tell) (·.tell)
  | publishes _ _ _ _ _ _ ih => exact ih

/-! ## The last call -/

/-- The supervisor that called last for a tunnel has it registered, unless it has finished; and
whoever is active and was not aborted has called last, but perhaps for one that was aborted. -/
structure Registers (s : Supervision) : Prop where
  called : ∀ id n, s.log.caller? id = some n →
    ∃ c, (n, c) ∈ built s.acts ∧ c.id = id ∧ s.log.registered? id = (s.crew n).portAt c
  newest : ∀ n c, (n, c) ∈ built s.acts → (s.crew n).phase.isActive = true → .abort n ∉ s.acts →
    ∃ k, s.log.caller? c.id = some k ∧ (k = n ∨ .abort k ∈ s.acts)

theorem registers_new : Registers (new options createdAt host) where
  called := nofun
  newest := nofun

/-- A number stands for one configuration. -/
theorem config_unique (hs : s.manager.Sound s.acts) (hc : (n, c) ∈ built s.acts)
    (hc' : (n, c') ∈ built s.acts) : c = c' := by
  have h := hs.built_once (hs.recorded ▸ hc)
  rw [hs.built_once (hs.recorded ▸ hc')] at h
  cases h
  rfl

/-- Nothing changes as long as nobody registers or deregisters, and nobody begins or finishes. -/
theorem Registers.silent (hr : Registers s) (hacts : s'.acts = s.acts)
    (hcaller : ∀ id, s'.log.caller? id = s.log.caller? id)
    (hport : ∀ id, s'.log.registered? id = s.log.registered? id)
    (hcrew : ∀ n, (s.crew n).Drifts (s'.crew n)) : Registers s' where
  called id n hid := by
    rw [hacts]
    rw [hcaller] at hid
    obtain ⟨c, hc, hcid, hreg⟩ := hr.called id n hid
    refine ⟨c, hc, hcid, ?_⟩
    rw [hport, hreg]
    simp only [Supervisor.portAt, (hcrew n).finished]
  newest n c hc ha hn := by
    rw [hacts] at hc hn ⊢
    rw [hcaller]
    exact hr.newest n c hc ((hcrew n).active ha) hn

/-- A supervisor that had not finished calls for its tunnel: it calls last. -/
theorem Registers.speaks (hr : Registers s) (hs : s.manager.Sound s.acts) (hsingle : s.Single)
    (hn : (n, c) ∈ built s.acts) (hp : (s.crew n).phase ≠ .finished) (hacts : s'.acts = s.acts)
    (hcrew : ∀ k, k ≠ n → s'.crew k = s.crew k)
    (hcaller : ∀ id, s'.log.caller? id = if id = c.id then some n else s.log.caller? id)
    (hport : ∀ id, s'.log.registered? id =
      if id = c.id then (s'.crew n).portAt c else s.log.registered? id) : Registers s' where
  called id k hid := by
    rw [hacts]
    rw [hcaller] at hid
    rw [hport]
    by_cases h : id = c.id
    · rw [if_pos h] at hid ⊢
      cases hid
      exact ⟨c, hn, h.symm, rfl⟩
    · rw [if_neg h] at hid ⊢
      obtain ⟨c', hc', hid', hreg⟩ := hr.called id k hid
      have hkn : k ≠ n := by
        rintro rfl
        exact h (hid'.symm.trans (congrArg _ (config_unique hs hc' hn)))
      rw [hcrew k hkn]
      exact ⟨c', hc', hid', hreg⟩
  newest k c' hk ha habort := by
    rw [hacts] at hk habort ⊢
    rw [hcaller]
    by_cases hkn : k = n
    · subst hkn
      rw [config_unique hs hk hn, if_pos rfl]
      exact ⟨k, rfl, .inl rfl⟩
    · rw [hcrew k hkn] at ha
      split
      · next hid =>
        refine ⟨n, rfl, .inr ?_⟩
        -- both are on their way for one tunnel, so one of them was aborted
        rcases hsingle k n c' c hk hn hid hkn with (hgone | hgone) | (hgone | hgone)
        · exact absurd hgone habort
        · rw [hgone] at ha
          cases ha
        · exact hgone
        · exact absurd hgone hp
      · exact hr.newest k c' hk ha habort

theorem log_tell {event : SupervisorEvent} : (s.tell now n c event).log =
    ((((s.crew n).step now event).2.filterMap (SupervisorAct.call? c)).map
      fun call => (n, call)).reverse ++ s.log := rfl

theorem Registers.tell {event : SupervisorEvent} (hr : Registers s)
    (hs : s.manager.Sound s.acts) (hsingle : s.Single) (hn : (n, c) ∈ built s.acts) :
    Registers (s.tell now n c event) := by
  have hlog : (s.tell now n c event).log = _ := log_tell
  have hstepped := Supervisor.step_stepped c (s.crew n) now event
  have hself : (s.tell now n c event).crew n = _ := crew_tell_self
  have hothers : ∀ k, k ≠ n → (s.tell now n c event).crew k = s.crew k :=
    fun _ hk => crew_tell_of_ne hk
  rw [← hself] at hstepped
  generalize ((s.crew n).step now event).2.filterMap (SupervisorAct.call? c) = calls
    at hlog hstepped
  cases calls with
  | nil =>
    refine hr.silent rfl (fun id => by rw [hlog]; rfl) (fun id => by rw [hlog]; rfl) fun k => ?_
    by_cases hk : k = n
    · exact hk ▸ hstepped.drifts
    · rw [hothers k hk]
      exact Supervisor.drifts_refl _
  | cons =>
    refine hr.speaks hs hsingle hn hstepped.not_finished rfl hothers ?_ ?_
    all_goals
      intro id
      rw [hlog]
    · exact hstepped.caller?_log n s.log id
    · exact hstepped.registered?_log n s.log id

theorem Registers.manage {event : ManagerEvent} (hr : Registers s)
    (hs : (s.manage now event).manager.Sound (s.manage now event).acts) :
    Registers (s.manage now event) where
  called id n hid := by
    obtain ⟨c, hc, hid, hreg⟩ := hr.called id n hid
    rw [crew_manage_of_not_mem fun c' hc' => Manager.not_built_before hs hc hc']
    exact ⟨c, mem_built_manage.mpr (.inl hc), hid, hreg⟩
  newest n c hc ha hn := by
    rcases mem_built_manage.mp hc with hc | hc
    · rw [crew_manage_of_not_mem fun c' hc' => Manager.not_built_before hs hc hc'] at ha
      obtain ⟨k, hk, hkn⟩ := hr.newest n c hc ha fun h => hn (List.mem_append_left _ h)
      exact ⟨k, hk, hkn.imp_right (List.mem_append_left _)⟩
    · rw [crew_manage_of_mem hc] at ha
      cases ha

theorem Run.registers (hr : Run (new options createdAt host) h s) : Registers s := by
  induction hr with
  | start => exact registers_new
  | manages now event hr hc he ih => exact ih.manage (hr.manages now event hc he).sound
  | tells now event hr hn ho ih => exact ih.tell hr.sound hr.single hn
  | publishes n id health reason now _ ih =>
    exact ih.silent rfl (fun _ => rfl) (fun _ => rfl) fun _ => Supervisor.drifts_refl _

/-! ## What discovery says -/

theorem replayed_call (hs : s.discovery = s.log.replay host) (n : Nat)
    (calls : List DiscoveryCall) :
    (s.call n calls).discovery = (s.call n calls).log.replay host := by
  show calls.foldl Discovery.apply s.discovery = _
  rw [hs]
  exact (DiscoveryLog.replay_calls host s.log n calls).symm

/-- Discovery is what the calls have made of it. -/
theorem Run.replayed (hr : Run (new options createdAt host) h s) :
    s.discovery = s.log.replay host := by
  induction hr with
  | start => rfl
  | manages _ _ _ _ _ ih => exact ih
  | tells _ _ _ _ _ ih => exact replayed_call (by exact ih) _ _
  | publishes _ _ _ _ _ _ ih => exact replayed_call ih _ _

/-- The last call to the manager has returned, whoever it has started has begun and whoever it has
told to stop or has aborted has heard so, and those that are stopped are over. -/
structure Settled (s : Supervision) : Prop where
  returned : s.manager.phase = .free
  heard : s.orders = []
  ended : ∀ b ∈ built s.acts, (s.crew b.1).isStopped = true → (s.crew b.1).phase.isOver = true

/-- A supervisor that is to stop is over. -/
theorem Settled.isOver (hset : s.Settled) (hm : Manned h s n) (hn : (n, c) ∈ built s.acts)
    (hstop : .stop n ∈ s.acts ∨ s.manager.isEnding = true) : (s.crew n).phase.isOver = true := by
  refine hset.ended _ hn ((hm.heeds c hn hstop).resolve_right fun horder => ?_)
  rw [hset.heard] at horder
  cases horder

/-- A supervisor that has not been told to stop is active. -/
theorem Settled.active (hset : s.Settled) (hm : Manned h s n) (hn : (n, c) ∈ built s.acts)
    (hstop : .stop n ∉ s.acts) (hending : s.manager.isEnding = false) :
    (s.crew n).phase.isActive = true := by
  have hover : (s.crew n).phase.isOver ≠ true := by
    intro hover
    rcases hm.cancelled (hm.stopped (SupervisorPhase.hasLeft_of_isOver hover)) with h | h
    · exact hstop h
    · exact Bool.false_ne_true (hending.symm.trans h)
  cases hp : (s.crew n).phase with
  | idle =>
    have horder := hm.awaits c hn hp
    rw [hset.heard] at horder
    cases horder
  | registering | opening | running | resting _ | closing => rfl
  | finished | aborted =>
    rw [hp] at hover
    exact absurd rfl hover

/-- The supervisor that holds a tunnel was started for it, at its port. -/
theorem Run.built_of_held (hr : Run (new options createdAt host) h s) {t : SupervisedTunnel}
    (ht : s.manager.supervised.lookup id = some t) :
    ∃ c, (t.serial, c) ∈ built s.acts ∧ c.id = id ∧ c.tunnelPort = t.config.tunnelPort := by
  obtain ⟨c, hc, hlive⟩ := hr.sound.origin ht
  rw [← hr.sound.recorded] at hc
  obtain ⟨r, hmem, hserial, hid⟩ := hr.roster.known (Manager.holder_of_lookup ht)
  have hr' := Manager.build_mem_built hr.sound hmem
  rw [hserial] at hr'
  refine ⟨c, hc, ?_, TunnelConfig.tunnelPort_of_sameLive hlive⟩
  rw [config_unique hr.sound hc hr']
  exact hid

/-- The supervisor of this number was aborted and has not finished. -/
def IsDropped (s : Supervision) (n : Nat) : Prop :=
  .abort n ∈ s.acts ∧ (s.crew n).phase = .aborted

/-- A supervisor that called last and is to stop has its tunnel deregistered, unless it was
dropped. -/
theorem Run.registered_of_stop (hr : Run (new options createdAt host) h s) (hset : s.Settled)
    (hlast : s.log.caller? id = some n)
    (hstop : ∀ c, (n, c) ∈ built s.acts → c.id = id →
      .stop n ∈ s.acts ∨ s.manager.isEnding = true) :
    (s.log.registered? id).isSome = true ↔ s.IsDropped n := by
  obtain ⟨c, hc, hid, hreg⟩ := hr.registers.called id n hlast
  have hover := hset.isOver (hr.manned n) hc (hstop c hc hid)
  rw [hreg, Supervisor.portAt, IsDropped]
  cases hp : (s.crew n).phase with
  | finished => simp
  | aborted => simpa using (hr.manned n).aborted hp
  | idle | registering | opening | running | resting _ | closing =>
    rw [hp] at hover
    cases hover

/-- A tunnel that is not supervised is registered exactly if the supervisor that called last for it
was dropped; and so is any tunnel after the end of all has begun. -/
theorem Run.registered_of_not_held (hr : Run (new options createdAt host) h s) (hset : s.Settled)
    (hnone : s.manager.supervised.lookup id = none ∨ s.manager.isEnding = true) :
    (s.log.registered? id).isSome = true ↔ ∃ n, s.log.caller? id = some n ∧ s.IsDropped n := by
  cases hn : s.log.caller? id with
  | none =>
    rw [DiscoveryLog.registered?_of_caller? _ _ hn]
    exact iff_of_false Bool.false_ne_true fun ⟨_, h, _⟩ => nomatch h
  | some n =>
    have hstop : ∀ c, (n, c) ∈ built s.acts → c.id = id →
        .stop n ∈ s.acts ∨ s.manager.isEnding = true := by
      intro c hc hid
      rcases hnone with hnone | hending
      · rcases hr.manager.unleaked.held n c hc with ⟨t, ht, -⟩ | hstop | ⟨t, ht⟩
        · rw [hid, hnone] at ht
          cases ht
        · exact .inl hstop
        · exact .inr (hr.manager.heeding.begun t ht)
      · exact .inr hending
    rw [hr.registered_of_stop hset hn hstop]
    simp

/-- Before the end of all, a tunnel that is supervised is registered at its port, if the supervisor
that called last for it was not aborted. -/
theorem Run.registered_of_held (hr : Run (new options createdAt host) h s) (hset : s.Settled)
    {t : SupervisedTunnel} (ht : s.manager.supervised.lookup id = some t)
    (hending : s.manager.isEnding = false)
    (hlast : ∀ n, s.log.caller? id = some n → .abort n ∉ s.acts) :
    s.log.registered? id = some t.config.tunnelPort := by
  obtain ⟨c, hc, rfl, hport⟩ := hr.built_of_held ht
  have hheeding := hr.manager.heeding
  have hstop : .stop t.serial ∉ s.acts := by
    intro hstop
    have hend := hheeding.left c.id t.serial (Manager.holder_of_lookup ht) hstop
    exact Bool.false_ne_true (hending.symm.trans hend)
  have habort : .abort t.serial ∉ s.acts := fun h => hstop (hheeding.told _ h)
  have hactive := hset.active (hr.manned t.serial) hc hstop hending
  obtain ⟨k, hk, hkt⟩ := hr.registers.newest t.serial c hc hactive habort
  rw [hkt.resolve_right (hlast k hk)] at hk
  obtain ⟨c', hc', -, hreg⟩ := hr.registers.called c.id t.serial hk
  rw [hreg, config_unique hr.sound hc' hc, Supervisor.portAt,
    if_neg (SupervisorPhase.ne_finished_of_isActive hactive), hport]

/-- Discovery follows supervision, as far as nobody is aborted. -/
structure Discovered (host : String) (s : Supervision) : Prop where
  /-- A tunnel has an entry from its registration on, with what has been found since. -/
  told : ∀ id, s.discovery.details? id = (s.log.registered? id).map fun port =>
    Discovery.entry host port (s.log.verdict? id)
  /-- A supervised tunnel has an entry with its port. -/
  held : s.Settled → s.manager.isEnding = false → ∀ id t,
    s.manager.supervised.lookup id = some t →
    (∀ n, s.log.caller? id = some n → .abort n ∉ s.acts) →
    (s.discovery.details? id).map (·.port) = some t.config.tunnelPort
  /-- Another tunnel has none, unless one that was aborted has left it behind. -/
  left : s.Settled → ∀ id,
    s.manager.supervised.lookup id = none ∨ s.manager.isEnding = true →
    ((s.discovery.details? id).isSome = true ↔ ∃ n, s.log.caller? id = some n ∧ s.IsDropped n)

/-- Discovery follows supervision, whatever is listed and called for, whatever the supervisors do,
and whatever is found of their tunnels. -/
theorem discovered_of_run (hr : Run (new options createdAt host) h s) : Discovered host s where
  told id := by
    rw [hr.replayed]
    exact DiscoveryLog.details?_replay host s.log id
  held hset hending id t ht hlast := by
    rw [hr.replayed, DiscoveryLog.port_details?_replay]
    exact hr.registered_of_held hset ht hending hlast
  left hset id hnone := by
    rw [hr.replayed, DiscoveryLog.details?_replay, Option.isSome_map]
    exact hr.registered_of_not_held hset hnone

/-- A tunnel whose health is known and whose port changes: the entry is made anew. -/
theorem discovered_after_restart : ∃ h s, Run (new {} 0 "tunnels.local") h s ∧ s.Settled ∧
    Discovered "tunnels.local" s ∧ s.manager.isEnding = false ∧
    s.manager.supervised.lookup default = some ⟨.reverse ⟨default, default, false, 1⟩, 1⟩ ∧
    s.log.caller? default = some 1 ∧ .abort 1 ∉ s.acts ∧
    s.discovery.details? default = some ⟨"tunnels.local", 1, .unknown, none, none⟩ := by
  have h₁ := Run.manages 0 (.refreshed [default]) (@Run.start (new {} 0 "tunnels.local"))
    (by decide) (by nofun)
  have h₂ := h₁.manages 1 .reconcile (by decide +kernel) (by nofun)
  have h₃ := @Run.tells _ _ _ 2 0 default .start h₂ (by decide +kernel)
    (.inl (by decide +kernel))
  have hregistered := @Run.tells _ _ _ 2 0 default .goesOn h₃ (by decide +kernel)
    (.inr (.inl rfl))
  have h₄ := hregistered.publishes 0 default .unhealthy (some "connection refused") default
  have h₅ := h₄.manages 3 (.refreshed [.reverse ⟨default, default, false, 1⟩])
    (by decide +kernel) (by nofun)
  have h₆ := h₅.manages 4 .reconcile (by decide +kernel) (by nofun)
  have h₇ := @Run.tells _ _ _ 5 0 default .stop h₆ (by decide +kernel)
    (.inl (by decide +kernel))
  -- the first supervisor runs its tunnel, which returns, and leaves
  have h₈ := @Run.tells _ _ _ 6 0 default .goesOn h₇ (by decide +kernel) (.inr (.inl rfl))
  have h₉ := @Run.tells _ _ _ 7 0 default (.returned .returned) h₈ (by decide +kernel)
    (.inr (.inr (.inr ⟨_, rfl⟩)))
  have h₁₀ := @Run.tells _ _ _ 8 0 default .goesOn h₉ (by decide +kernel) (.inr (.inl rfl))
  have h₁₁ := @Run.tells _ _ _ 9 0 default .goesOn h₁₀ (by decide +kernel) (.inr (.inl rfl))
  have h₁₂ := h₁₁.manages 10 (.ended 0) nofun (by rintro _ ⟨⟩; decide +kernel)
  have h := @Run.tells _ _ _ 11 1 (.reverse ⟨default, default, false, 1⟩) .start h₁₂
    (by decide +kernel) (.inl (by decide +kernel))
  refine ⟨_, _, h, ⟨?_, ?_, ?_⟩, discovered_of_run h, ?_, ?_, ?_, ?_, ?_⟩ <;> decide +kernel

/-- A tunnel that is not wanted any more and does not heed its stop: its supervisor is aborted, and
its entry stays. -/
theorem listed_after_abort : ∃ h s, Run (new {} 0 "tunnels.local") h s ∧ s.Settled ∧
    s.manager.isEnding = false ∧ s.manager.supervised.lookup default = none ∧
    s.discovery.details? default = some ⟨"tunnels.local", 0, .unknown, none, none⟩ := by
  have h₁ := Run.manages 0 (.refreshed [default]) (@Run.start (new {} 0 "tunnels.local"))
    (by decide) (by nofun)
  have h₂ := h₁.manages 1 .reconcile (by decide +kernel) (by nofun)
  have h₃ := @Run.tells _ _ _ 2 0 default .start h₂ (by decide +kernel)
    (.inl (by decide +kernel))
  have hregistered := @Run.tells _ _ _ 2 0 default .goesOn h₃ (by decide +kernel)
    (.inr (.inl rfl))
  have h₄ := @Run.tells _ _ _ 3 0 default .goesOn hregistered (by decide +kernel)
    (.inr (.inl rfl))
  have h₅ := h₄.manages 4 (.refreshed []) (by decide +kernel) (by nofun)
  have h₆ := h₅.manages 5 .reconcile (by decide +kernel) (by nofun)
  have h₇ := @Run.tells _ _ _ 6 0 default .stop h₆ (by decide +kernel)
    (.inl (by decide +kernel))
  have h₈ := h₇.manages 5000000005 .timedOut nofun (by nofun)
  have h := @Run.tells _ _ _ 5000000006 0 default .abort h₈ (by decide +kernel)
    (.inl (by decide +kernel))
  refine ⟨_, _, h, ⟨?_, ?_, ?_⟩, ?_, ?_, ?_⟩ <;> decide +kernel

end Supervision
end SshTunnels
