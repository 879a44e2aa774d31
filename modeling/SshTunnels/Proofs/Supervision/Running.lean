import Mathlib.Logic.Function.Basic
import SshTunnels.Proofs.Manager.Stopping
import SshTunnels.Proofs.Supervision.Steps

/-!
# A manager and its supervisors

A manager runs together with the supervisors that it starts. What it tells them is on its way for
any time and may be overtaken, runs and probes are over and supervisors go on at any time, and
whoever probes a tunnel may note its health at any time. The manager learns that a supervisor has
ended only when it has finished.

`Run.manned` says what the supervisors have to do with the acts of the manager: whoever is started
begins once it hears so, and whoever is to stop has been told so, or is on the way to hear it.
-/

namespace SshTunnels

namespace ManagerAct

/-- What an act tells a supervisor, by its number. -/
def order? : ManagerAct → Option (Nat × SupervisorEvent)
  | .stop serial => some (serial, .stop)
  | .abort serial => some (serial, .abort)
  | .start serial _ => some (serial, .start)
  | .gauge _ => none

end ManagerAct

/-- A manager with all it has done, its supervisors by number with what they have been told and have
not heard yet, and discovery with the calls it has had. -/
structure Supervision where
  manager : Manager
  acts : List ManagerAct := []
  crew : Nat → Supervisor
  orders : List (Nat × SupervisorEvent) := []
  discovery : Discovery
  log : DiscoveryLog := []

namespace Supervision

open Manager (built)

/-- A new manager, before anything is supervised. -/
def new (options : ManagerOptions) (createdAt : Instant) (host : String) : Supervision where
  manager := { options, createdAt }
  crew _ := { retry := options.restartInterval, conncheck := options.conncheck }
  discovery := { host }

/-- An event happens to the manager. Whoever it starts is there, and will hear so. -/
def manage (s : Supervision) (now : Instant) (event : ManagerEvent) : Supervision :=
  let (m, acts) := s.manager.step now event
  { s with
    manager := m
    acts := s.acts ++ acts
    crew := fun n =>
      if n ∈ (built acts).map (·.1) then
        { retry := m.options.restartInterval, conncheck := m.options.conncheck
          isStopped := m.isEnding }
      else s.crew n
    orders := s.orders ++ acts.filterMap ManagerAct.order? }

/-- Supervisor `n` calls discovery. -/
def call (s : Supervision) (n : Nat) (calls : List DiscoveryCall) : Supervision :=
  { s with
    discovery := calls.foldl Discovery.apply s.discovery
    log := (calls.map fun call => (n, call)).reverse ++ s.log }

/-- An event happens to supervisor `n`, whose tunnel has configuration `c`. -/
def tell (s : Supervision) (now : Instant) (n : Nat) (c : TunnelConfig) (event : SupervisorEvent) :
    Supervision :=
  let (supervisor, acts) := (s.crew n).step now event
  { s with
    crew := Function.update s.crew n supervisor
    orders := s.orders.erase (n, event) }.call n (acts.filterMap (SupervisorAct.call? c))

/-- What can happen to a supervisor: it hears what it has been told, it goes on, or its run or the
probing of its tunnel is over. -/
def MayHappen (s : Supervision) (n : Nat) (event : SupervisorEvent) : Prop :=
  (n, event) ∈ s.orders ∨ event = .goesOn ∨ event = .probeOver ∨
    ∃ outcome, event = .returned outcome

/-- `Run s₀ h s`: with the events of `h` for the manager, and whatever has happened to its
supervisors in the meantime, supervision has come from `s₀` to `s`. -/
inductive Run (s₀ : Supervision) : ManagerHistory → Supervision → Prop where
  | start : Run s₀ [] s₀
  | manages {h : ManagerHistory} {s : Supervision} (now : Instant) (event : ManagerEvent) :
      Run s₀ h s → (event.isCall = true → s.manager.phase = .free) →
      (∀ n, event = .ended n → (s.crew n).phase = .finished) →
      Run s₀ ((now, event) :: h) (s.manage now event)
  | tells {h : ManagerHistory} {s : Supervision} (now : Instant) {n : Nat} {c : TunnelConfig}
      (event : SupervisorEvent) : Run s₀ h s → (n, c) ∈ built s.acts → s.MayHappen n event →
      Run s₀ h (s.tell now n c event)
  | publishes {h : ManagerHistory} {s : Supervision} (n : Nat) (id : Uuid) (health : TunnelHealth)
      (reason : Option String) (now : Timestamp) : Run s₀ h s →
      Run s₀ h (s.call n [.updateHealth id health reason now])

variable {options : ManagerOptions} {createdAt : Instant} {host : String} {h : ManagerHistory}
  {s : Supervision} {n k : Nat} {c : TunnelConfig} {event : ManagerEvent}

/-- The manager's part of a run is a run of the manager. -/
theorem Run.manager (hr : Run (new options createdAt host) h s) :
    Manager.Run { options, createdAt } h s.manager s.acts := by
  induction hr with
  | start => exact .start
  | manages now event _ hc _ ih => exact ih.next now event hc
  | tells _ _ _ _ _ ih => exact ih
  | publishes _ _ _ _ _ _ ih => exact ih

theorem Run.sound (hr : Run (new options createdAt host) h s) : s.manager.Sound s.acts :=
  (hr.manager.books (Manager.books_new options createdAt)).sound

theorem Run.roster (hr : Run (new options createdAt host) h s) : s.manager.Roster :=
  hr.manager.roster (Manager.books_new options createdAt) (Manager.roster_new options createdAt)

/-! ## Orders -/

/-- An order that one act alone gives has been given exactly if the act was done. -/
theorem order_iff {acts : List ManagerAct} {a : ManagerAct} {order : Nat × SupervisorEvent}
    (ha : a.order? = some order) (hone : ∀ b : ManagerAct, b.order? = some order → b = a) :
    order ∈ acts.filterMap ManagerAct.order? ↔ a ∈ acts := by
  rw [List.mem_filterMap]
  constructor
  · rintro ⟨b, hb, heq⟩
    exact hone b heq ▸ hb
  · exact fun hmem => ⟨a, hmem, ha⟩

theorem order_stop {acts : List ManagerAct} :
    (n, .stop) ∈ acts.filterMap ManagerAct.order? ↔ .stop n ∈ acts := by
  refine order_iff rfl fun b hb => ?_
  cases b <;> cases hb
  rfl

theorem order_abort {acts : List ManagerAct} :
    (n, .abort) ∈ acts.filterMap ManagerAct.order? ↔ .abort n ∈ acts := by
  refine order_iff rfl fun b hb => ?_
  cases b <;> cases hb
  rfl

theorem start_mem_of_built {acts : List ManagerAct} (hn : (n, c) ∈ built acts) :
    .start n c ∈ acts := by
  obtain ⟨a, ha, heq⟩ := List.mem_filterMap.mp hn
  cases a <;> cases heq
  exact ha

theorem order_start {acts : List ManagerAct} (hn : (n, c) ∈ built acts) :
    (n, .start) ∈ acts.filterMap ManagerAct.order? :=
  List.mem_filterMap.mpr ⟨_, start_mem_of_built hn, rfl⟩

/-- Nothing is on its way to a supervisor but what the manager has told it. -/
theorem Run.orders_subset (hr : Run (new options createdAt host) h s) :
    s.orders ⊆ s.acts.filterMap ManagerAct.order? := by
  induction hr with
  | start => exact List.nil_subset _
  | @manages h s now event _ _ _ ih =>
    show s.orders ++ _ ⊆ (s.acts ++ _).filterMap ManagerAct.order?
    rw [List.filterMap_append]
    refine List.append_subset.mpr ⟨?_, List.subset_append_right _ _⟩
    exact List.Subset.trans ih (List.subset_append_left _ _)
  | tells _ _ _ _ _ ih => exact List.Subset.trans List.erase_subset ih
  | publishes _ _ _ _ _ _ ih => exact ih

/-- Stops and aborts are orders. -/
theorem Run.order_mem (hr : Run (new options createdAt host) h s) {event : SupervisorEvent}
    (ho : s.MayHappen n event) (he : event = .stop ∨ event = .abort) :
    (n, event) ∈ s.acts.filterMap ManagerAct.order? := by
  rcases ho with ho | rfl | rfl | ⟨_, rfl⟩
  · exact hr.orders_subset ho
  all_goals rcases he with he | he <;> cases he

/-! ## The crew -/

/-- Supervisor `n` is as the manager's acts say. -/
structure Manned (h : ManagerHistory) (s : Supervision) (n : Nat) : Prop where
  spawned : (s.crew n).phase ≠ .idle → ∃ c, (n, c) ∈ built s.acts
  awaits : ∀ c, (n, c) ∈ built s.acts → (s.crew n).phase = .idle → (n, .start) ∈ s.orders
  aborted : (s.crew n).phase = .aborted → .abort n ∈ s.acts
  cancelled : (s.crew n).isStopped = true → .stop n ∈ s.acts ∨ s.manager.isEnding = true
  stopped : (s.crew n).phase.hasLeft = true → (s.crew n).isStopped = true
  heeds : ∀ c, (n, c) ∈ built s.acts → .stop n ∈ s.acts ∨ s.manager.isEnding = true →
    (s.crew n).isStopped = true ∨ (n, .stop) ∈ s.orders
  ended : ∀ t, (t, .ended n) ∈ h → (s.crew n).phase = .finished

theorem manned_new : Manned [] (new options createdAt host) n where
  spawned hn := absurd rfl hn
  awaits := nofun
  aborted := nofun
  cancelled := nofun
  stopped := nofun
  heeds := nofun
  ended := nofun

/-! ### An event for a supervisor -/

section Tell

variable {now : Instant} {event : SupervisorEvent}

theorem crew_tell_self : (s.tell now n c event).crew n = ((s.crew n).step now event).1 :=
  Function.update_self ..

theorem crew_tell_of_ne (hk : k ≠ n) : (s.tell now n c event).crew k = s.crew k :=
  Function.update_of_ne hk ..

theorem mem_orders_tell {e : Nat × SupervisorEvent} (he : e ≠ (n, event)) :
    e ∈ (s.tell now n c event).orders ↔ e ∈ s.orders :=
  List.mem_erase_of_ne he

/-- The others do not notice. -/
theorem Manned.tell_of_ne (hm : Manned h s k) (hk : k ≠ n) :
    Manned h (s.tell now n c event) k := by
  have hne : ∀ e : SupervisorEvent, (k, e) ≠ (n, event) := fun _ heq => hk (congrArg Prod.fst heq)
  have hcrew : (s.tell now n c event).crew k = s.crew k := crew_tell_of_ne hk
  exact {
    spawned := hcrew ▸ hm.spawned
    awaits := fun c' hn hp => (mem_orders_tell (hne _)).mpr (hm.awaits c' hn (hcrew ▸ hp))
    aborted := hcrew ▸ hm.aborted
    cancelled := hcrew ▸ hm.cancelled
    stopped := hcrew ▸ hm.stopped
    heeds := fun c' hn hs => by
      rw [hcrew]
      exact (hm.heeds c' hn hs).imp_right (mem_orders_tell (hne _)).mpr
    ended := hcrew ▸ hm.ended }

theorem Manned.tell_self (hm : Manned h s n) (hn : (n, c) ∈ built s.acts)
    (hstop : event = .stop → .stop n ∈ s.acts)
    (habort : event = .abort → .abort n ∈ s.acts ∧ .stop n ∈ s.acts) :
    Manned h (s.tell now n c event) n where
  spawned _ := ⟨c, hn⟩
  awaits c' hn' hidle := by
    rw [crew_tell_self] at hidle
    obtain ⟨hidle, hne⟩ := Supervisor.idle_of_step hidle
    exact (mem_orders_tell fun heq => hne (congrArg Prod.snd heq).symm).mpr
      (hm.awaits c' hn' hidle)
  aborted hp := by
    rw [crew_tell_self] at hp
    rcases (Supervisor.step_stepped c (s.crew n) now event).aborted hp with he | hp
    · exact (habort he).1
    · exact hm.aborted hp
  cancelled hs := by
    rw [crew_tell_self, Supervisor.isStopped_step] at hs
    rcases hs with hs | he | ⟨he, -⟩
    · exact hm.cancelled hs
    · exact .inl (hstop he)
    · exact .inl (habort he).2
  stopped hp := by
    rw [crew_tell_self] at hp ⊢
    exact (Supervisor.step_stepped c (s.crew n) now event).stopped hm.stopped hp
  heeds c' hn' hs := by
    rw [crew_tell_self, Supervisor.isStopped_step]
    rcases hm.heeds c' hn' hs with hs | horder
    · exact .inl (.inl hs)
    · by_cases he : event = .stop
      · exact .inl (.inr (.inl he))
      · exact .inr ((mem_orders_tell fun heq => he (congrArg Prod.snd heq).symm).mpr horder)
  ended t ht := by
    rw [crew_tell_self]
    exact ((Supervisor.step_stepped c (s.crew n) now event).of_finished (hm.ended t ht)).1

end Tell

/-! ### An event for the manager -/

section Manage

variable {now : Instant}

theorem crew_manage_of_mem (hn : (n, c) ∈ built (s.manager.step now event).2) :
    (s.manage now event).crew n =
      { retry := (s.manage now event).manager.options.restartInterval
        conncheck := (s.manage now event).manager.options.conncheck
        isStopped := (s.manage now event).manager.isEnding } :=
  if_pos (List.mem_map_of_mem hn)

theorem crew_manage_of_not_mem (hn : ∀ c, (n, c) ∉ built (s.manager.step now event).2) :
    (s.manage now event).crew n = s.crew n := by
  refine if_neg fun hmem => ?_
  obtain ⟨b, hb, rfl⟩ := List.mem_map.mp hmem
  exact hn b.2 hb

theorem acts_manage : (s.manage now event).acts = s.acts ++ (s.manager.step now event).2 := rfl

theorem mem_built_manage : (n, c) ∈ built (s.manage now event).acts ↔
    (n, c) ∈ built s.acts ∨ (n, c) ∈ built (s.manager.step now event).2 := by
  rw [acts_manage, Manager.built_append, List.mem_append]

/-- Whoever is told to stop has been started before. -/
theorem Run.built_of_stop (hr : Run (new options createdAt host) h s)
    (hn : .stop n ∈ (s.manage now event).acts) : ∃ c, (n, c) ∈ built s.acts := by
  have hstarted : ∃ t ∈ s.manager.started, t.serial = n := by
    rcases List.mem_append.mp hn with hn | hn
    · exact hr.manager.heeding.started n hn
    · rcases Manager.told_step hr.sound now hn with ⟨-, id, hid⟩ | ⟨-, hmem⟩
      · obtain ⟨t, ht, hserial, -⟩ := hr.roster.known hid
        exact ⟨t, ht, hserial⟩
      · exact hmem
  obtain ⟨t, ht, rfl⟩ := hstarted
  exact ⟨t.config, Manager.build_mem_built hr.sound ht⟩

/-- Whoever has just been started was not there before. -/
theorem not_built_of_mem (hs : (s.manage now event).manager.Sound (s.manage now event).acts)
    (hn : (n, c) ∈ built (s.manager.step now event).2) : ¬∃ c, (n, c) ∈ built s.acts :=
  fun ⟨_, hold⟩ => Manager.not_built_before hs hold hn

/-- Whoever the manager knows to have ended has finished, and was there before. -/
theorem Manned.finished_of_ended (hm : Manned h s n)
    (he : event = .ended n → (s.crew n).phase = .finished) {t : Instant}
    (ht : (t, .ended n) ∈ (now, event) :: h) :
    (s.crew n).phase = .finished ∧ ∃ c, (n, c) ∈ built s.acts := by
  have hp : (s.crew n).phase = .finished := by
    rcases List.mem_cons.mp ht with ht | ht
    · cases ht
      exact he rfl
    · exact hm.ended t ht
  refine ⟨hp, hm.spawned ?_⟩
  rw [hp]
  nofun

/-- A supervisor that is there when the end of all begins is stopped, or will hear it. -/
theorem Manned.heeds_endBegins (hr : Run (new options createdAt host) h s) (hm : Manned h s n)
    (hn : (n, c) ∈ built s.acts) :
    (s.crew n).isStopped = true ∨ (n, .stop) ∈ (s.manage now .endBegins).orders := by
  obtain ⟨t, ht, rfl, rfl⟩ := Manager.exists_started hr.sound hn
  cases hover : t.isOver with
  | false =>
    have hstop := order_stop.mpr (Manager.stop_mem_endBegins ht hover now)
    exact .inr (List.mem_append_right _ hstop)
  | true =>
    rcases hr.manager.truthful.ended t ht hover with habort | ⟨since, u, before, _, _, _, hh, -, -⟩
    · have hstop := hr.manager.heeding.told _ habort
      exact (hm.heeds _ hn (.inl hstop)).imp_right (List.mem_append_left _)
    · have hp := hm.ended u (hh ▸ List.mem_append_right _ List.mem_cons_self)
      refine .inl (hm.stopped ?_)
      rw [hp]
      rfl

theorem Manned.manage_new (hr : Run (new options createdAt host) h s) (hm : Manned h s n)
    (hs : (s.manage now event).manager.Sound (s.manage now event).acts)
    (he : event = .ended n → (s.crew n).phase = .finished)
    (hn : (n, c) ∈ built (s.manager.step now event).2) :
    Manned ((now, event) :: h) (s.manage now event) n := by
  have hfresh := not_built_of_mem hs hn
  have hcrew := crew_manage_of_mem hn
  exact {
    spawned := fun _ => ⟨c, mem_built_manage.mpr (.inr hn)⟩
    awaits := fun _ _ _ => List.mem_append_right _ (order_start hn)
    aborted := by
      rw [hcrew]
      nofun
    cancelled := by
      rw [hcrew]
      exact .inr
    stopped := by
      rw [hcrew]
      nofun
    heeds := by
      intro c' _ hstop
      rw [hcrew]
      rcases hstop with hstop | hending
      · exact absurd (hr.built_of_stop hstop) hfresh
      · exact .inl hending
    ended := fun t ht => absurd (hm.finished_of_ended he ht).2 hfresh }

theorem Manned.manage_old (hr : Run (new options createdAt host) h s) (hm : Manned h s n)
    (he : event = .ended n → (s.crew n).phase = .finished)
    (hn : ∀ c, (n, c) ∉ built (s.manager.step now event).2) :
    Manned ((now, event) :: h) (s.manage now event) n := by
  have hold : ∀ {c}, (n, c) ∈ built (s.manage now event).acts → (n, c) ∈ built s.acts :=
    fun hmem => (mem_built_manage.mp hmem).resolve_right (hn _)
  have hcrew : (s.manage now event).crew n = s.crew n := crew_manage_of_not_mem hn
  exact {
    spawned := by
      rw [hcrew]
      intro hp
      obtain ⟨c, hc⟩ := hm.spawned hp
      exact ⟨c, mem_built_manage.mpr (.inl hc)⟩
    awaits := by
      rw [hcrew]
      exact fun c hc hp => List.mem_append_left _ (hm.awaits c (hold hc) hp)
    aborted := by
      rw [hcrew]
      exact fun hp => List.mem_append_left _ (hm.aborted hp)
    cancelled := by
      rw [hcrew]
      intro hstop
      rcases hm.cancelled hstop with hstop | hending
      · exact .inl (List.mem_append_left _ hstop)
      · exact .inr ((Manager.isEnding_step now).mpr (.inl hending))
    stopped := hcrew ▸ hm.stopped
    heeds := by
      intro c hc hstop
      rw [hcrew]
      have hbefore : .stop n ∈ s.acts ∨ s.manager.isEnding = true →
          (s.crew n).isStopped = true ∨ (n, .stop) ∈ (s.manage now event).orders :=
        fun hstop => (hm.heeds c (hold hc) hstop).imp_right (List.mem_append_left _)
      rcases hstop with hstop | hending
      · rcases List.mem_append.mp hstop with hstop | hstop
        · exact hbefore (.inl hstop)
        · exact .inr (List.mem_append_right _ (order_stop.mpr hstop))
      · rcases (Manager.isEnding_step now).mp hending with hending | rfl
        · exact hbefore (.inr hending)
        · exact hm.heeds_endBegins hr (hold hc)
    ended := fun t ht => hcrew ▸ (hm.finished_of_ended he ht).1 }

end Manage

/-- At every moment every supervisor is as the manager's acts say. -/
theorem Run.manned (hr : Run (new options createdAt host) h s) (n : Nat) : Manned h s n := by
  induction hr with
  | start => exact manned_new
  | @manages h s now event hr hc he ih =>
    by_cases hn : ∃ c, (n, c) ∈ built (s.manager.step now event).2
    · obtain ⟨c, hn⟩ := hn
      exact ih.manage_new hr (hr.manages now event hc he).sound (he n) hn
    · exact ih.manage_old hr (he n) (not_exists.mp hn)
  | @tells h s now k c event hr hk ho ih =>
    by_cases hkn : n = k
    · subst hkn
      refine ih.tell_self hk ?_ ?_
      · rintro rfl
        exact order_stop.mp (hr.order_mem ho (.inl rfl))
      · rintro rfl
        have habort := order_abort.mp (hr.order_mem ho (.inr rfl))
        exact ⟨habort, hr.manager.heeding.told n habort⟩
    · exact ih.tell_of_ne hkn
  | publishes k id health reason now _ ih =>
    exact ⟨ih.spawned, ih.awaits, ih.aborted, ih.cancelled, ih.stopped, ih.heeds, ih.ended⟩

end Supervision
end SshTunnels
