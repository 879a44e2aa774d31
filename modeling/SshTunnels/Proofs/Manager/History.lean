import SshTunnels.Manager

/-!
# Histories of a manager

What can happen to a manager, in any order and at any time. Calls to refresh, reconcile and shut
down take turns: one that comes while the manager waits for supervisors is taken up when it is free
again, and stands at that place in the history. Supervisors end, deadlines pass, listings fail and
the end of all supervisors begins whenever they like.

`step_effect` says once what an event can do to a manager. All that is proved of runs is proved
along its cases.
-/

namespace SshTunnels

/-- What has happened to a manager, each event with its moment, the latest first. -/
abbrev ManagerHistory := List (Instant × ManagerEvent)

namespace ManagerEvent

/-- A call, which needs the manager for itself. -/
def isCall : ManagerEvent → Bool
  | .refreshed _ | .reconcile | .shutdown => true
  | .listingFailed _ | .ended _ | .timedOut | .endBegins => false

/-- A refresh that got no list. -/
def isFailedListing : ManagerEvent → Bool
  | .listingFailed _ => true
  | _ => false

end ManagerEvent

namespace ManagerHistory

/-- The list that was taken over last; before the first one nothing is desired. -/
def listing : ManagerHistory → List TunnelConfig
  | [] => []
  | (_, .refreshed l) :: _ => l
  | _ :: h => listing h

/-- The lists that have been taken over since the last reconciliation began, the latest first. -/
def unreconciled : ManagerHistory → List (List TunnelConfig)
  | [] => []
  | (_, .reconcile) :: _ => []
  | (_, .refreshed l) :: h => l :: unreconciled h
  | _ :: h => unreconciled h

/-- The last call is a reconciliation. -/
def isReconciled : ManagerHistory → Bool
  | [] => false
  | (_, .reconcile) :: _ => true
  | (_, .refreshed _) :: _ | (_, .shutdown) :: _ => false
  | _ :: h => isReconciled h

variable {event : ManagerEvent}

/-! An event that is no call has no part in what was listed and called for. -/

theorem listing_of_not_call (hc : event.isCall = false) (now : Instant) (h : ManagerHistory) :
    listing ((now, event) :: h) = h.listing := by
  cases event <;> first | rfl | cases hc

theorem unreconciled_of_not_call (hc : event.isCall = false) (now : Instant) (h : ManagerHistory) :
    unreconciled ((now, event) :: h) = h.unreconciled := by
  cases event <;> first | rfl | cases hc

theorem isReconciled_of_not_call (hc : event.isCall = false) (now : Instant) (h : ManagerHistory) :
    isReconciled ((now, event) :: h) = h.isReconciled := by
  cases event <;> first | rfl | cases hc

end ManagerHistory

namespace StartedSupervisor

/-- The number of a supervisor and the configuration that its tunnel was built from. -/
def build (s : StartedSupervisor) : Nat × TunnelConfig :=
  (s.serial, s.config)

end StartedSupervisor

namespace ManagerAct

/-- The supervisor that an act starts, and the configuration that its tunnel is built from. -/
def build? : ManagerAct → Option (Nat × TunnelConfig)
  | .start serial config => some (serial, config)
  | _ => none

/-- The number of tunnels that an act reports. -/
def gauge? : ManagerAct → Option Nat
  | .gauge count => some count
  | _ => none

end ManagerAct

namespace Manager

/-- `Run m₀ h m acts`: the events of `h` have brought a manager from `m₀` to `m`, and on the way it
has done `acts`. -/
inductive Run (m₀ : Manager) : ManagerHistory → Manager → List ManagerAct → Prop where
  | start : Run m₀ [] m₀ []
  | next {h : ManagerHistory} {m : Manager} {acts : List ManagerAct} (now : Instant)
      (event : ManagerEvent) : Run m₀ h m acts → (event.isCall = true → m.phase = .free) →
      Run m₀ ((now, event) :: h) (m.step now event).1 (acts ++ (m.step now event).2)

/-! ## What an event can do -/

/-- The supervisors that have to be stopped, by number. -/
def staleSerials (m : Manager) : List Nat :=
  (m.release fun e => m.isStale e.1 e.2).2

/-- The manager without the supervisors that have to be stopped. -/
def keep (m : Manager) : Manager :=
  { m with supervised := m.supervised.filter fun e => !m.isStale e.1 e.2 }

/-- The tunnels that have been built, each with the number of its supervisor. -/
def builds (m : Manager) : List (Nat × TunnelConfig) :=
  m.started.map (·.build)

/-- Two managers have the same tunnels and have built the same; what is noted of the ends of
supervisors may differ. -/
structure Alike (m m' : Manager) : Prop where
  desired : m'.desired = m.desired
  supervised : m'.supervised = m.supervised
  builds : m'.builds = m.builds

/-- A phase that goes on, perhaps with fewer supervisors to wait for. -/
inductive Continues : ManagerPhase → ManagerPhase → Prop where
  | free : Continues .free .free
  | reconciling {waiting waiting' : List Nat} {deadline deadline' : Instant} :
      waiting' ⊆ waiting →
      Continues (.reconciling waiting deadline) (.reconciling waiting' deadline')
  | ending {waiting waiting' : List Nat} {deadline deadline' : Instant} :
      Continues (.ending waiting deadline) (.ending waiting' deadline')

/-- What an event makes of a manager, and what the manager does then. -/
inductive Effect (m : Manager) : ManagerEvent → Manager → List ManagerAct → Prop where
  /-- A list is taken over. -/
  | refreshed (now : Instant) (l : List TunnelConfig) :
      m.phase = .free → Effect m (.refreshed l) (m.refresh now l) []
  /-- Something is noted, and the manager goes on as it was. -/
  | noted {event : ManagerEvent} {m' : Manager} {serials : List Nat} :
      event.isCall = false → m.Alike m' → Continues m.phase m'.phase →
      (serials ≠ [] → event = .endBegins) → Effect m event m' (serials.map .stop)
  /-- A reconciliation begins and has to wait. -/
  | waits {m' : Manager} {waiting : List Nat} {deadline : Instant} :
      m.phase = .free → m.keep.Alike m' → m'.phase = .reconciling waiting deadline →
      waiting ⊆ m.staleSerials → Effect m .reconcile m' (m.staleSerials.map .stop)
  /-- A reconciliation goes through without waiting. -/
  | passes {m₁ : Manager} {deadline : Instant} :
      m.phase = .free → m.keep.Alike m₁ → m₁.phase = .reconciling [] deadline →
      Effect m .reconcile m₁.startMissing.1 (m.staleSerials.map .stop ++ m₁.startMissing.2)
  /-- The wait of a reconciliation is over. -/
  | resumes {event : ManagerEvent} {m₁ : Manager} {waiting aborted : List Nat}
      {deadline deadline' : Instant} :
      event.isCall = false → event ≠ .endBegins → m.phase = .reconciling waiting deadline →
      m.Alike m₁ → m₁.phase = .reconciling [] deadline' → aborted ⊆ waiting →
      Effect m event m₁.startMissing.1 (aborted.map .abort ++ m₁.startMissing.2)
  /-- A shutdown begins and has to wait. -/
  | leaves {m' : Manager} {serials waiting : List Nat} {deadline : Instant} :
      m.phase = .free → { m with supervised := [] }.Alike m' →
      m'.phase = .ending waiting deadline → Effect m .shutdown m' (serials.map .stop)
  /-- A shutdown goes through without waiting. -/
  | leavesAtOnce {m' : Manager} {serials : List Nat} :
      m.phase = .free → { m with supervised := [] }.Alike m' → m'.phase = .free →
      Effect m .shutdown m' (serials.map .stop ++ [.gauge 0])
  /-- The wait of a shutdown is over. -/
  | isGone {event : ManagerEvent} {m' : Manager} {waiting aborted : List Nat} {deadline : Instant} :
      event.isCall = false → m.phase = .ending waiting deadline → m.Alike m' → m'.phase = .free →
      Effect m event m' (aborted.map .abort ++ [.gauge 0])

namespace Alike

theorem refl (m : Manager) : m.Alike m := ⟨rfl, rfl, rfl⟩

theorem trans {a b c : Manager} (hab : a.Alike b) (hbc : b.Alike c) : a.Alike c :=
  ⟨hbc.desired.trans hab.desired, hbc.supervised.trans hab.supervised,
    hbc.builds.trans hab.builds⟩

end Alike

/-! Notes about supervisors and the phase leave a manager alike. -/

theorem builds_map {f : StartedSupervisor → StartedSupervisor} (hf : ∀ s, (f s).build = s.build)
    (l : List StartedSupervisor) : (l.map f).map (·.build) = l.map (·.build) := by
  rw [List.map_map]
  exact List.map_congr_left fun s _ => hf s

theorem alike_markStopped (m : Manager) (which : Nat → Bool) : m.Alike (m.markStopped which) :=
  ⟨rfl, rfl, builds_map (fun s => by split <;> rfl) m.started⟩

theorem alike_markOver (m : Manager) (which : Nat → Bool) : m.Alike (m.markOver which) :=
  ⟨rfl, rfl, builds_map (fun s => by split <;> rfl) m.started⟩

theorem alike_setPhase (m : Manager) (phase : ManagerPhase) : m.Alike { m with phase } :=
  ⟨rfl, rfl, rfl⟩

theorem alike_release (m : Manager) (gone : Uuid × SupervisedTunnel → Bool) :
    { m with supervised := m.supervised.filter fun e => !gone e }.Alike (m.release gone).1 :=
  alike_markStopped _ _

theorem unfinished_subset (m : Manager) (serials : List Nat) : m.unfinished serials ⊆ serials :=
  List.filter_sublist.subset

/-! The calls and the other events, one by one. -/

-- the lemmas that follow are checked side by side and share the equations of `step` made here
attribute [local simp] step

theorem effect_reconcile {m : Manager} (now : Instant) (hf : m.phase = .free) :
    m.Effect .reconcile (m.step now .reconcile).1 (m.step now .reconcile).2 := by
  have hk : ∀ phase, m.keep.Alike { (m.release fun e => m.isStale e.1 e.2).1 with phase } :=
    fun phase => (m.alike_release _).trans (alike_setPhase _ _)
  have hs := unfinished_subset (m.release fun e => m.isStale e.1 e.2).1 m.staleSerials
  simp only [step, hf]
  cases hw : (m.release fun e => m.isStale e.1 e.2).1.unfinished m.staleSerials with
  | nil =>
    rw [staleSerials] at hw
    simp only [hw, proceed]
    exact .passes hf (hk _) rfl
  | cons n waiting =>
    rw [hw] at hs
    rw [staleSerials] at hw
    simp only [hw, proceed, List.append_nil]
    exact .waits hf (hk _) rfl hs

theorem effect_shutdown {m : Manager} (now : Instant) (hf : m.phase = .free) :
    m.Effect .shutdown (m.step now .shutdown).1 (m.step now .shutdown).2 := by
  have hnone : (m.supervised.filter fun _ => !true) = [] :=
    List.filter_eq_nil_iff.mpr fun _ _ => Bool.false_ne_true
  have hk : ∀ phase, { m with supervised := [] }.Alike
      { (m.release fun _ => true).1 with phase } := fun phase => hnone ▸
    (m.alike_release fun _ => true).trans (alike_setPhase _ phase)
  simp only [step, hf]
  cases hw : (m.release fun _ => true).1.unfinished (m.release fun _ => true).2 with
  | nil =>
    simp only [proceed]
    exact .leavesAtOnce hf (hk _) rfl
  | cons n waiting =>
    simp only [proceed, List.append_nil]
    exact .leaves hf (hk _) rfl

theorem continues_refl (phase : ManagerPhase) : Continues phase phase := by
  cases phase with
  | free => exact .free
  | reconciling waiting deadline => exact .reconciling (List.Subset.refl _)
  | ending waiting deadline => exact .ending

theorem free_of_continues {phase phase' : ManagerPhase} (h : Continues phase phase')
    (hp : phase' = .free) : phase = .free := by
  subst hp
  cases h
  rfl

theorem reconciling_of_continues {phase phase' : ManagerPhase} {waiting' : List Nat}
    {deadline' : Instant} (h : Continues phase phase')
    (hp : phase' = .reconciling waiting' deadline') :
    ∃ waiting deadline, phase = .reconciling waiting deadline ∧ waiting' ⊆ waiting := by
  subst hp
  cases h with
  | reconciling hw => exact ⟨_, _, rfl, hw⟩

theorem ending_of_continues {phase phase' : ManagerPhase} {waiting' : List Nat}
    {deadline' : Instant} (h : Continues phase phase') (hp : phase' = .ending waiting' deadline') :
    ∃ waiting deadline, phase = .ending waiting deadline := by
  subst hp
  cases h
  exact ⟨_, _, rfl⟩

/-- An event at which the manager does nothing but take a note. -/
theorem effect_silent {m m' : Manager} {event : ManagerEvent} (hc : event.isCall = false)
    (ha : m.Alike m') (hp : Continues m.phase m'.phase) : m.Effect event m' [] :=
  @Effect.noted m event m' [] hc ha hp (fun h => absurd rfl h)

/-- An event that changes nothing. -/
theorem effect_nothing (m : Manager) {event : ManagerEvent} (hc : event.isCall = false) :
    m.Effect event m [] :=
  effect_silent hc (.refl m) (continues_refl _)

theorem effect_ended (m : Manager) (now : Instant) (serial : Nat) :
    m.Effect (.ended serial) (m.step now (.ended serial)).1 (m.step now (.ended serial)).2 := by
  have hk : ∀ phase, m.Alike { m.markOver (· == serial) with phase } := fun phase =>
    (m.alike_markOver _).trans (alike_setPhase _ _)
  cases hp : m.phase with
  | free =>
    simp only [step, hp]
    refine effect_silent rfl (m.alike_markOver _) ?_
    rw [show (m.markOver (· == serial)).phase = m.phase from rfl, hp]
    exact .free
  | reconciling waiting deadline =>
    simp only [step, hp]
    cases hw : waiting.erase serial with
    | nil =>
      simp only [proceed]
      exact @Effect.resumes m _ _ _ [] _ _ rfl nofun hp (hk _) rfl (List.nil_subset _)
    | cons n rest =>
      simp only [proceed]
      refine effect_silent rfl (hk _) ?_
      rw [hp, ← hw]
      exact .reconciling List.erase_subset
  | ending waiting deadline =>
    simp only [step, hp]
    cases hw : waiting.erase serial with
    | nil =>
      simp only [proceed]
      exact @Effect.isGone m _ _ _ [] _ rfl hp (hk _) rfl
    | cons n rest =>
      simp only [proceed]
      refine effect_silent rfl (hk _) ?_
      rw [hp]
      exact .ending

theorem effect_timedOut (m : Manager) (now : Instant) :
    m.Effect .timedOut (m.step now .timedOut).1 (m.step now .timedOut).2 := by
  have hk : ∀ (waiting : List Nat) phase, m.Alike { m.markOver waiting.contains with phase } :=
    fun waiting _ => (m.alike_markOver waiting.contains).trans (alike_setPhase _ _)
  cases hp : m.phase with
  | free =>
    simp only [step, hp]
    exact effect_nothing m rfl
  | reconciling waiting deadline =>
    simp only [step, hp]
    split
    · exact .resumes rfl nofun hp (hk waiting _) rfl (List.Subset.refl _)
    · exact effect_nothing m rfl
  | ending waiting deadline =>
    simp only [step, hp]
    split
    · exact .isGone rfl hp (hk waiting _) rfl
    · exact effect_nothing m rfl

theorem effect_endBegins (m : Manager) (now : Instant) :
    m.Effect .endBegins (m.step now .endBegins).1 (m.step now .endBegins).2 := by
  simp only [step]
  exact .noted rfl ((show m.Alike { m with isEnding := true } from ⟨rfl, rfl, rfl⟩).trans
    (alike_markStopped _ _)) (continues_refl _) (fun _ => rfl)

/-- What an event makes of a manager that can take it up is one of the effects. -/
theorem step_effect {m : Manager} {event : ManagerEvent} (now : Instant)
    (hc : event.isCall = true → m.phase = .free) :
    m.Effect event (m.step now event).1 (m.step now event).2 := by
  cases event with
  | refreshed l =>
    simp only [step, hc rfl]
    exact .refreshed now l (hc rfl)
  | listingFailed e =>
    simp only [step]
    exact effect_nothing m rfl
  | reconcile => exact effect_reconcile now (hc rfl)
  | ended serial => exact effect_ended m now serial
  | timedOut => exact effect_timedOut m now
  | endBegins => exact effect_endBegins m now
  | shutdown => exact effect_shutdown now (hc rfl)

/-! ## Histories and runs -/

namespace Run

variable {m₀ m m' : Manager} {h : ManagerHistory} {acts acts' : List ManagerAct}

/-- A history determines the manager and what it has done. -/
theorem unique (hr : Run m₀ h m acts) (hr' : Run m₀ h m' acts') : m' = m ∧ acts' = acts := by
  induction hr generalizing m' acts' with
  | start =>
    cases hr'
    exact ⟨rfl, rfl⟩
  | next now event _ _ ih =>
    cases hr' with
    | next _ _ hr' _ =>
      obtain ⟨rfl, rfl⟩ := ih hr'
      exact ⟨rfl, rfl⟩

/-- Listings that fail may as well not have been asked for. -/
theorem erase_failed (hr : Run m₀ h m acts) :
    Run m₀ (h.filter fun e => !e.2.isFailedListing) m acts := by
  induction hr with
  | start => exact .start
  | @next h m acts now event _ hc ih =>
    cases hf : event.isFailedListing with
    | true =>
      rw [List.filter_cons_of_neg (by simp [hf])]
      cases event with
      | listingFailed e =>
        simp only [step, List.append_nil]
        exact ih
      | _ => exact absurd hf Bool.false_ne_true
    | false =>
      rw [List.filter_cons_of_pos (by simp [hf])]
      exact .next now event ih hc

end Run

end Manager
end SshTunnels
