import SshTunnels.Proofs.Manager.Restarting

/-!
# What a manager notes and waits for

An event stops some supervisors, ends some, and starts some: `started_step` says exactly what is
noted of each. Whoever is waited for, or is told to stop by a call, is waited for until it is over
(`awaited_step`), and no longer than until one timeout after the call (`patient_step`).
-/

namespace SshTunnels

namespace StartedSupervisor

/-- A supervisor that has just been started: it is born stopped when the end of all has begun. -/
def newcomer (isEnding : Bool) (b : Nat × TunnelConfig) : StartedSupervisor :=
  ⟨b.1, b.2, isEnding, false⟩

/-- What is known of a supervisor after an event at which the manager does `acts`. -/
def noting (event : ManagerEvent) (acts : List ManagerAct) (s : StartedSupervisor) :
    StartedSupervisor :=
  { s with
    isStopped := s.isStopped || decide (event = .endBegins ∨ .stop s.serial ∈ acts)
    isOver := s.isOver || decide (event = .ended s.serial ∨ .abort s.serial ∈ acts) }

variable {event : ManagerEvent} {acts : List ManagerAct} {s : StartedSupervisor}

theorem isStopped_noting : (s.noting event acts).isStopped = true ↔
    s.isStopped = true ∨ event = .endBegins ∨ .stop s.serial ∈ acts := by
  rw [noting, Bool.or_eq_true, decide_eq_true_iff]

theorem isOver_noting : (s.noting event acts).isOver = true ↔
    s.isOver = true ∨ event = .ended s.serial ∨ .abort s.serial ∈ acts := by
  rw [noting, Bool.or_eq_true, decide_eq_true_iff]

/-- An event that neither stops nor ends a supervisor. -/
theorem noting_eq_self (hs : ¬(event = .endBegins ∨ .stop s.serial ∈ acts))
    (ho : ¬(event = .ended s.serial ∨ .abort s.serial ∈ acts)) : s.noting event acts = s := by
  simp only [noting, decide_eq_false hs, decide_eq_false ho, Bool.or_false]

theorem noting_stopped (hs : event = .endBegins ∨ .stop s.serial ∈ acts)
    (ho : ¬(event = .ended s.serial ∨ .abort s.serial ∈ acts)) :
    s.noting event acts = { s with isStopped := true } := by
  simp only [noting, decide_eq_true hs, decide_eq_false ho, Bool.or_false, Bool.or_true]

theorem noting_over (hs : ¬(event = .endBegins ∨ .stop s.serial ∈ acts))
    (ho : event = .ended s.serial ∨ .abort s.serial ∈ acts) :
    s.noting event acts = { s with isOver := true } := by
  simp only [noting, decide_eq_false hs, decide_eq_true ho, Bool.or_false, Bool.or_true]

end StartedSupervisor

namespace ManagerPhase

/-- The supervisors that are waited for. -/
def waiting : ManagerPhase → List Nat
  | .free => []
  | .reconciling waiting _ | .ending waiting _ => waiting

end ManagerPhase

namespace Manager

variable {m m' : Manager} {acts acts' : List ManagerAct} {event : ManagerEvent} {id : Uuid}
  {n : Nat}

/-! ## What is noted of the supervisors -/

theorem started_ensure (m : Manager) (id : Uuid) (d : DesiredTunnel) :
    (ensure (m, []) id d).1.started = m.started ++
      (built (ensure (m, []) id d).2).map (.newcomer m.isEnding) := by
  cases hs : m.supervised.lookup id with
  | some s =>
    rw [ensure_of_some hs]
    exact (List.append_nil _).symm
  | none =>
    rw [ensure_of_none hs]
    rfl

theorem started_ensureAll (m : Manager) (ds : List (Uuid × DesiredTunnel)) :
    (ensureAll (m, []) ds).1.started = m.started ++
      (built (ensureAll (m, []) ds).2).map (.newcomer m.isEnding) := by
  induction ds generalizing m with
  | nil => exact (List.append_nil _).symm
  | cons e ds ih =>
    have hsplit := ensureAll_append (ensure (m, []) e.1 e.2).2 [] (ensure (m, []) e.1 e.2).1 ds
    rw [List.append_nil] at hsplit
    have hending := ensure_unchanged (·.isEnding) (fun _ _ _ => rfl) (m, []) e.1 e.2
    rw [show ensureAll (m, []) (e :: ds) = ensureAll (ensure (m, []) e.1 e.2) ds from rfl, hsplit,
      ih, started_ensure, hending, built_append, List.map_append, List.append_assoc]

theorem started_startMissing (m : Manager) : m.startMissing.1.started =
    m.started ++ (built m.startMissing.2).map (.newcomer m.isEnding) := by
  rw [startMissing_eq, built_append, built_gauge, List.append_nil]
  exact started_ensureAll m.cleared m.cleared.desired

/-- Marking supervisors as stopped is what an event notes that stops these and ends none. -/
theorem started_markStopped {which : Nat → Bool}
    (hs : ∀ n, which n = true ↔ event = .endBegins ∨ .stop n ∈ acts)
    (ho : ∀ n, ¬(event = .ended n ∨ .abort n ∈ acts)) :
    (m.markStopped which).started = m.started.map (.noting event acts) := by
  refine List.map_congr_left fun s _ => ?_
  cases hw : which s.serial with
  | true => exact (StartedSupervisor.noting_stopped ((hs _).mp hw) (ho _)).symm
  | false =>
    have hn := mt (hs s.serial).mpr (Bool.eq_false_iff.mp hw)
    exact (StartedSupervisor.noting_eq_self hn (ho _)).symm

/-- Marking supervisors as over is what an event notes that ends these and stops none. -/
theorem started_markOver {which : Nat → Bool}
    (hs : ∀ n, ¬(event = .endBegins ∨ .stop n ∈ acts))
    (ho : ∀ n, which n = true ↔ event = .ended n ∨ .abort n ∈ acts) :
    (m.markOver which).started = m.started.map (.noting event acts) := by
  refine List.map_congr_left fun s _ => ?_
  cases hw : which s.serial with
  | true => exact (StartedSupervisor.noting_over (hs _) ((ho _).mp hw)).symm
  | false =>
    have hn := mt (ho s.serial).mpr (Bool.eq_false_iff.mp hw)
    exact (StartedSupervisor.noting_eq_self (hs _) hn).symm

theorem started_unnoted (hs : ∀ n, ¬(event = .endBegins ∨ .stop n ∈ acts))
    (ho : ∀ n, ¬(event = .ended n ∨ .abort n ∈ acts)) :
    m.started.map (.noting event acts) = m.started :=
  List.map_id'' (fun _ => StartedSupervisor.noting_eq_self (hs _) (ho _)) m.started

theorem started_proceed (m : Manager) : m.proceed.1.started =
    m.started ++ (built m.proceed.2).map (.newcomer m.isEnding) := by
  simp only [proceed]
  split
  · exact started_startMissing m
  · exact (List.append_nil _).symm
  · exact (List.append_nil _).symm

/-- Going on neither stops nor aborts anyone. -/
theorem not_stop_of_mem_proceed {a : ManagerAct} (ha : a ∈ m.proceed.2) (n : Nat) :
    a ≠ .stop n ∧ a ≠ .abort n := by
  simp only [proceed] at ha
  split at ha
  · exact not_stop_of_mem_startMissing ha n
  · rw [List.mem_singleton.mp ha]
    constructor <;> rintro ⟨⟩
  · cases ha

theorem stop_mem_proceed_append (pre : List ManagerAct) :
    .stop n ∈ pre ++ m.proceed.2 ↔ .stop n ∈ pre := by
  rw [List.mem_append]
  exact or_iff_left fun hn => (not_stop_of_mem_proceed hn n).1 rfl

theorem abort_mem_proceed_append (pre : List ManagerAct) :
    .abort n ∈ pre ++ m.proceed.2 ↔ .abort n ∈ pre := by
  rw [List.mem_append]
  exact or_iff_left fun hn => (not_stop_of_mem_proceed hn n).2 rfl

theorem mem_aborts {serials : List Nat} :
    ManagerAct.abort n ∈ serials.map ManagerAct.abort ↔ n ∈ serials := by
  rw [List.mem_map]
  constructor
  · rintro ⟨k, hk, heq⟩
    cases heq
    exact hk
  · exact fun hn => ⟨n, hn, rfl⟩

theorem not_stop_of_mem_aborts {serials : List Nat} :
    ManagerAct.stop n ∉ serials.map ManagerAct.abort := by
  rw [List.mem_map]
  rintro ⟨k, -, heq⟩
  cases heq

/-- What is noted when supervisors are told to stop and the manager goes on. -/
theorem started_stops {m₁ : Manager} {serials : List Nat} (he : ∀ n, event ≠ .ended n)
    (hb : event ≠ .endBegins) (h₁ : m₁.started = (m.markStopped serials.contains).started)
    (hi : m₁.isEnding = m.isEnding) :
    m₁.proceed.1.started = m.started.map (.noting event (serials.map .stop ++ m₁.proceed.2)) ++
      (built (serials.map .stop ++ m₁.proceed.2)).map (.newcomer m.isEnding) := by
  rw [started_proceed, h₁, hi, built_append, built_stops, List.nil_append]
  congr 1
  refine started_markStopped (fun n => ?_) (fun n => ?_)
  · rw [stop_mem_proceed_append, mem_stops, List.contains_iff_mem]
    exact (or_iff_right hb).symm
  · rw [abort_mem_proceed_append]
    rintro (hn | hn)
    · exact he n hn
    · exact not_abort_of_mem_stops hn

/-- What is noted when supervisors are aborted and the manager goes on. -/
theorem started_aborts {m₁ : Manager} {serials : List Nat}
    (h₁ : m₁.started = (m.markOver serials.contains).started) (hi : m₁.isEnding = m.isEnding) :
    m₁.proceed.1.started =
      m.started.map (.noting .timedOut (serials.map .abort ++ m₁.proceed.2)) ++
        (built (serials.map .abort ++ m₁.proceed.2)).map (.newcomer m.isEnding) := by
  rw [started_proceed, h₁, hi, built_append, built_aborts, List.nil_append]
  congr 1
  refine started_markOver (fun n => ?_) (fun n => ?_)
  · rw [stop_mem_proceed_append]
    rintro (hn | hn)
    · cases hn
    · exact not_stop_of_mem_aborts hn
  · rw [abort_mem_proceed_append, mem_aborts, List.contains_iff_mem]
    exact (or_iff_right nofun).symm

/-- What is noted when a supervisor has ended and the manager goes on. -/
theorem started_ended {m₁ : Manager} {serial : Nat}
    (h₁ : m₁.started = (m.markOver (· == serial)).started) (hi : m₁.isEnding = m.isEnding) :
    m₁.proceed.1.started = m.started.map (.noting (.ended serial) m₁.proceed.2) ++
      (built m₁.proceed.2).map (.newcomer m.isEnding) := by
  rw [started_proceed, h₁, hi]
  congr 1
  refine started_markOver (fun n => ?_) (fun n => ?_)
  · rintro (hn | hn)
    · cases hn
    · exact (not_stop_of_mem_proceed hn n).1 rfl
  · constructor
    · intro hn
      exact .inl (congrArg _ (beq_iff_eq.mp hn).symm)
    · rintro (hn | hn)
      · cases hn
        exact beq_self_eq_true _
      · exact absurd rfl (not_stop_of_mem_proceed hn n).2

/-- What an event makes of the supervisors: it stops those that are told to stop, ends those that
have ended or are aborted, and adds those that are started. -/
theorem started_step (m : Manager) (now : Instant) (event : ManagerEvent) :
    (m.step now event).1.started = m.started.map (.noting event (m.step now event).2) ++
      (built (m.step now event).2).map (.newcomer m.isEnding) := by
  have hidle : ∀ event : ManagerEvent, event ≠ .endBegins → (∀ n, event ≠ .ended n) →
      m.started = m.started.map (.noting event []) ++
        (built ([] : List ManagerAct)).map (.newcomer m.isEnding) := by
    intro event hb he
    refine (List.append_nil _).symm.trans (congrArg (· ++ _) (started_unnoted ?_ ?_).symm)
    · rintro n (hn | hn)
      · exact hb hn
      · cases hn
    · rintro n (hn | hn)
      · exact he n hn
      · cases hn
  cases event with
  | refreshed l =>
    cases hp : m.phase <;> simp only [step, hp] <;> exact hidle _ (by simp) (by simp)
  | listingFailed e => exact hidle _ (by simp) (by simp)
  | reconcile =>
    cases hp : m.phase with
    | free =>
      simp only [step, hp]
      exact started_stops (by simp) (by simp) rfl rfl
    | reconciling _ _ | ending _ _ =>
      simp only [step, hp]
      exact hidle _ (by simp) (by simp)
  | shutdown =>
    cases hp : m.phase with
    | free =>
      simp only [step, hp]
      exact started_stops (by simp) (by simp) rfl rfl
    | reconciling _ _ | ending _ _ =>
      simp only [step, hp]
      exact hidle _ (by simp) (by simp)
  | endBegins =>
    simp only [step, built_stops, List.map_nil, List.append_nil]
    refine started_markStopped (fun n => iff_of_true rfl (.inl rfl)) (fun n => ?_)
    rintro (hn | hn)
    · cases hn
    · exact not_abort_of_mem_stops hn
  | ended serial =>
    cases hp : m.phase with
    | free =>
      simp only [step, hp]
      refine (started_markOver (fun n => ?_) fun n => ?_).trans (List.append_nil _).symm
      · rintro (hn | hn) <;> cases hn
      · rw [beq_iff_eq, ManagerEvent.ended.injEq, or_iff_left List.not_mem_nil, eq_comm]
    | reconciling _ _ | ending _ _ =>
      simp only [step, hp]
      exact started_ended rfl rfl
  | timedOut =>
    cases hp : m.phase with
    | free =>
      simp only [step, hp]
      exact hidle _ (by simp) (by simp)
    | reconciling _ _ | ending _ _ =>
      simp only [step, hp]
      split
      · exact started_aborts rfl rfl
      · exact hidle _ (by simp) (by simp)

/-! ## Who is waited for -/

theorem waiting_proceed (m : Manager) : m.proceed.1.phase.waiting = m.phase.waiting := by
  simp only [proceed]
  split
  · next hp =>
    rw [startMissing_phase, hp]
    rfl
  · next hp =>
    rw [hp]
    rfl
  · rfl

theorem mem_unfinished {serials : List Nat} {s : StartedSupervisor} (hn : s.serial ∈ serials)
    (hs : s ∈ m.started) (ho : s.isOver = false) : s.serial ∈ m.unfinished serials := by
  refine List.mem_filter.mpr ⟨hn, List.any_eq_true.mpr ⟨s, hs, ?_⟩⟩
  rw [beq_self_eq_true, ho]
  rfl

theorem mem_unfinished_release {gone : Uuid × SupervisedTunnel → Bool} {s : StartedSupervisor}
    (hn : s.serial ∈ (m.release gone).2) (hs : s ∈ m.started) (ho : s.isOver = false) :
    s.serial ∈ (m.release gone).1.unfinished (m.release gone).2 := by
  have hs' : { s with isStopped := true } ∈ (m.release gone).1.started := by
    refine List.mem_map.mpr ⟨s, hs, ?_⟩
    exact if_pos (List.contains_iff_mem.mpr hn)
  exact @mem_unfinished (m.release gone).1 _ { s with isStopped := true } hn hs' ho

/-- Whoever is waited for, or is told to stop by a call, is waited for until it is over. -/
theorem awaited_step {s : StartedSupervisor} {now : Instant} (hs : s ∈ m.started)
    (ho : (s.noting event (m.step now event).2).isOver = false)
    (hw : s.serial ∈ m.phase.waiting ∨
      event.isCall = true ∧ .stop s.serial ∈ (m.step now event).2) :
    s.serial ∈ (m.step now event).1.phase.waiting := by
  have hover := mt StartedSupervisor.isOver_noting.mpr (Bool.eq_false_iff.mp ho)
  have hs₀ : s.isOver = false := Bool.eq_false_iff.mpr fun h => hover (.inl h)
  have hend : event ≠ .ended s.serial := fun h => hover (.inr (.inl h))
  have habort : ManagerAct.abort s.serial ∉ (m.step now event).2 := fun h => hover (.inr (.inr h))
  clear hover ho
  cases event with
  | refreshed l =>
    cases hp : m.phase <;> simp only [hp, step, List.not_mem_nil, and_false, or_false] at hw ⊢ <;>
      first | exact hw | cases hw
  | listingFailed e => exact hw.elim id fun h => absurd h.1 Bool.false_ne_true
  | reconcile =>
    cases hp : m.phase with
    | free =>
      simp only [hp, step, stop_mem_proceed_append, mem_stops] at hw ⊢
      rw [waiting_proceed]
      exact mem_unfinished_release (hw.elim (fun h => absurd h List.not_mem_nil) And.right) hs hs₀
    | reconciling _ _ | ending _ _ =>
      simp only [hp, step, List.not_mem_nil, and_false, or_false] at hw ⊢
      exact hw
  | shutdown =>
    cases hp : m.phase with
    | free =>
      simp only [hp, step, stop_mem_proceed_append, mem_stops] at hw ⊢
      rw [waiting_proceed]
      exact mem_unfinished_release (hw.elim (fun h => absurd h List.not_mem_nil) And.right) hs hs₀
    | reconciling _ _ | ending _ _ =>
      simp only [hp, step, List.not_mem_nil, and_false, or_false] at hw ⊢
      exact hw
  | endBegins => exact hw.elim id fun h => absurd h.1 Bool.false_ne_true
  | ended serial =>
    have hw := hw.resolve_right fun h => absurd h.1 Bool.false_ne_true
    have hne : s.serial ≠ serial := fun h => hend (congrArg _ h.symm)
    cases hp : m.phase with
    | free =>
      rw [hp] at hw
      cases hw
    | reconciling waiting deadline | ending waiting deadline =>
      simp only [hp, step] at hw ⊢
      rw [waiting_proceed]
      exact (List.mem_erase_of_ne hne).mpr hw
  | timedOut =>
    have hw := hw.resolve_right fun h => absurd h.1 Bool.false_ne_true
    cases hp : m.phase with
    | free =>
      rw [hp] at hw
      cases hw
    | reconciling waiting deadline | ending waiting deadline =>
      simp only [hp, step] at hw habort ⊢
      split
      · next hd =>
        rw [if_pos hd] at habort
        exact absurd (List.mem_append_left _ (mem_aborts.mpr hw)) habort
      · rw [hp]
        exact hw

/-! ## The deadline -/

theorem options_proceed (m : Manager) : m.proceed.1.options = m.options := by
  simp only [proceed]
  split
  · exact ensureAll_unchanged (·.options) (fun _ _ _ => rfl) (m.cleared, []) m.cleared.desired
  · rfl
  · rfl

theorem due?_proceed {deadline : Instant} (hd : m.proceed.1.due? = some deadline) :
    m.due? = some deadline := by
  simp only [proceed] at hd
  split at hd
  · rw [due?, startMissing_phase] at hd
    cases hd
  · cases hd
  · exact hd

/-- What the manager waits for after an event: whoever it waited for before, or those that a call
has told to stop, for as long as the call says. -/
structure Patient (m m' : Manager) (now : Instant) (event : ManagerEvent)
    (acts : List ManagerAct) : Prop where
  unchanged : m'.options = m.options
  told : ∀ n ∈ m'.phase.waiting, n ∈ m.phase.waiting ∨ .stop n ∈ acts
  due : ∀ deadline, m'.due? = some deadline →
    if event.isCall then deadline = now.after m.options.stopTimeout else m.due? = some deadline
  aborts : ∀ n, .abort n ∈ acts →
    n ∈ m.phase.waiting ∧ ∃ deadline, m.due? = some deadline ∧ deadline ≤ now

/-- The manager waits as before. -/
theorem patient_idle (m : Manager) (now : Instant) (hc : event.isCall = true → m.phase = .free) :
    Patient m m now event [] where
  unchanged := rfl
  told := fun _ hn => .inl hn
  due := by
    intro deadline hd
    split
    · next h =>
      rw [due?, hc h] at hd
      cases hd
    · exact hd
  aborts := nofun

theorem patient_calls {m₁ : Manager} {now : Instant} {serials : List Nat}
    (hc : event.isCall = true) (ho : m₁.options = m.options) (hw : m₁.phase.waiting ⊆ serials)
    (hd : m₁.due? = some (now.after m.options.stopTimeout)) :
    Patient m m₁.proceed.1 now event (serials.map .stop ++ m₁.proceed.2) where
  unchanged := (options_proceed m₁).trans ho
  told := by
    intro n hn
    rw [waiting_proceed] at hn
    exact .inr (List.mem_append_left _ (mem_stops.mpr (hw hn)))
  due := by
    intro deadline hdue
    rw [if_pos hc]
    exact Option.some.inj ((due?_proceed hdue).symm.trans hd)
  aborts := by
    intro n hn
    rw [abort_mem_proceed_append] at hn
    exact absurd hn not_abort_of_mem_stops

theorem patient_goes_on {m₁ : Manager} {now : Instant} (aborted : List Nat)
    (hc : event.isCall = false) (ho : m₁.options = m.options)
    (hw : m₁.phase.waiting ⊆ m.phase.waiting) (hd : m₁.due? = m.due?)
    (ha : ∀ n ∈ aborted,
      n ∈ m.phase.waiting ∧ ∃ deadline, m.due? = some deadline ∧ deadline ≤ now) :
    Patient m m₁.proceed.1 now event (aborted.map .abort ++ m₁.proceed.2) where
  unchanged := (options_proceed m₁).trans ho
  told := by
    intro n hn
    rw [waiting_proceed] at hn
    exact .inl (hw hn)
  due := by
    intro deadline hdue
    rw [hc]
    exact hd.symm.trans (due?_proceed hdue)
  aborts := by
    intro n hn
    rw [abort_mem_proceed_append] at hn
    exact ha n (mem_aborts.mp hn)

theorem patient_step (m : Manager) (now : Instant) (hc : event.isCall = true → m.phase = .free) :
    Patient m (m.step now event).1 now event (m.step now event).2 := by
  cases event with
  | refreshed l =>
    have hf := hc rfl
    simp only [step, hf]
    have h := patient_idle m now hc
    exact ⟨rfl, h.told, h.due, h.aborts⟩
  | listingFailed e => exact patient_idle m now hc
  | reconcile =>
    simp only [step, hc rfl]
    exact patient_calls rfl rfl (unfinished_subset _ _) rfl
  | shutdown =>
    simp only [step, hc rfl]
    exact patient_calls rfl rfl (unfinished_subset _ _) rfl
  | endBegins =>
    refine ⟨rfl, fun _ hn => .inl hn, fun _ hd => hd, fun n hn => ?_⟩
    exact absurd hn not_abort_of_mem_stops
  | ended serial =>
    cases hp : m.phase with
    | free =>
      simp only [step, hp]
      exact ⟨rfl, fun _ hn => .inl hn, fun _ hd => hd, fun _ hn => absurd hn List.not_mem_nil⟩
    | reconciling waiting deadline | ending waiting deadline =>
      simp only [step, hp]
      refine patient_goes_on [] rfl rfl ?_ ?_ (List.forall_mem_nil _)
      · rw [hp]
        exact List.erase_subset
      · simp only [due?, hp]
  | timedOut =>
    cases hp : m.phase with
    | free =>
      simp only [step, hp]
      exact patient_idle m now hc
    | reconciling waiting deadline | ending waiting deadline =>
      have hdue : m.due? = some deadline := by simp only [due?, hp]
      simp only [step, hp]
      split
      · next hd =>
        refine patient_goes_on waiting rfl rfl (List.nil_subset _) hdue.symm ?_
        intro n hn
        rw [hp]
        exact ⟨hn, deadline, hdue, hd⟩
      · exact patient_idle m now hc

end Manager
end SshTunnels
