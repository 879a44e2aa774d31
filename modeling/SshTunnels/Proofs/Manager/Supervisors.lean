import SshTunnels.Proofs.Manager.Notes

/-!
# The supervisors of a manager

No supervisor is leaked or doubled. A supervisor that has not been told to stop is the one that its
tunnel is held by, so there is never a second one; a supervisor that has not ended is that one, or
is waited for; so no other is started for its tunnel before it has returned or has been aborted.

`handled_step` says what an event does to the number that a tunnel is held by. Everything else
follows along a run (`Roster`, `Truthful`, `Waits`).
-/

namespace SshTunnels

namespace ManagerHistory

/-- When the last call was taken up. -/
def called? : ManagerHistory → Option Instant
  | [] => none
  | (now, event) :: h => if event.isCall then some now else called? h

end ManagerHistory

namespace Manager

variable {m m' : Manager} {acts acts' : List ManagerAct} {event : ManagerEvent} {id : Uuid}
  {n : Nat}

/-! ## Who holds a tunnel -/

/-- The number of the supervisor that a tunnel is held by. -/
def holder? (m : Manager) (id : Uuid) : Option Nat :=
  (m.supervised.lookup id).map (·.serial)

/-- What an event, at which the manager does `acts`, does to the holder of a tunnel, and what is
built for the tunnel. -/
inductive Handled (event : ManagerEvent) (acts : List ManagerAct) :
    Option Nat → Option Nat → List (Nat × TunnelConfig) → Prop where
  | stays {holder : Option Nat} : Handled event acts holder holder []
  | leaves {n : Nat} : event.isCall = true → .stop n ∈ acts → Handled event acts (some n) none []
  | begins {holder : Option Nat} {n : Nat} {c : TunnelConfig} :
      (∀ k, holder = some k → event.isCall = true ∧ .stop k ∈ acts) →
      Handled event acts holder (some n) [(n, c)]

/-- A holder that has stayed or left is followed by whoever serves the tunnel. -/
theorem Handled.served {holder : Option Nat} {od : Option DesiredTunnel}
    {os : Option SupervisedTunnel} {bs : List (Nat × TunnelConfig)}
    (h : Handled event acts holder (m.holder? id) []) (hs : Served m id od os bs) :
    Handled event acts holder (os.map (·.serial)) bs := by
  cases hs with
  | ignored => exact h
  | kept hs =>
    rw [holder?, hs] at h
    exact h
  | begun hs _ =>
    rw [holder?, hs] at h
    cases h with
    | stays => exact .begins nofun
    | leaves hc hstop =>
      refine .begins ?_
      rintro k ⟨⟩
      exact ⟨hc, hstop⟩

theorem builtFor_of_built_eq_nil (h : built acts = []) (id : Uuid) : builtFor acts id = [] := by
  rw [builtFor, h]
  rfl

theorem handled_keep (h : Sound m acts) (ha : m.keep.Alike m') (hc : event.isCall = true)
    (hstops : ∀ n ∈ m.staleSerials, .stop n ∈ acts') (id : Uuid) :
    Handled event acts' (m.holder? id) (m'.holder? id) [] := by
  rw [holder?, holder?, ha.supervised, lookup_keep h]
  cases hs : m.supervised.lookup id with
  | none => exact .stays
  | some s =>
    cases hstale : m.isStale id s with
    | true =>
      rw [Option.filter_some, hstale]
      exact .leaves hc (hstops _ ((mem_staleSerials h hs).mpr hstale))
    | false =>
      rw [Option.filter_some, hstale]
      exact .stays

theorem handled_alike (ha : m.Alike m') (id : Uuid) :
    Handled event acts (m.holder? id) (m'.holder? id) [] := by
  rw [holder?, holder?, ha.supervised]
  exact .stays

/-- Whoever holds a tunnel is told to stop by a shutdown. -/
theorem stop_mem_shutdown (hf : m.phase = .free) (hn : m.holder? id = some n) (now : Instant) :
    .stop n ∈ (m.step now .shutdown).2 := by
  obtain ⟨s, hs, rfl⟩ := Option.map_eq_some_iff.mp hn
  simp only [step, hf]
  rw [stop_mem_proceed_append, mem_stops]
  exact List.mem_map_of_mem (List.mem_filter.mpr ⟨mem_of_lookup hs, rfl⟩)

theorem handled_effect (h : Sound m acts) (he : m.Effect event m' acts')
    (hs : event = .shutdown → ∀ n, m.holder? id = some n → .stop n ∈ acts') :
    Handled event acts' (m.holder? id) (m'.holder? id) (builtFor acts' id) := by
  -- a tunnel that no supervisor is held for after a shutdown has lost its holder
  have hleaves : ∀ {m' : Manager}, event = .shutdown → { m with supervised := [] }.Alike m' →
      Handled event acts' (m.holder? id) (m'.holder? id) [] := by
    intro m' hevent ha
    rw [show m'.holder? id = none by rw [holder?, ha.supervised]; rfl]
    cases hn : m.holder? id with
    | none => exact .stays
    | some n => exact .leaves (hevent ▸ rfl) (hs hevent n hn)
  cases he with
  | refreshed now l _ => exact .stays
  | noted _ ha _ _ =>
    rw [builtFor_of_built_eq_nil (built_stops _)]
    exact handled_alike ha id
  | waits _ ha _ _ =>
    rw [builtFor_of_built_eq_nil (built_stops _)]
    exact handled_keep h ha rfl (fun n hn => mem_stops.mpr hn) id
  | passes _ ha _ =>
    rw [builtFor_append, builtFor_of_built_eq_nil (built_stops _), List.nil_append]
    refine (handled_keep h ha rfl (fun n hn => ?_) id).served
      (served_startMissing (h.keep.of_alike ha) id)
    exact List.mem_append_left _ (mem_stops.mpr hn)
  | resumes _ _ _ ha _ _ =>
    rw [builtFor_append, builtFor_of_built_eq_nil (built_aborts _), List.nil_append]
    exact (handled_alike ha id).served (served_startMissing (h.of_alike ha) id)
  | leaves _ ha _ =>
    rw [builtFor_of_built_eq_nil (built_stops _)]
    exact hleaves rfl ha
  | leavesAtOnce _ ha _ =>
    rw [builtFor_append, builtFor_of_built_eq_nil (built_stops _)]
    exact hleaves rfl ha
  | isGone _ _ ha _ =>
    rw [builtFor_append, builtFor_of_built_eq_nil (built_aborts _)]
    exact handled_alike ha id

theorem handled_step (h : Sound m acts) (now : Instant) (hc : event.isCall = true → m.phase = .free)
    (id : Uuid) : Handled event (m.step now event).2 (m.holder? id)
      ((m.step now event).1.holder? id) (builtFor (m.step now event).2 id) := by
  refine handled_effect h (step_effect now hc) ?_
  rintro rfl n hn
  exact stop_mem_shutdown (hc rfl) hn now

/-! ## The roster -/

/-- Who holds a tunnel has been started for it. A supervisor that has not been told to stop holds
its tunnel, and one that is not over holds its tunnel or is waited for. -/
structure Roster (m : Manager) : Prop where
  known : ∀ {id n}, m.holder? id = some n → ∃ s ∈ m.started, s.serial = n ∧ s.config.id = id
  holding : ∀ s ∈ m.started, s.isStopped = false → m.holder? s.config.id = some s.serial
  awaited : ∀ s ∈ m.started, s.isOver = false →
    m.holder? s.config.id = some s.serial ∨ s.serial ∈ m.phase.waiting

theorem mem_builtFor {b : Nat × TunnelConfig} :
    b ∈ builtFor acts id ↔ b ∈ built acts ∧ b.2.id = id := by
  rw [builtFor, List.mem_filter, beq_iff_eq]

/-- Whoever is started holds its tunnel. -/
theorem Handled.holder_of_mem {holder holder' : Option Nat} {bs : List (Nat × TunnelConfig)}
    (h : Handled event acts holder holder' bs) {b : Nat × TunnelConfig} (hb : b ∈ bs) :
    holder' = some b.1 := by
  cases h with
  | stays => cases hb
  | leaves _ _ => cases hb
  | begins _ => rw [List.mem_singleton.mp hb]

/-- A holder stays, unless a call tells it to stop. -/
theorem Handled.of_some {holder' : Option Nat} {bs : List (Nat × TunnelConfig)}
    (h : Handled event acts (some n) holder' bs) :
    holder' = some n ∨ event.isCall = true ∧ .stop n ∈ acts := by
  cases h with
  | stays => exact .inl rfl
  | leaves hc hstop => exact .inr ⟨hc, hstop⟩
  | begins hstop => exact .inr (hstop n rfl)

/-- Every supervisor after an event was there before, or is started by it and holds its tunnel. -/
theorem mem_started_step (h : Sound m acts) (now : Instant)
    (hc : event.isCall = true → m.phase = .free) {s' : StartedSupervisor}
    (hs' : s' ∈ (m.step now event).1.started) :
    (∃ s ∈ m.started, s.noting event (m.step now event).2 = s') ∨
      ∃ b ∈ built (m.step now event).2, StartedSupervisor.newcomer m.isEnding b = s' ∧
        (m.step now event).1.holder? b.2.id = some b.1 := by
  rw [started_step] at hs'
  rcases List.mem_append.mp hs' with hs' | hs'
  · exact .inl (List.mem_map.mp hs')
  · obtain ⟨b, hb, heq⟩ := List.mem_map.mp hs'
    have hmem := mem_builtFor.mpr ⟨hb, rfl⟩
    exact .inr ⟨b, hb, heq, (handled_step h now hc b.2.id).holder_of_mem hmem⟩

theorem Roster.step (h : Roster m) (hb : Sound m acts) (now : Instant)
    (hc : event.isCall = true → m.phase = .free) : Roster (m.step now event).1 where
  known := by
    intro id n hn
    have hh := handled_step hb now hc id
    rw [hn] at hh
    rw [started_step]
    generalize hho : m.holder? id = holder, hbs : builtFor (m.step now event).2 id = bs at hh
    cases hh with
    | stays =>
      obtain ⟨s, hs, hserial, hid⟩ := h.known hho
      exact ⟨s.noting event _, List.mem_append_left _ (List.mem_map_of_mem hs), hserial, hid⟩
    | @begins _ _ c _ =>
      have hmem := mem_builtFor.mp (hbs ▸ List.mem_singleton_self (n, c))
      exact ⟨_, List.mem_append_right _ (List.mem_map_of_mem hmem.1), rfl, hmem.2⟩
  holding := by
    intro s' hs' hstop
    rcases mem_started_step hb now hc hs' with ⟨s, hs, rfl⟩ | ⟨b, -, rfl, hholds⟩
    · have hn := mt StartedSupervisor.isStopped_noting.mpr (Bool.eq_false_iff.mp hstop)
      have hold := h.holding s hs (Bool.eq_false_iff.mpr fun h => hn (.inl h))
      refine (Handled.of_some (hold ▸ handled_step hb now hc s.config.id)).resolve_right ?_
      exact fun hstop => hn (.inr (.inr hstop.2))
    · exact hholds
  awaited := by
    intro s' hs' hover
    rcases mem_started_step hb now hc hs' with ⟨s, hs, rfl⟩ | ⟨b, -, rfl, hholds⟩
    · have hn := mt StartedSupervisor.isOver_noting.mpr (Bool.eq_false_iff.mp hover)
      rcases h.awaited s hs (Bool.eq_false_iff.mpr fun h => hn (.inl h)) with hold | hwait
      · rcases Handled.of_some (hold ▸ handled_step hb now hc s.config.id) with hstays | hstop
        · exact .inl hstays
        · exact .inr (awaited_step (s := s) hs hover (.inr hstop))
      · exact .inr (awaited_step (s := s) hs hover (.inl hwait))
    · exact .inl hholds

theorem roster_new (options : ManagerOptions) (createdAt : Instant) :
    Roster { options, createdAt } where
  known := nofun
  holding := nofun
  awaited := nofun

variable {m₀ : Manager} {h : ManagerHistory}

theorem Run.roster (hr : Run m₀ h m acts) (hb : Books m₀ []) (h₀ : Roster m₀) : Roster m := by
  induction hr with
  | start => exact h₀
  | next now event hr hc ih => exact ih.step (hr.books hb).sound now hc

/-! ## What the notes are worth -/

/-- The stop token of a supervisor is cancelled: it has been told to stop, or the end of all
supervisors has begun. -/
def Cancelled (h : ManagerHistory) (acts : List ManagerAct) (n : Nat) : Prop :=
  .stop n ∈ acts ∨ ∃ t, (t, ManagerEvent.endBegins) ∈ h

/-- A supervisor has been aborted, or has returned since it was started. -/
def Gone (m₀ : Manager) (h : ManagerHistory) (acts : List ManagerAct) (n : Nat) : Prop :=
  .abort n ∈ acts ∨ ∃ since t before m acts c,
    h = since ++ (t, .ended n) :: before ∧ Run m₀ before m acts ∧ (n, c) ∈ built acts

theorem Cancelled.mono (hn : Cancelled h acts n) (e : Instant × ManagerEvent)
    (more : List ManagerAct) : Cancelled (e :: h) (acts ++ more) n := by
  rcases hn with hn | ⟨t, ht⟩
  · exact .inl (List.mem_append_left _ hn)
  · exact .inr ⟨t, List.mem_cons_of_mem _ ht⟩

theorem Gone.mono (hn : Gone m₀ h acts n) (e : Instant × ManagerEvent) (more : List ManagerAct) :
    Gone m₀ (e :: h) (acts ++ more) n := by
  rcases hn with hn | ⟨since, t, before, m, acts', c, rfl, hr, hc⟩
  · exact .inl (List.mem_append_left _ hn)
  · exact .inr ⟨e :: since, t, before, m, acts', c, rfl, hr, hc⟩

/-- What is noted of supervisors has happened to them. -/
structure Truthful (m₀ : Manager) (h : ManagerHistory) (m : Manager) (acts : List ManagerAct) :
    Prop where
  stopped : ∀ s ∈ m.started, s.isStopped = true → Cancelled h acts s.serial
  ended : ∀ s ∈ m.started, s.isOver = true → Gone m₀ h acts s.serial
  isEnding : m.isEnding = true → ∃ t, (t, ManagerEvent.endBegins) ∈ h

theorem isEnding_proceed (m : Manager) : m.proceed.1.isEnding = m.isEnding := by
  simp only [proceed]
  split
  · exact ensureAll_unchanged (·.isEnding) (fun _ _ _ => rfl) (m.cleared, []) m.cleared.desired
  · rfl
  · rfl

/-- The end of all supervisors begins when it is called for, and is never taken back. -/
theorem isEnding_step (now : Instant) :
    (m.step now event).1.isEnding = true ↔ m.isEnding = true ∨ event = .endBegins := by
  cases event with
  | endBegins => exact iff_of_true rfl (.inr rfl)
  | listingFailed e => exact (or_iff_left (by simp)).symm
  | refreshed l =>
    rw [or_iff_left (by simp)]
    cases hp : m.phase with
    | free =>
      simp only [step, hp]
      rfl
    | reconciling _ _ | ending _ _ => simp only [step, hp]
  | reconcile | shutdown =>
    rw [or_iff_left (by simp)]
    cases hp : m.phase with
    | free =>
      simp only [step, hp]
      rw [isEnding_proceed]
      rfl
    | reconciling _ _ | ending _ _ => simp only [step, hp]
  | ended serial =>
    rw [or_iff_left (by simp)]
    cases hp : m.phase <;> simp only [step, hp]
    · rfl
    all_goals
      rw [isEnding_proceed]
      rfl
  | timedOut =>
    rw [or_iff_left (by simp)]
    cases hp : m.phase <;> simp only [step, hp]
    all_goals
      split
      · rw [isEnding_proceed]
        rfl
      · rfl

theorem build_mem_built (h : Sound m acts) {s : StartedSupervisor} (hs : s ∈ m.started) :
    (s.serial, s.config) ∈ built acts := by
  rw [h.recorded]
  exact List.mem_map_of_mem hs

theorem exists_started (h : Sound m acts) {c : TunnelConfig} (hn : (n, c) ∈ built acts) :
    ∃ s ∈ m.started, s.serial = n ∧ s.config = c := by
  rw [h.recorded] at hn
  obtain ⟨s, hs, heq⟩ := List.mem_map.mp hn
  cases heq
  exact ⟨s, hs, rfl, rfl⟩

theorem Truthful.step (ht : Truthful m₀ h m acts) (hr : Run m₀ h m acts) (hb : Sound m acts)
    (now : Instant) (hc : event.isCall = true → m.phase = .free) :
    Truthful m₀ ((now, event) :: h) (m.step now event).1 (acts ++ (m.step now event).2) where
  stopped := by
    intro s' hs' hstop
    rcases mem_started_step hb now hc hs' with ⟨s, hs, rfl⟩ | ⟨b, -, rfl, -⟩
    · rcases StartedSupervisor.isStopped_noting.mp hstop with hstop | rfl | hstop
      · exact (ht.stopped s hs hstop).mono _ _
      · exact .inr ⟨now, List.mem_cons_self⟩
      · exact .inl (List.mem_append_right _ hstop)
    · obtain ⟨t, hmem⟩ := ht.isEnding hstop
      exact .inr ⟨t, List.mem_cons_of_mem _ hmem⟩
  ended := by
    intro s' hs' hover
    rcases mem_started_step hb now hc hs' with ⟨s, hs, rfl⟩ | ⟨b, -, rfl, -⟩
    · rcases StartedSupervisor.isOver_noting.mp hover with hover | rfl | hover
      · exact (ht.ended s hs hover).mono _ _
      · exact .inr ⟨[], now, h, m, acts, s.config, rfl, hr, build_mem_built (s := s) hb hs⟩
      · exact .inl (List.mem_append_right _ hover)
    · cases hover
  isEnding := by
    intro he
    rcases (isEnding_step now).mp he with he | rfl
    · obtain ⟨t, hmem⟩ := ht.isEnding he
      exact ⟨t, List.mem_cons_of_mem _ hmem⟩
    · exact ⟨now, List.mem_cons_self⟩

theorem truthful_new (options : ManagerOptions) (createdAt : Instant) :
    Truthful m₀ h { options, createdAt } acts where
  stopped := nofun
  ended := nofun
  isEnding := nofun

theorem Run.truthful {options : ManagerOptions} {createdAt : Instant}
    (hr : Run { options, createdAt } h m acts) : Truthful { options, createdAt } h m acts := by
  induction hr with
  | start => exact truthful_new options createdAt
  | next now event hr hc ih =>
    exact ih.step hr (hr.books (books_new options createdAt)).sound now hc

/-! ## The order of a reconciliation -/

/-- Acts that stop and abort nobody. -/
def CancelsNone (acts : List ManagerAct) : Prop :=
  ∀ a ∈ acts, ∀ n, a ≠ .stop n ∧ a ≠ .abort n

/-- No supervisor is stopped or aborted after one has been started. -/
def CancelsFirst (acts : List ManagerAct) : Prop :=
  ∀ before n c after, acts = before ++ .start n c :: after → CancelsNone after

theorem built_eq_nil_iff : built acts = [] ↔ ∀ n c, .start n c ∉ acts := by
  rw [built, List.filterMap_eq_nil_iff]
  constructor
  · intro h n c hmem
    cases h _ hmem
  · intro h a ha
    cases a with
    | start n c => exact absurd ha (h n c)
    | _ => rfl

theorem CancelsNone.cancelsFirst (h : CancelsNone acts) : CancelsFirst acts := by
  rintro before n c after rfl a ha
  exact h a (List.mem_append_right _ (List.mem_cons_of_mem _ ha))

/-- Acts that start nothing may come before. -/
theorem CancelsFirst.append_left (h : CancelsFirst acts') (ha : built acts = []) :
    CancelsFirst (acts ++ acts') := by
  intro before n c after heq
  rcases List.append_eq_append_iff.mp heq with ⟨rest, -, hrest⟩ | ⟨rest, rfl, hrest⟩
  · exact h rest n c after hrest
  · cases rest with
    | nil => exact h [] n c after hrest.symm
    | cons a rest =>
      cases hrest
      have hmem : ManagerAct.start n c ∈ before ++ .start n c :: rest :=
        List.mem_append_right _ List.mem_cons_self
      exact absurd hmem (built_eq_nil_iff.mp ha n c)

theorem cancelsNone_nil : CancelsNone [] :=
  List.forall_mem_nil _

theorem cancelsFirst_of_built_eq_nil (ha : built acts = []) : CancelsFirst acts := by
  have h := cancelsNone_nil.cancelsFirst.append_left ha
  rwa [List.append_nil] at h

theorem cancelsNone_startMissing (m : Manager) : CancelsNone m.startMissing.2 :=
  fun _ ha => not_stop_of_mem_startMissing ha

/-- What the manager does at one event: it starts nothing, or it comes to the end of a
reconciliation, with whatever is stopped or aborted first. -/
theorem order_effect (he : m.Effect event m' acts') : CancelsFirst acts' ∧
    (built acts' = [] ∨ m'.phase = .free ∧
      (event = .reconcile ∨ ∃ waiting deadline, m.phase = .reconciling waiting deadline)) := by
  cases he with
  | refreshed _ _ _ => exact ⟨cancelsFirst_of_built_eq_nil rfl, .inl rfl⟩
  | noted _ _ _ _ => exact ⟨cancelsFirst_of_built_eq_nil (built_stops _), .inl (built_stops _)⟩
  | waits _ _ _ _ => exact ⟨cancelsFirst_of_built_eq_nil (built_stops _), .inl (built_stops _)⟩
  | @passes m₁ _ _ _ _ =>
    refine ⟨?_, .inr ⟨startMissing_phase m₁, .inl rfl⟩⟩
    exact (cancelsNone_startMissing m₁).cancelsFirst.append_left (built_stops _)
  | @resumes _ m₁ _ _ _ _ _ _ hp _ _ _ =>
    refine ⟨?_, .inr ⟨startMissing_phase m₁, .inr ⟨_, _, hp⟩⟩⟩
    exact (cancelsNone_startMissing m₁).cancelsFirst.append_left (built_aborts _)
  | leaves _ _ _ => exact ⟨cancelsFirst_of_built_eq_nil (built_stops _), .inl (built_stops _)⟩
  | @leavesAtOnce _ serials _ _ _ =>
    have hb : built (serials.map .stop ++ [.gauge 0]) = [] := by
      rw [built_append, built_stops, built_gauge, List.append_nil]
    exact ⟨cancelsFirst_of_built_eq_nil hb, .inl hb⟩
  | @isGone _ _ _ aborted _ _ _ _ _ =>
    have hb : built (aborted.map .abort ++ [.gauge 0]) = [] := by
      rw [built_append, built_aborts, built_gauge, List.append_nil]
    exact ⟨cancelsFirst_of_built_eq_nil hb, .inl hb⟩

/-- A reconciliation that began at `m`, up to the moment at which it is over, has led to a manager
and has done some acts. -/
inductive Reconciling (m : Manager) : Manager → List ManagerAct → Prop where
  | begins (now : Instant) : m.phase = .free →
      Reconciling m (m.step now .reconcile).1 (m.step now .reconcile).2
  | next {m₁ : Manager} {acts : List ManagerAct} (now : Instant) (event : ManagerEvent) :
      Reconciling m m₁ acts → m₁.phase ≠ .free → event.isCall = false →
      Reconciling m (m₁.step now event).1 (acts ++ (m₁.step now event).2)

/-- Within one reconciliation every stop and every abortion comes before every start, and there is
no start before the end. -/
theorem Reconciling.order (hr : Reconciling m m' acts) :
    CancelsFirst acts ∧ (m'.phase ≠ .free → built acts = []) := by
  induction hr with
  | begins now hf =>
    obtain ⟨hfirst, hb⟩ := order_effect (effect_reconcile now hf)
    exact ⟨hfirst, fun hp => hb.resolve_right fun h => hp h.1⟩
  | @next m₁ acts now event _ hp hc ih =>
    have hnone := ih.2 hp
    obtain ⟨hfirst, hb⟩ := order_effect
      (step_effect now fun h => absurd (hc.symm.trans h) Bool.false_ne_true)
    refine ⟨hfirst.append_left hnone, fun hp' => ?_⟩
    rw [built_append, hnone]
    exact hb.resolve_right fun h => hp' h.1

/-! ## Waiting along a run -/

/-- Along a run, a manager waits for supervisors that it has told to stop, until one timeout after
the last call; a manager on its way out holds no tunnel. -/
structure Waits (options : ManagerOptions) (h : ManagerHistory) (m : Manager)
    (acts : List ManagerAct) : Prop where
  unchanged : m.options = options
  told : ∀ n ∈ m.phase.waiting, .stop n ∈ acts
  due : ∀ deadline, m.due? = some deadline →
    ∃ t, h.called? = some t ∧ deadline = t.after options.stopTimeout
  dismissed : ∀ waiting deadline, m.phase = .ending waiting deadline → m.supervised = []

theorem dismissed_effect (hd : ∀ waiting deadline, m.phase = .ending waiting deadline →
      m.supervised = []) (he : m.Effect event m' acts') {waiting : List Nat} {deadline : Instant}
    (hp : m'.phase = .ending waiting deadline) : m'.supervised = [] := by
  cases he with
  | refreshed _ _ hf => cases hf.symm.trans hp
  | noted _ ha hcont _ =>
    obtain ⟨waiting', deadline', hm⟩ := ending_of_continues hcont hp
    exact ha.supervised.trans (hd _ _ hm)
  | waits _ _ hp' _ => cases hp'.symm.trans hp
  | passes _ _ _ => cases (startMissing_phase _).symm.trans hp
  | resumes _ _ _ _ _ _ => cases (startMissing_phase _).symm.trans hp
  | leaves _ ha _ => exact ha.supervised
  | leavesAtOnce _ ha _ => exact ha.supervised
  | isGone _ _ _ hf => cases hf.symm.trans hp

theorem Run.waits {options : ManagerOptions} {createdAt : Instant}
    (hr : Run { options, createdAt } h m acts) : Waits options h m acts := by
  induction hr with
  | start => exact ⟨rfl, nofun, nofun, nofun⟩
  | @next h m acts now event hr hc ih =>
    have hstep := patient_step m now hc
    refine ⟨hstep.unchanged.trans ih.unchanged, fun n hn => ?_, fun deadline hd => ?_,
      fun _ _ hp => ?_⟩
    · rcases hstep.told n hn with hn | hn
      · exact List.mem_append_left _ (ih.told n hn)
      · exact List.mem_append_right _ hn
    · have hdue := hstep.due deadline hd
      rw [ManagerHistory.called?]
      split at hdue
      · next hcall =>
        rw [if_pos hcall]
        exact ⟨now, rfl, ih.unchanged ▸ hdue⟩
      · next hcall =>
        rw [if_neg hcall]
        exact ih.due deadline hdue
    · exact dismissed_effect ih.dismissed (step_effect now hc) hp

/-! ## No supervisor is leaked or doubled -/

/-- A manager with history `h` has each tunnel supervised once. -/
structure Unleaked (m₀ : Manager) (h : ManagerHistory) (m : Manager) (acts : List ManagerAct) :
    Prop where
  /-- Of the supervisors of a tunnel at most one is not cancelled. -/
  single : ∀ n c n' c', (n, c) ∈ built acts → (n', c') ∈ built acts → c.id = c'.id →
    ¬Cancelled h acts n → ¬Cancelled h acts n' → n = n'
  /-- Every supervisor holds its tunnel or is cancelled. -/
  held : ∀ n c, (n, c) ∈ built acts →
    (∃ s, m.supervised.lookup c.id = some s ∧ s.serial = n) ∨ Cancelled h acts n
  /-- Every supervisor holds its tunnel, is waited for, has returned or has been aborted. -/
  awaited : ∀ n c, (n, c) ∈ built acts →
    (∃ s, m.supervised.lookup c.id = some s ∧ s.serial = n) ∨ n ∈ m.phase.waiting ∨
      Gone m₀ h acts n

theorem unleaked_of_roster (hr : Roster m) (hs : Sound m acts) (ht : Truthful m₀ h m acts) :
    Unleaked m₀ h m acts := by
  have hheld : ∀ n c, (n, c) ∈ built acts → m.holder? c.id = some n ∨ Cancelled h acts n := by
    intro n c hn
    obtain ⟨s, hmem, rfl, rfl⟩ := exists_started hs hn
    cases hstop : s.isStopped with
    | false => exact .inl (hr.holding s hmem hstop)
    | true => exact .inr (ht.stopped s hmem hstop)
  refine ⟨fun n c n' c' hn hn' hid hlive hlive' => ?_, fun n c hn => ?_, fun n c hn => ?_⟩
  · have hold := (hheld n c hn).resolve_right hlive
    have hold' := (hheld n' c' hn').resolve_right hlive'
    rw [hid] at hold
    exact Option.some.inj (hold.symm.trans hold')
  · exact (hheld n c hn).imp_left Option.map_eq_some_iff.mp
  · obtain ⟨s, hmem, rfl, rfl⟩ := exists_started hs hn
    cases hover : s.isOver with
    | false =>
      rcases hr.awaited s hmem hover with hold | hwait
      · exact .inl (Option.map_eq_some_iff.mp hold)
      · exact .inr (.inl hwait)
    | true => exact .inr (.inr (ht.ended s hmem hover))

/-- What a manager with history `h` does at one more event leaves no supervisor behind. -/
structure Careful (m₀ : Manager) (h : ManagerHistory) (m : Manager) (acts : List ManagerAct)
    (now : Instant) (event : ManagerEvent) : Prop where
  /-- Supervisors are started by reconciliations, at their end. -/
  starts : built (m.step now event).2 ≠ [] → (m.step now event).1.phase = .free ∧
    (event = .reconcile ∨ ∃ waiting deadline, m.phase = .reconciling waiting deadline)
  /-- When a supervisor is started, those before it of the same tunnel are gone. -/
  replaces : ∀ before n c after, (m.step now event).2 = before ++ .start n c :: after →
    ∀ k c', (k, c') ∈ built (acts ++ before) → c'.id = c.id →
      Gone m₀ ((now, event) :: h) (acts ++ before) k
  /-- Who is aborted had been told to stop, and the timeout of the call has passed. -/
  aborts : ∀ n, .abort n ∈ (m.step now event).2 → .stop n ∈ acts ∧
    ∃ t, h.called? = some t ∧ t.after m₀.options.stopTimeout ≤ now
  /-- When a shutdown is over, nothing is supervised, and all supervisors are cancelled and gone. -/
  dismisses : (event = .shutdown ∨ ∃ waiting deadline, m.phase = .ending waiting deadline) →
    (m.step now event).1.phase = .free → (m.step now event).1.supervised = [] ∧
      ∀ n c, (n, c) ∈ built (acts ++ (m.step now event).2) →
        Cancelled ((now, event) :: h) (acts ++ (m.step now event).2) n ∧
          Gone m₀ ((now, event) :: h) (acts ++ (m.step now event).2) n

/-- Two supervisors are never started for one tunnel at one event. -/
theorem Handled.single {holder holder' : Option Nat} {bs : List (Nat × TunnelConfig)}
    (h : Handled event acts holder holder' bs) : bs.length ≤ 1 := by
  cases h with
  | stays => exact Nat.zero_le 1
  | leaves _ _ => exact Nat.zero_le 1
  | begins _ => exact Nat.le_refl 1

theorem not_started_before {before after : List ManagerAct} {c : TunnelConfig} {now : Instant}
    (h : Sound m acts) (hc : event.isCall = true → m.phase = .free)
    (heq : (m.step now event).2 = before ++ .start n c :: after) {b : Nat × TunnelConfig}
    (hb : b ∈ built before) : b.2.id ≠ c.id := by
  intro hid
  have hone := (handled_step h now hc c.id).single
  have hmem := List.length_pos_of_mem (mem_builtFor.mpr ⟨hb, hid⟩)
  have hnew : builtFor (.start n c :: after) c.id = (n, c) :: builtFor after c.id :=
    List.filter_cons_of_pos (beq_self_eq_true c.id)
  rw [heq, builtFor_append, hnew, List.length_append, List.length_cons] at hone
  omega

/-- A number is given out once. -/
theorem not_built_before {c c' : TunnelConfig} (h : Sound m (acts ++ acts'))
    (hn : (n, c) ∈ built acts) (hn' : (n, c') ∈ built acts') : False := by
  have hnodup : ((built (acts ++ acts')).map (·.1)).Nodup := by
    rw [h.recorded, h.numbered]
    exact List.nodup_range
  rw [built_append, List.map_append] at hnodup
  exact (List.nodup_append.mp hnodup).2.2 n (List.mem_map_of_mem hn) n (List.mem_map_of_mem hn') rfl

theorem mem_of_abort_mem {before after : List ManagerAct} {c : TunnelConfig} {k : Nat}
    (hfirst : CancelsFirst (before ++ .start n c :: after))
    (hk : .abort k ∈ before ++ .start n c :: after) : .abort k ∈ before := by
  rcases List.mem_append.mp hk with hk | hk
  · exact hk
  · rcases List.mem_cons.mp hk with hk | hk
    · cases hk
    · exact absurd rfl (hfirst before n c after rfl _ hk k).2

/-- When a supervisor is started, its predecessors are gone: the tunnel is held by the new one, and
the manager waits for nobody. -/
theorem gone_of_start {now : Instant} (hs : Sound m acts)
    (hc : event.isCall = true → m.phase = .free)
    (hs' : Sound (m.step now event).1 (acts ++ (m.step now event).2))
    (hu : Unleaked m₀ h (m.step now event).1 (acts ++ (m.step now event).2))
    {before after : List ManagerAct} {c c' : TunnelConfig} {k : Nat}
    (heq : (m.step now event).2 = before ++ .start n c :: after)
    (hk : (k, c') ∈ built (acts ++ before)) (hid : c'.id = c.id) :
    Gone m₀ h (acts ++ before) k := by
  obtain ⟨hfirst, hend⟩ := order_effect (step_effect now hc)
  have hn : (n, c) ∈ built (m.step now event).2 := by
    rw [heq, built_append]
    exact List.mem_append_right _ List.mem_cons_self
  have hfree : (m.step now event).1.phase = .free :=
    (hend.resolve_left (List.ne_nil_of_mem hn)).1
  rw [built_append] at hk
  have hk : (k, c') ∈ built acts := (List.mem_append.mp hk).resolve_right fun hbefore =>
    not_started_before hs hc heq hbefore hid
  have hall : (k, c') ∈ built (acts ++ (m.step now event).2) := by
    rw [built_append]
    exact List.mem_append_left _ hk
  rcases hu.awaited k c' hall with ⟨s, hlookup, hserial⟩ | hwait | habort | hended
  · have hholder : (m.step now event).1.holder? c.id = some n :=
      (handled_step hs now hc c.id).holder_of_mem (mem_builtFor.mpr ⟨hn, rfl⟩)
    rw [holder?, ← hid, hlookup, Option.map_some, hserial, Option.some.injEq] at hholder
    subst hholder
    exact absurd hn fun hn => not_built_before hs' hk hn
  · rw [hfree] at hwait
    cases hwait
  · rcases List.mem_append.mp habort with habort | habort
    · exact .inl (List.mem_append_left _ habort)
    · rw [heq] at hfirst habort
      exact .inl (List.mem_append_right _ (mem_of_abort_mem hfirst habort))
  · exact .inr hended

/-- A shutdown that is over has left nothing to supervise. -/
theorem supervised_of_dismissed (hd : ∀ waiting deadline, m.phase = .ending waiting deadline →
      m.supervised = []) (he : m.Effect event m' acts')
    (hev : event = .shutdown ∨ ∃ waiting deadline, m.phase = .ending waiting deadline)
    (hp : m'.phase = .free) : m'.supervised = [] := by
  cases he with
  | refreshed _ _ hf =>
    rcases hev with hev | ⟨_, _, hm⟩
    · cases hev
    · cases hf.symm.trans hm
  | noted hc _ hcont _ =>
    rcases hev with rfl | ⟨_, _, hm⟩
    · cases hc
    · cases (free_of_continues hcont hp).symm.trans hm
  | waits _ _ hp' _ => cases hp'.symm.trans hp
  | passes hf _ _ =>
    rcases hev with hev | ⟨_, _, hm⟩
    · cases hev
    · cases hf.symm.trans hm
  | resumes hc _ hp' _ _ _ =>
    rcases hev with rfl | ⟨_, _, hm⟩
    · cases hc
    · cases hp'.symm.trans hm
  | leaves _ _ hp' => cases hp'.symm.trans hp
  | leavesAtOnce _ ha _ => exact ha.supervised
  | isGone _ hp' ha _ => exact ha.supervised.trans (hd _ _ hp')

/-- Where nothing is supervised and nobody is waited for, all are cancelled and gone. -/
theorem Unleaked.all_gone (hu : Unleaked m₀ h m acts) (hf : m.phase = .free)
    (hnone : m.supervised = []) {c : TunnelConfig} (hn : (n, c) ∈ built acts) :
    Cancelled h acts n ∧ Gone m₀ h acts n := by
  have hfree : ¬∃ s, m.supervised.lookup c.id = some s ∧ s.serial = n := by
    rw [hnone]
    rintro ⟨s, hs, -⟩
    cases hs
  refine ⟨(hu.held n c hn).resolve_left hfree, ?_⟩
  rcases (hu.awaited n c hn).resolve_left hfree with hwait | hgone
  · rw [hf] at hwait
    cases hwait
  · exact hgone

theorem Run.unleaked {options : ManagerOptions} {createdAt : Instant}
    (hr : Run { options, createdAt } h m acts) : Unleaked { options, createdAt } h m acts :=
  unleaked_of_roster (hr.roster (books_new options createdAt) (roster_new options createdAt))
    (hr.books (books_new options createdAt)).sound hr.truthful

theorem Run.careful {options : ManagerOptions} {createdAt : Instant}
    (hr : Run { options, createdAt } h m acts) (now : Instant)
    (hc : event.isCall = true → m.phase = .free) :
    Careful { options, createdAt } h m acts now event := by
  have hr' := hr.next now event hc
  have hs := (hr.books (books_new options createdAt)).sound
  have hs' := (hr'.books (books_new options createdAt)).sound
  have hw := hr.waits
  constructor
  · intro hne
    exact (order_effect (step_effect now hc)).2.resolve_left hne
  · intro before n c after heq k c' hk hid
    exact gone_of_start hs hc hs' hr'.unleaked heq hk hid
  · intro n hn
    obtain ⟨hwait, deadline, hdue, hpast⟩ := (patient_step m now hc).aborts n hn
    obtain ⟨t, ht, rfl⟩ := hw.due deadline hdue
    exact ⟨hw.told n hwait, t, ht, hpast⟩
  · intro hev hp
    have hnone := supervised_of_dismissed hw.dismissed (step_effect now hc) hev hp
    exact ⟨hnone, fun n c hn => hr'.unleaked.all_gone hp hnone hn⟩

/-- No supervisor is leaked or doubled, whatever is listed and called for and whatever the
supervisors do. At most one supervisor of a tunnel is not cancelled, and whoever does not hold its
tunnel is cancelled. A reconciliation first stops and aborts, and then starts; who is started for a
tunnel comes after its predecessors have returned or have been aborted at the timeout. A shutdown
leaves nothing. -/
theorem unleaked_of_run {options : ManagerOptions} {createdAt : Instant}
    (hr : Run { options, createdAt } h m acts) :
    Unleaked { options, createdAt } h m acts ∧
      (∀ m' done, Reconciling m m' done → CancelsFirst done) ∧
      ∀ now event, (event.isCall = true → m.phase = .free) →
        Careful { options, createdAt } h m acts now event :=
  ⟨hr.unleaked, fun _ _ hrec => hrec.order.1, fun now _ hc => hr.careful now hc⟩

/-- A tunnel whose port changes while its supervisor does not heed the stop: at the timeout the
supervisor is aborted, and then the other one is started. -/
theorem aborted_before_replacement :
    ∃ m, Run { options := {}, createdAt := 0 }
        [(3, .reconcile), (2, .refreshed [.reverse ⟨default, default, false, 1⟩]),
          (1, .reconcile), (0, .refreshed [default])] m [.start 0 default, .gauge 1, .stop 0] ∧
      (m.step 5000000003 .timedOut).2 =
        [.abort 0, .start 1 (.reverse ⟨default, default, false, 1⟩), .gauge 1] ∧
      Careful { options := {}, createdAt := 0 }
        [(3, .reconcile), (2, .refreshed [.reverse ⟨default, default, false, 1⟩]),
          (1, .reconcile), (0, .refreshed [default])] m [.start 0 default, .gauge 1, .stop 0]
        5000000003 .timedOut := by
  have h₁ := Run.next 0 (.refreshed [default]) (@Run.start { options := {}, createdAt := 0 })
    (by decide)
  have h₂ := h₁.next 1 .reconcile (by decide +kernel)
  have h₃ := h₂.next 2 (.refreshed [.reverse ⟨default, default, false, 1⟩]) (by decide +kernel)
  have h₄ := h₃.next 3 .reconcile (by decide +kernel)
  exact ⟨_, h₄, by decide +kernel, (unleaked_of_run h₄).2.2 5000000003 .timedOut nofun⟩

end Manager
end SshTunnels
