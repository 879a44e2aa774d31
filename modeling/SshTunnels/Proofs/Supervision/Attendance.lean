import SshTunnels.Probe
import SshTunnels.Proofs.Supervision.Rounds

/-!
# How a supervisor attends to its tunnel

What holds of a supervisor after any history of starts, stops, runs and probing: `attends_of_run`
puts it together. A stop cancels all tokens that come from the supervisor's (`Run.linked`), and
nothing else ends a supervisor (`Run.isStopped_iff`); one that has been told to stop runs its tunnel
at most once more (`Run.late`). The supervisor registers, runs and deregisters in this order
(`Run.course_eq`), and deregisters when the probing is over (`Run.timely`).

The probing need not go on for as long as the runs do, as `probing_over_early` shows: a stop cancels
its token as it cancels theirs, and it may be over before the run in flight is.
-/

namespace SshTunnels

/-- The tunnel has been registered. -/
def SupervisorPhase.hasRegistered : SupervisorPhase → Bool
  | .idle | .registering => false
  | _ => true

namespace Rounds

variable {retry : Span} {conncheck : Option ConncheckOptions} {h since before : RoundHistory}
  {s s' : Rounds} {now t : Instant} {event : RoundEvent}

/-! ## Tokens and the probing -/

/-- What the supervisor knows of the runs and the probing, and what it does to their tokens. -/
structure Linked (s : Rounds) : Prop where
  count : s.supervisor.runs = s.runs.length
  /-- A stop has cancelled the tokens of all runs. -/
  cancelled : s.supervisor.isStopped = true → ∀ n < s.runs.length, n ∈ s.cancelled
  /-- A stop, and nothing else, has cancelled the token of the probing. -/
  token : ∀ p, s.probe = some p → p.isCancelled = s.supervisor.isStopped
  probed : s.probe.isSome = true ↔
    s.supervisor.conncheck.isSome = true ∧ s.supervisor.phase.hasRegistered = true
  probing : s.supervisor.isProbing = true ↔ s.probe.map (·.ended) = some none
  /-- The supervisor does not finish before the probing is over. -/
  waits : s.supervisor.phase = .finished → s.supervisor.isProbing = false

@[simp]
theorem map_ended_cancel (probe : Option ProbeTask) :
    (probe.map ProbeTask.cancel).map (·.ended) = probe.map (·.ended) := by
  cases probe <;> rfl

theorem isCancelled_of_map_cancel {probe : Option ProbeTask} {p : ProbeTask}
    (h : probe.map ProbeTask.cancel = some p) : p.isCancelled = true := by
  obtain ⟨q, -, rfl⟩ := Option.map_eq_some_iff.mp h
  rfl

/-- A stop cancels the tokens of all runs, and a run that begins after it has a token that is
cancelled. -/
theorem cancelled_of_turn
    (hs : s.supervisor.isStopped = true → ∀ n < s.runs.length, n ∈ s.cancelled)
    (ht : Turn s now event s') (hstop : s'.supervisor.isStopped = true) :
    ∀ n < s'.runs.length, n ∈ s'.cancelled := by
  cases ht with
  | starts _ hgo => cases hgo.symm.trans hstop
  | begins _ =>
    intro n hn
    have hstop' : s.supervisor.isStopped = true := hstop
    simp only [List.length_append, List.length_singleton] at hn
    simp only [hstop', if_true]
    rcases Nat.lt_succ_iff_lt_or_eq.mp hn with hlt | rfl
    · exact List.mem_cons_of_mem _ (hs hstop n hlt)
    · exact List.mem_cons_self
  | rests _ hruns _ =>
    intro n hn
    refine hs hstop n ?_
    rw [hruns]
    simpa using hn
  | stops _ => exact fun n hn => List.mem_range.mpr hn
  | cancels =>
    intro n hn
    dsimp only
    split
    · exact List.mem_cons_of_mem _ (hs hstop n hn)
    · exact hs hstop n hn
  | registers _ | passes _ _ | wakes _ _ _ | leaves _ _ | finishes _ _ | probeEnds _ _
  | waits _ _ => exact hs hstop

/-- The token of the probing is cancelled by a stop and by nothing else. -/
theorem token_of_turn (hs : ∀ p, s.probe = some p → p.isCancelled = s.supervisor.isStopped)
    (ht : Turn s now event s') :
    ∀ p, s'.probe = some p → p.isCancelled = s'.supervisor.isStopped := by
  cases ht with
  | starts _ hgo =>
    intro p hp
    obtain ⟨_, -, rfl⟩ := Option.map_eq_some_iff.mp hp
    exact hgo.symm
  | passes _ hstop =>
    intro p hp
    obtain ⟨_, -, rfl⟩ := Option.map_eq_some_iff.mp hp
    exact hstop.symm
  | leaves _ hstop =>
    intro p hp
    dsimp only at hp
    split at hp
    · exact (isCancelled_of_map_cancel hp).trans hstop.symm
    · exact hs p hp
  | @probeEnds _ p hprobe _ =>
    intro q hq
    cases hq
    exact hs p hprobe
  | stops _ => exact fun p hp => isCancelled_of_map_cancel hp
  | registers _ | begins _ | rests _ _ _ | wakes _ _ _ | finishes _ _ | cancels | waits _ _ =>
    exact hs

theorem Linked.of_turn (hl : Linked s) (ht : Turn s now event s') : Linked s' := by
  have hcancelled := cancelled_of_turn hl.cancelled ht
  have htoken := token_of_turn hl.token ht
  obtain ⟨hcount, -, -, hprobed, hprobing, hwaits⟩ := hl
  cases ht with
  | registers hp =>
    refine ⟨hcount, hcancelled, htoken, ?_, hprobing, nofun⟩
    simpa [hp, SupervisorPhase.hasRegistered] using hprobed
  | starts _ _ | passes _ _ =>
    refine ⟨hcount, hcancelled, htoken, ?_, ?_, nofun⟩
    · simp [SupervisorPhase.hasRegistered]
    · cases s.supervisor.conncheck <;> simp
  | begins hp =>
    refine ⟨?_, hcancelled, htoken, ?_, hprobing, nofun⟩
    · simp [hcount]
    · simpa [hp, SupervisorPhase.hasRegistered] using hprobed
  | rests hp hruns _ =>
    refine ⟨?_, hcancelled, htoken, ?_, hprobing, nofun⟩
    · simp [hcount, hruns]
    · simpa [hp, SupervisorPhase.hasRegistered] using hprobed
  | wakes hp _ _ =>
    refine ⟨hcount, hcancelled, htoken, ?_, hprobing, nofun⟩
    simpa [hp, SupervisorPhase.hasRegistered] using hprobed
  | leaves hp _ =>
    refine ⟨hcount, hcancelled, htoken, ?_, ?_, nofun⟩
    · dsimp only
      split <;> simpa [hp, SupervisorPhase.hasRegistered] using hprobed
    · dsimp only
      split
      · rwa [map_ended_cancel]
      · exact hprobing
  | finishes hp hnot =>
    refine ⟨hcount, hcancelled, htoken, ?_, hprobing, fun _ => hnot⟩
    simpa [hp, SupervisorPhase.hasRegistered] using hprobed
  | probeEnds hprobe _ =>
    refine ⟨hcount, hcancelled, htoken, ?_, by simp, fun _ => rfl⟩
    simpa [hprobe] using hprobed
  | stops _ =>
    exact ⟨hcount, hcancelled, htoken, by simpa using hprobed,
      by simpa only [map_ended_cancel] using hprobing, hwaits⟩
  | cancels | waits _ _ => exact ⟨hcount, hcancelled, htoken, hprobed, hprobing, hwaits⟩

theorem Run.linked (hr : Run retry conncheck h s) :
    s.supervisor.conncheck = conncheck ∧ Linked s := by
  induction hr with
  | begin => exact ⟨rfl, rfl, nofun, nofun, by simp [SupervisorPhase.hasRegistered], by simp, nofun⟩
  | @next h s now event hrun hnow ih =>
    have ht := hrun.turn now event
    exact ⟨(options_of_turn ht).2.trans ih.1, ih.2.of_turn ht⟩

/-! ## The order of things -/

/-- What has been noted, but for the stop and the end of the probing. -/
def course (s : Rounds) : List RoundMark :=
  s.diary.filter fun m => !m.isLoose

/-- What is noted of a supervisor when it begins, and when the tunnel is registered. -/
def opening (s : Rounds) : List RoundMark :=
  (if s.supervisor.phase = .idle then [] else [.did .register]) ++
    if s.supervisor.phase.hasRegistered then (s.supervisor.ifProbed .beginProbing).map .did
    else []

/-- What is noted of a supervisor when it has left its loop, and when it is done. -/
def closing (s : Rounds) : List RoundMark :=
  (if s.supervisor.phase.hasLeft then (s.supervisor.ifProbed .endProbing).map .did else []) ++
    if s.supervisor.phase = .finished then [.did .deregister] else []

/-- What is noted of the runs, in order. -/
def rounds (s : Rounds) : List RoundMark :=
  (s.runs.zipIdx 1).flatMap fun (r, attempt) => r.marks attempt

/-- The supervisor registers its tunnel before the first run, and deregisters it after the last. -/
theorem Run.course_eq (hr : Run retry conncheck h s) :
    s.course = s.opening ++ s.rounds ++ s.closing := by
  induction hr with
  | begin => rfl
  | @next h s now event hrun hnow ih =>
    have hs := hrun.standing.2
    have hcount := hrun.linked.2.count
    have ht := hs.turn now event
    generalize s.step now event = s' at ht
    have happend (new : List RoundMark) : (s.diary ++ new).filter (fun m => !m.isLoose) =
        s.opening ++ s.rounds ++ s.closing ++ new.filter fun m => !m.isLoose := by
      rw [List.filter_append, ← ih, course]
    cases ht with
    | registers hp =>
      have hnone := (hs.fresh (.inl hp)).1
      rw [course, happend]
      simp [opening, closing, rounds, hp, hnone, SupervisorPhase.hasLeft,
        SupervisorPhase.hasRegistered, RoundMark.isLoose]
    | starts hp _ | passes hp _ =>
      have hnone := (hs.fresh (.inr hp)).1
      rw [course, happend]
      cases hc : s.supervisor.conncheck <;>
        simp [opening, closing, rounds, hp, hnone, hc, Supervisor.ifProbed,
          SupervisorPhase.hasLeft, SupervisorPhase.hasRegistered, RoundMark.isLoose]
    | begins hp =>
      rw [course, happend]
      simp [opening, closing, rounds, hp, List.zipIdx_append, SupervisorPhase.hasLeft,
        SupervisorPhase.hasRegistered, RoundMark.isLoose, Round.marks, Supervisor.ifProbed]
    | rests hp hruns ho =>
      rw [course, happend]
      simp [opening, closing, rounds, hp, hruns, ho, hcount, List.zipIdx_append,
        SupervisorPhase.hasLeft, SupervisorPhase.hasRegistered, RoundMark.isLoose, Round.marks,
        Round.finish, Supervisor.ifProbed, Nat.add_comm]
    | wakes hp _ _ =>
      rw [course] at ih ⊢
      simp [ih, opening, closing, rounds, hp, SupervisorPhase.hasLeft,
        SupervisorPhase.hasRegistered, Supervisor.ifProbed]
    | leaves hp _ =>
      rw [course, happend]
      cases hc : s.supervisor.conncheck <;>
        simp [opening, closing, rounds, hp, hc, Supervisor.ifProbed,
          SupervisorPhase.hasLeft, SupervisorPhase.hasRegistered, RoundMark.isLoose]
    | finishes hp _ =>
      rw [course, happend]
      simp [opening, closing, rounds, hp, SupervisorPhase.hasLeft, SupervisorPhase.hasRegistered,
        RoundMark.isLoose, Supervisor.ifProbed]
    | probeEnds _ _ | stops _ =>
      rw [course, happend]
      exact List.append_nil _
    | cancels | waits _ _ => exact ih

/-! ## When the probing is over -/

/-- What has been noted before the end of the probing, and before the supervisor deregisters its
tunnel. -/
def Due (conncheck : Option ConncheckOptions) (before : List RoundMark) : RoundMark → Prop
  | .probeOver how => .did .beginProbing ∈ before ∧ (∀ how', .probeOver how' ∉ before) ∧
      (how = .cancelled → .did .cancelTokens ∈ before)
  | .did .deregister => conncheck.isSome = true → ∃ how, .probeOver how ∈ before
  | _ => True

/-- Every mark comes when it is due. -/
def Timely (conncheck : Option ConncheckOptions) (diary : List RoundMark) : Prop :=
  ∀ before m after, diary = before ++ m :: after → Due conncheck before m

section Diary

variable {diary new : List RoundMark} {m : RoundMark}

theorem Timely.concat (hd : Timely conncheck diary) (hm : Due conncheck diary m) :
    Timely conncheck (diary ++ [m]) := by
  intro before x after heq
  rcases List.eq_nil_or_concat after with rfl | ⟨after, y, rfl⟩
  · obtain ⟨rfl, hx⟩ := List.append_inj' heq rfl
    cases hx
    exact hm
  · have heq' : diary ++ [m] = (before ++ x :: after) ++ [y] := by
      rw [heq]
      simp
    exact hd before x after (List.append_inj' heq' rfl).1

/-- Marks that are due at any time may be put at the end. -/
theorem Timely.append (hd : Timely conncheck diary)
    (hnew : ∀ m ∈ new, ∀ before, Due conncheck before m) : Timely conncheck (diary ++ new) := by
  induction new generalizing diary with
  | nil => simpa using hd
  | cons m new ih =>
    rw [List.append_cons]
    obtain ⟨hm, hnew⟩ := List.forall_mem_cons.mp hnew
    exact ih (hd.concat (hm diary)) hnew

end Diary

/-- What the diary tells of the stop and the probing. -/
structure Noted (s : Rounds) : Prop where
  stop : .did .cancelTokens ∈ s.diary ↔ s.supervisor.isStopped = true
  probing : .did .beginProbing ∈ s.diary ↔ s.probe.isSome = true
  ended : ∀ how, .probeOver how ∈ s.diary ↔ s.probe.map (·.ended) = some (some how)

theorem mem_ifProbed {act act' : SupervisorAct} :
    act' ∈ s.supervisor.ifProbed act ↔ s.supervisor.conncheck.isSome = true ∧ act' = act := by
  rw [Supervisor.ifProbed]
  split <;> simp_all

theorem Noted.of_turn (hn : Noted s) (hs : Standing retry s) (ht : Turn s now event s') :
    Noted s' := by
  obtain ⟨hstop, hprobing, hover⟩ := hn
  cases ht with
  | starts hp hgo | passes hp hgo =>
    have hnone := (hs.fresh (.inr hp)).2
    refine ⟨?_, ?_, fun how => ?_⟩
    · simpa [mem_ifProbed, hgo] using hstop
    · have hnot : .did .beginProbing ∉ s.diary := by simpa [hnone] using hprobing
      simp [mem_ifProbed, hnot]
    · have hnot := hover how
      cases s.supervisor.conncheck <;> simpa [hnone] using hnot
  | registers _ | begins _ | finishes _ _ | rests _ _ _ =>
    exact ⟨by simpa using hstop, by simpa using hprobing, fun how => by simpa using hover how⟩
  | leaves _ _ =>
    refine ⟨?_, ?_, fun how => ?_⟩
    · simpa [mem_ifProbed] using hstop
    · dsimp only
      split <;> simpa [mem_ifProbed] using hprobing
    · have hmap := hover how
      dsimp only
      split
      · rw [map_ended_cancel]
        simpa using hmap
      · simpa using hmap
  | @probeEnds how p hprobe hmay =>
    have hopen : p.ended = none := by
      rw [ProbeTask.mayEnd, Bool.and_eq_true, Option.isNone_iff_eq_none] at hmay
      exact hmay.1
    refine ⟨by simpa using hstop, by simpa [hprobe] using hprobing, fun how' => ?_⟩
    have hnot := hover how'
    simp only [hprobe, Option.map_some, hopen] at hnot
    simp [hnot, eq_comm]
  | stops _ =>
    refine ⟨by simp, by simpa using hprobing, fun how => ?_⟩
    rw [map_ended_cancel]
    simpa using hover how
  | wakes _ _ _ | cancels | waits _ _ => exact ⟨hstop, hprobing, hover⟩

theorem due_did {act : SupervisorAct} (hact : act ≠ .deregister) (before : List RoundMark) :
    Due conncheck before (.did act) := by
  cases act with
  | deregister => exact absurd rfl hact
  | _ => trivial

theorem timely_of_turn (htimely : Timely s.supervisor.conncheck s.diary) (hn : Noted s)
    (hl : Linked s) (ht : Turn s now event s') : Timely s.supervisor.conncheck s'.diary := by
  cases ht with
  | starts _ _ | passes _ _ | leaves _ _ =>
    refine htimely.append fun m hm before => ?_
    obtain ⟨act, hact, rfl⟩ := List.mem_map.mp hm
    refine due_did ?_ before
    rintro rfl
    simp [mem_ifProbed] at hact
  | registers _ | begins _ | stops _ => exact htimely.concat trivial
  | rests _ _ _ =>
    refine htimely.append fun m hm before => ?_
    rcases List.mem_pair.mp hm with rfl | rfl <;> trivial
  | finishes hp hnot =>
    refine htimely.concat fun hconncheck => ?_
    have hsome : s.probe.isSome = true := hl.probed.mpr ⟨hconncheck, by rw [hp]; rfl⟩
    obtain ⟨p, hprobe⟩ := Option.isSome_iff_exists.mp hsome
    cases ho : p.ended with
    | none =>
      have hprobing := hl.probing.mpr (by simp [hprobe, ho])
      cases hnot.symm.trans hprobing
    | some how => exact ⟨how, (hn.ended how).mpr (by simp [hprobe, ho])⟩
  | @probeEnds how p hprobe hmay =>
    rw [ProbeTask.mayEnd, Bool.and_eq_true, Option.isNone_iff_eq_none] at hmay
    obtain ⟨hopen, hhow⟩ := hmay
    refine htimely.concat ⟨hn.probing.mpr (by simp [hprobe]), fun how' hmem => ?_, ?_⟩
    · have hover := (hn.ended how').mp hmem
      simp [hprobe, hopen] at hover
    · rintro rfl
      have hcancelled : p.isCancelled = true := by simpa using hhow
      exact hn.stop.mpr ((hl.token p hprobe).symm.trans hcancelled)
  | wakes _ _ _ | cancels | waits _ _ => exact htimely

/-- The probing is over after it began and before the tunnel is deregistered, and, if its token was
cancelled, after a stop. -/
theorem Run.timely (hr : Run retry conncheck h s) : Noted s ∧ Timely conncheck s.diary := by
  induction hr with
  | begin => exact ⟨⟨by simp, by simp, by simp⟩, fun before m after heq => by simp at heq⟩
  | @next h s now event hrun hnow ih =>
    obtain ⟨hn, htimely⟩ := ih
    have hs := hrun.standing.2
    obtain ⟨rfl, hl⟩ := hrun.linked
    have ht := hs.turn now event
    exact ⟨hn.of_turn hs ht, timely_of_turn htimely hn hl ht⟩

/-! ## Starting and stopping -/

theorem Run.unique (hr : Run retry conncheck h s) (hr' : Run retry conncheck h s') : s = s' := by
  induction hr generalizing s' with
  | begin =>
    cases hr'
    rfl
  | next now event _ _ ih =>
    cases hr' with
    | next _ _ hr' _ => rw [ih hr']

theorem Run.of_append (hr : Run retry conncheck (since ++ h) s) :
    ∃ s₀, Run retry conncheck h s₀ := by
  induction since generalizing s with
  | nil => exact ⟨s, hr⟩
  | cons x since ih =>
    cases hr with
    | next _ _ hrun _ => exact ih hrun

/-- The supervisor has begun exactly if it was started. -/
theorem Run.idle_iff (hr : Run retry conncheck h s) :
    s.supervisor.phase = .idle ↔ ∀ x ∈ h, x.2 ≠ .start := by
  induction hr with
  | begin => exact iff_of_true rfl nofun
  | @next h s now event hrun hnow ih =>
    rw [List.forall_mem_cons, ← ih]
    have ht := hrun.turn now event
    generalize s.step now event = s' at ht
    cases ht with
    | registers _ => exact iff_of_false nofun fun h => h.1 rfl
    | starts hp _ | passes hp _ | begins hp | rests hp _ _ | wakes hp _ _ | leaves hp _
    | finishes hp _ =>
      refine iff_of_false nofun fun h => ?_
      rw [hp] at h
      cases h.2
    | probeEnds _ _ | stops _ | cancels => exact (and_iff_right nofun).symm
    | @waits event hstart _ =>
      constructor
      · intro hp
        exact ⟨fun heq => hstart heq hp, hp⟩
      · exact And.right

theorem Run.begun_iff (hr : Run retry conncheck h s) :
    s.supervisor.phase ≠ .idle ↔ ∃ x ∈ h, x.2 = .start := by
  rw [Ne, hr.idle_iff]
  push Not
  rfl

/-- Nothing but a stop stops the supervisor: no end of a run, no cancelled token, and no end of the
probing. -/
theorem Run.isStopped_iff (hr : Run retry conncheck h s) :
    s.supervisor.isStopped = true ↔ ∃ x ∈ h, x.2 = .stop := by
  induction hr with
  | begin => exact iff_of_false nofun nofun
  | @next h s now event hrun hnow ih =>
    rw [List.exists_mem_cons_iff, ← ih]
    have ht := hrun.turn now event
    generalize s.step now event = s' at ht
    cases ht with
    | stops _ => exact iff_of_true rfl (.inl rfl)
    | registers _ | starts _ _ | passes _ _ | begins _ | rests _ _ _ | wakes _ _ _ | leaves _ _
    | finishes _ _ | probeEnds _ _ | cancels => exact (or_iff_right nofun).symm
    | waits _ hstop =>
      constructor
      · exact .inr
      · rintro (heq | h)
        · exact hstop heq
        · exact h

/-- What a supervisor comes to that has been told to stop at `s`: it runs its tunnel at most once
more, and only if it was about to. -/
structure Late (s s' : Rounds) : Prop where
  isStopped : s'.supervisor.isStopped = true
  opening : s'.supervisor.phase = .opening →
    s.supervisor.phase = .opening ∧ s'.runs.length = s.runs.length
  atMost : s.supervisor.phase ≠ .opening → s'.runs.length = s.runs.length
  once : s'.runs.length ≤ s.runs.length + 1

theorem Run.late (hr : Run retry conncheck h s) (hstop : s.supervisor.isStopped = true)
    (hr' : Run retry conncheck (since ++ h) s') : Late s s' := by
  induction since generalizing s' with
  | nil =>
    cases hr.unique hr'
    exact ⟨hstop, fun hp => ⟨hp, rfl⟩, fun _ => rfl, Nat.le_succ _⟩
  | cons x since ih =>
    cases hr' with
    | @next _ s₁ now event hrun hnow =>
      obtain ⟨hstop₁, hopening, hatMost, honce⟩ := ih hrun
      have ht := hrun.turn now event
      generalize s₁.step now event = s' at ht
      cases ht with
      | starts _ hgo | wakes _ hgo _ | stops hgo => cases hgo.symm.trans hstop₁
      | begins hp =>
        obtain ⟨hp₀, hlen⟩ := hopening hp
        refine ⟨hstop₁, nofun, fun hne => absurd hp₀ hne, ?_⟩
        simp [hlen]
      | rests _ hruns _ =>
        rw [hruns] at hatMost honce
        exact ⟨hstop₁, nofun, by simpa using hatMost, by simpa using honce⟩
      | registers _ | passes _ _ | leaves _ _ | finishes _ _ =>
        exact ⟨hstop₁, nofun, hatMost, honce⟩
      | probeEnds _ _ | cancels | waits _ _ => exact ⟨hstop₁, hopening, hatMost, honce⟩

theorem isFinished_iff : s.supervisor.isFinished = true ↔ s.supervisor.phase = .finished :=
  beq_iff_eq

/-- A supervisor that is started after it has been told to stop does not run its tunnel. -/
theorem Run.runs_of_stopped (hr : Run retry conncheck (since ++ (t, .start) :: before) s)
    (hidle : ∀ x ∈ before, x.2 ≠ .start) (hstop : ∃ x ∈ before, x.2 = .stop) : s.runs = [] := by
  obtain ⟨s₁, hrun₁⟩ := hr.of_append
  have hstop₁ : s₁.supervisor.isStopped = true := hrun₁.isStopped_iff.mpr (by
    obtain ⟨x, hx, heq⟩ := hstop
    exact ⟨x, List.mem_cons_of_mem _ hx, heq⟩)
  have hlate := hrun₁.late hstop₁ hr
  cases hrun₁ with
  | @next _ s₀ _ _ hrun₀ hnow =>
    have hp := hrun₀.idle_iff.mpr hidle
    have hnone := (hrun₀.standing.2.fresh (.inl hp)).1
    have ht := hrun₀.turn t .start
    generalize s₀.step t .start = s₁ at ht hlate
    cases ht with
    | registers _ =>
      have hlen := hlate.atMost nofun
      rw [hnone] at hlen
      exact List.length_eq_zero_iff.mp hlen
    | waits hstart _ => exact absurd hp (hstart rfl)

/-- Until it is told to stop, a supervisor whose tunnel does not run runs it again as soon as every
run has been over for a retry interval; the first time that is at once when it is registered. -/
theorem Run.goesOn (hr : Run retry conncheck h s) (hbegun : s.supervisor.phase ≠ .idle)
    (hgo : s.supervisor.isStopped = false) :
    (∃ r, s.runs.getLast? = some r ∧ r.ended = none) ∨
    ∀ now, (∀ a ∈ s.runs, a.OverBefore retry now) →
      ((s.step now .goesOn).step now .goesOn).runs = s.runs ++ [{ begun := now }] := by
  cases hr.standing.2 with
  | idle hp _ _ => exact absurd hp hbegun
  | running _ hruns ho _ _ => exact .inl ⟨_, by rw [hruns, List.getLast?_concat], ho⟩
  | registering hp _ _ =>
    refine .inr fun now _ => ?_
    rw [hr.standing.2.goesOn_of_registered hp hgo, goesOn_of_opening rfl]
  | opening hp _ =>
    refine .inr fun now _ => ?_
    rw [goesOn_of_opening hp, goesOn_of_not_ready]
    rfl
  | resting hp hleast =>
    refine .inr fun now hover => ?_
    rw [goesOn_of_rested hp hgo (hleast.2 hover), goesOn_of_opening rfl]
  | closing _ hstop _ | finished _ hstop _ => cases hgo.symm.trans hstop

/-- Once it has been told to stop, a supervisor that has its tunnel registered, does not run it, and
is not about to, finishes when the probing is over. -/
theorem Run.finishes (hr : Run retry conncheck h s)
    (hregistered : s.supervisor.phase.hasRegistered = true)
    (hstop : s.supervisor.isStopped = true) (hp : s.supervisor.phase ≠ .opening)
    (hover : ∀ r ∈ s.runs, r.ended.isSome = true)
    (hprobe : ∀ p, s.probe = some p → p.ended.isSome = true) (now : Instant) :
    ((s.step now .goesOn).step now .goesOn).supervisor.isFinished = true := by
  have hprobing : s.supervisor.isProbing = false := by
    rw [Bool.eq_false_iff, Ne, hr.linked.2.probing, Option.map_eq_some_iff]
    rintro ⟨p, hp, ho⟩
    have hsome := hprobe p hp
    rw [ho] at hsome
    cases hsome
  rw [isFinished_iff]
  cases hr.standing.2 with
  | idle hp' _ _ | registering hp' _ _ =>
    rw [hp'] at hregistered
    cases hregistered
  | opening hp' _ => exact absurd hp' hp
  | @running earlier r _ hruns ho _ _ =>
    have hsome := hover r (by simp [hruns])
    rw [ho] at hsome
    cases hsome
  | resting hp' _ =>
    have hclosing : (s.step now .goesOn).supervisor.phase = .closing := by
      rw [goesOn_of_roused hp' hstop]
    have hprobing' : (s.step now .goesOn).supervisor.isProbing = false := by
      rw [goesOn_of_roused hp' hstop]
      exact hprobing
    rw [goesOn_of_closing hclosing hprobing']
  | closing hp' _ _ =>
    rw [goesOn_of_closing hp' hprobing, goesOn_of_not_ready]
    rfl
  | finished hp' _ _ =>
    have hready : s.supervisor.isReady now = false := by simp [Supervisor.isReady, hp']
    rw [goesOn_of_not_ready hready, goesOn_of_not_ready (s := { s with now }) hready]
    exact hp'

/-! ## The law of a supervisor -/

/-- How a supervisor runs its tunnel. -/
structure Attends (retry : Span) (conncheck : Option ConncheckOptions) (h : RoundHistory)
    (s : Rounds) : Prop where
  /-- A run begins only when every earlier one has been over for a retry interval, in whatever way
  it ended. So no two runs overlap. -/
  apart : s.runs.Pairwise fun a b => a.OverBefore retry b.begun
  /-- No run is over before it began. -/
  lasts : ∀ r ∈ s.runs, ∀ t outcome, r.ended = some (t, outcome) → r.begun ≤ t
  /-- Nothing but a stop stops the supervisor: no outcome of a run, no cancelled token, and no end
  of the probing. -/
  stopped : s.supervisor.isStopped = true ↔ ∃ x ∈ h, x.2 = .stop
  /-- Until it is told to stop, the tunnel runs, or it runs again as soon as all runs have been over
  for the retry interval. So the first run begins at once when the tunnel is registered. -/
  goesOn : (∃ x ∈ h, x.2 = .start) → (∀ x ∈ h, x.2 ≠ .stop) →
    (∃ r, s.runs.getLast? = some r ∧ r.ended = none) ∨
    ∀ now, (∀ a ∈ s.runs, a.OverBefore retry now) →
      ((s.step now .goesOn).step now .goesOn).runs = s.runs ++ [{ begun := now }]
  /-- If it has been told to stop before it is started, there is no run. -/
  stoppedBefore : ∀ since t before, h = since ++ (t, .start) :: before →
    (∀ x ∈ before, x.2 ≠ .start) → (∃ x ∈ before, x.2 = .stop) → s.runs = []
  /-- Once it has seen a stop, no run begins. -/
  unmoved : ∀ since before s₀, h = since ++ before → Run retry conncheck before s₀ →
    s₀.supervisor.phase.hasLeft = true → s.runs.length = s₀.runs.length
  /-- A stop that comes when it has found that it is not stopped, and is about to run its tunnel,
  keeps it from all later runs, and any other stop keeps it from this one as well. -/
  late : ∀ since before s₀, h = since ++ before → Run retry conncheck before s₀ →
    s₀.supervisor.isStopped = true → s.runs.length ≤ s₀.runs.length + 1 ∧
      (s₀.supervisor.phase ≠ .opening → s.runs.length = s₀.runs.length)
  /-- Once it has been told to stop, the tokens of all runs are cancelled, also of those that begin
  later, and so is the token of the probing. -/
  cancelled : (∃ x ∈ h, x.2 = .stop) → (∀ n < s.runs.length, n ∈ s.cancelled) ∧
    ∀ p, s.probe = some p → p.isCancelled = true
  /-- It finishes only after it was started and told to stop, when all runs and the probing are
  over. -/
  finished : s.supervisor.isFinished = true →
    (∃ x ∈ h, x.2 = .start) ∧ (∃ x ∈ h, x.2 = .stop) ∧ (∀ r ∈ s.runs, r.ended.isSome = true) ∧
      ∀ p, s.probe = some p → p.ended.isSome = true
  /-- Then it finishes, when the tunnel is registered, unless it is about to run it once more. -/
  finishes : s.supervisor.phase.hasRegistered = true → (∃ x ∈ h, x.2 = .stop) →
    s.supervisor.phase ≠ .opening → (∀ r ∈ s.runs, r.ended.isSome = true) →
    (∀ p, s.probe = some p → p.ended.isSome = true) → ∀ now,
      ((s.step now .goesOn).step now .goesOn).supervisor.isFinished = true
  /-- Before it is started nothing is done. -/
  before : (∀ x ∈ h, x.2 ≠ .start) → s.course = []
  /-- It registers its tunnel and then begins the probing, once, before the first run, and logs the
  end of every run. When it has left its loop it ends the probing, and then it deregisters the
  tunnel, both once and after the last run was over. -/
  course : (∃ x ∈ h, x.2 = .start) →
    s.course = .did .register ::
      (if s.supervisor.phase.hasRegistered && conncheck.isSome then [.did .beginProbing] else []) ++
      (s.runs.zipIdx 1).flatMap (fun (r, attempt) => r.marks attempt) ++
      (if s.supervisor.phase.hasLeft && conncheck.isSome then [.did .endProbing] else []) ++
      if s.supervisor.isFinished then [.did .deregister] else []
  /-- The probing is over once, after it has begun, and, unless it panics, after a stop. -/
  probeOver : ∀ before how after, s.diary = before ++ .probeOver how :: after →
    .did .beginProbing ∈ before ∧ (∀ how', .probeOver how' ∉ before) ∧
      (how = .cancelled → .did .cancelTokens ∈ before)
  /-- The probing is over before the tunnel is deregistered. -/
  deregister : ∀ before after, s.diary = before ++ .did .deregister :: after →
    conncheck.isSome = true → ∃ how, .probeOver how ∈ before

/-- A supervisor runs its tunnel as it should, whatever the tunnel and the probing do and whenever
it is told to stop. -/
theorem attends_of_run (hr : Run retry conncheck h s) : Attends retry conncheck h s where
  apart := hr.apart
  lasts := hr.lasts
  stopped := hr.isStopped_iff
  goesOn hstart hgo := by
    refine hr.goesOn (hr.begun_iff.mpr hstart) ?_
    rw [Bool.eq_false_iff, Ne, hr.isStopped_iff]
    push Not
    exact hgo
  stoppedBefore since t before heq := by
    subst heq
    exact hr.runs_of_stopped
  unmoved since before s₀ heq hr₀ hleft := by
    subst heq
    cases hr₀.standing.2 with
    | closing hp hstop _ | finished hp hstop _ =>
      exact (hr₀.late hstop hr).atMost (by rw [hp]; nofun)
    | idle hp _ _ | registering hp _ _ | opening hp _ | running hp _ _ _ _ | resting hp _ =>
      rw [hp] at hleft
      cases hleft
  late since before s₀ heq hr₀ hstop := by
    subst heq
    have hlate := hr₀.late hstop hr
    exact ⟨hlate.once, hlate.atMost⟩
  cancelled hstop := by
    have hstopped := hr.isStopped_iff.mpr hstop
    have hl := hr.linked.2
    exact ⟨hl.cancelled hstopped, fun p hp => (hl.token p hp).trans hstopped⟩
  finished hfin := by
    rw [isFinished_iff] at hfin
    rw [← hr.begun_iff, ← hr.isStopped_iff]
    cases hr.standing.2 with
    | finished hp hstop hover =>
      refine ⟨by rw [hp]; nofun, hstop, hover, fun p hprobe => ?_⟩
      have hl := hr.linked.2
      have hnot : s.supervisor.isProbing ≠ true := by rw [hl.waits hp]; nofun
      rw [Ne, hl.probing, hprobe] at hnot
      cases ho : p.ended with
      | none => exact absurd (by simp [ho]) hnot
      | some how => rfl
    | idle hp _ _ | registering hp _ _ | opening hp _ | running hp _ _ _ _ | resting hp _
    | closing hp _ _ => cases hp.symm.trans hfin
  finishes hregistered hstop := hr.finishes hregistered (hr.isStopped_iff.mpr hstop)
  before hidle := by
    have hp := hr.idle_iff.mpr hidle
    simp [hr.course_eq, opening, closing, rounds, hp, (hr.standing.2.fresh (.inl hp)).1,
      SupervisorPhase.hasLeft, SupervisorPhase.hasRegistered]
  course hstart := by
    have hbegun := hr.begun_iff.mpr hstart
    obtain ⟨rfl, -⟩ := hr.linked
    rw [hr.course_eq, opening, closing, rounds, if_neg hbegun]
    cases hc : s.supervisor.conncheck <;>
      simp [Supervisor.ifProbed, hc, isFinished_iff]
  probeOver before how after heq := hr.timely.2 before _ after heq
  deregister before after heq := hr.timely.2 before _ after heq

/-- With a retry interval of five, a tunnel panics, then fails after it has cancelled its own token,
and then runs until the supervisor, which is told so twice, stops it. The probing ends with the
first of these stops. -/
theorem three_rounds :
    ∃ h s, Run ⟨5⟩ (some {}) h s ∧ Attends ⟨5⟩ (some {}) h s ∧ (50, .stop) ∈ h ∧ (51, .stop) ∈ h ∧
      s.runs.map (·.begun) = [10, 17, 30] ∧ s.supervisor.isFinished = true ∧
      s.diary.length = 15 := by
  have h₀ := (Run.begin : Run ⟨5⟩ (some {}) [] _).next 9 .start (by decide)
  have h₁ := (h₀.next 10 .goesOn (by decide)).next 10 .goesOn (by decide)
  have h₂ := h₁.next 12 (.ends 0 .panicked) (by decide)
  have h₃ := (h₂.next 17 .goesOn (by decide)).next 17 .goesOn (by decide)
  have h₄ := h₃.next 18 (.cancels 1) (by decide)
  have h₅ := h₄.next 25 (.ends 1 (.failed (.other "boom"))) (by decide)
  have h₆ := (h₅.next 29 .goesOn (by decide)).next 30 .goesOn (by decide)
  have h₇ := (h₆.next 30 .goesOn (by decide)).next 50 .stop (by decide)
  have h₈ := (h₇.next 51 .stop (by decide)).next 52 (.probeEnds .cancelled) (by decide)
  have h₉ := h₈.next 60 (.ends 2 .returned) (by decide)
  have h₁₀ := (h₉.next 60 .goesOn (by decide)).next 60 .goesOn (by decide)
  refine ⟨_, _, h₁₀, attends_of_run h₁₀, ?_, ?_, ?_, ?_, ?_⟩
  · simp
  · simp
  · decide +kernel
  · decide +kernel
  · decide +kernel

/-- The probing need not be over after the last run. A stop ends it while the run in flight goes on;
and without any stop it panics if it is to make room for more than there can be. -/
theorem probing_over_early :
    (∃ h s, Run ⟨5⟩ (some {}) h s ∧ s.diary =
      [.did .register, .did .beginProbing, .did .beginRun, .did .cancelTokens,
        .probeOver .cancelled, .ended, .did (.log (RunOutcome.returned.report 1)),
        .did .endProbing, .did .deregister]) ∧
    Probe.check? { maxRead := 18446744073709551615 }
      ⟨.connected ⟨0⟩, [(⟨0⟩, .closed)]⟩ = none ∧
    ∃ h s, Run ⟨5⟩ (some { maxRead := 18446744073709551615 }) h s ∧ (∀ x ∈ h, x.2 ≠ .stop) ∧
      (∃ r ∈ s.runs, r.ended = none) ∧ .probeOver .panicked ∈ s.diary := by
  refine ⟨?_, by decide +kernel, ?_⟩
  · have h₀ := (Run.begin : Run ⟨5⟩ (some {}) [] _).next 9 .start (by decide)
    have h₁ := (h₀.next 10 .goesOn (by decide)).next 10 .goesOn (by decide)
    have h₂ := h₁.next 20 .stop (by decide)
    have h₃ := h₂.next 21 (.probeEnds .cancelled) (by decide)
    have h₄ := (h₃.next 30 (.ends 0 .returned) (by decide)).next 30 .goesOn (by decide)
    have h₅ := h₄.next 30 .goesOn (by decide)
    exact ⟨_, _, h₅, by decide +kernel⟩
  · have h₀ := (Run.begin : Run ⟨5⟩ (some { maxRead := 18446744073709551615 }) [] _).next 9
      .start (by decide)
    have h₁ := (h₀.next 10 .goesOn (by decide)).next 10 .goesOn (by decide)
    have h₂ := h₁.next 11 (.probeEnds .panicked) (by decide)
    refine ⟨_, _, h₂, by simp, ⟨_, List.mem_singleton_self _, rfl⟩, ?_⟩
    decide +kernel

end Rounds
end SshTunnels
