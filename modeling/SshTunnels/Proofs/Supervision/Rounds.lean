import Mathlib.Order.Bounds.Basic
import SshTunnels.Proofs.Supervision.Steps
import SshTunnels.Tunnel.Error

/-!
# The rounds of a supervisor

A supervisor with its tunnel and the task that probes the tunnel, over time. The tunnel is free to
end its runs when and how it likes, to let them go on until they are cancelled or longer, and to
cancel their tokens itself. The task is over at any time after its token is cancelled, and it can
panic at any time. The supervisor can be told to stop at any moment and any number of times: before
it begins, while the tunnel is being registered, between a look for a stop and the run that it
allows, during a run, while it rests, and while it waits for the probing to be over.

`Turn` says once what an event can do to them, given what the runs are like where the supervisor
stands (`Standing`). From it follows the distance between runs (`Run.apart`).
-/

namespace SshTunnels

/-- A run of a tunnel: when it began, and when and how it was over. -/
structure Round where
  begun : Instant
  ended : Option (Instant × RunOutcome) := none
  deriving DecidableEq, Repr

/-- How the probing is over: its token was cancelled, or it panicked. -/
inductive ProbeEnd where
  | cancelled
  | panicked
  deriving DecidableEq, Repr

/-- The task that probes a tunnel: whether its token is cancelled, and how it was over. -/
structure ProbeTask where
  isCancelled : Bool
  ended : Option ProbeEnd := none
  deriving DecidableEq, Repr

/-- What is noted of a supervisor, its tunnel and the probing. -/
inductive RoundMark where
  | did (act : SupervisorAct)
  | ended
  | probeOver (how : ProbeEnd)
  deriving DecidableEq, Repr

/-- A supervisor with the runs of its tunnel in order, the numbers of the runs whose token is
cancelled, the task that probes the tunnel, and what has been noted of them, in order. -/
structure Rounds where
  supervisor : Supervisor
  now : Instant := 0
  runs : List Round := []
  cancelled : List Nat := []
  probe : Option ProbeTask := none
  diary : List RoundMark := []

/-- What happens to a supervisor, its tunnel and the probing: the supervisor is started, told to
stop or goes on by itself; the token of a run is cancelled by the tunnel, or a run is over; the
probing is over. -/
inductive RoundEvent where
  | start
  | stop
  | goesOn
  | cancels (run : Nat)
  | ends (run : Nat) (outcome : RunOutcome)
  | probeEnds (how : ProbeEnd)

/-- What has happened, and when, the latest first. -/
abbrev RoundHistory := List (Instant × RoundEvent)

namespace Round

/-- The run, over. -/
def finish (now : Instant) (outcome : RunOutcome) (r : Round) : Round :=
  { r with ended := some (now, outcome) }

/-- The run was over, in whatever way, a retry interval before some time. -/
def OverBefore (retry : Span) (r : Round) (t : Instant) : Prop :=
  ∃ since outcome, r.ended = some (since, outcome) ∧ since.after retry ≤ t

/-- What is noted of the run, which is the supervisor's attempt of some number. -/
def marks (attempt : Nat) (r : Round) : List RoundMark :=
  .did .beginRun :: match r.ended with
    | none => []
    | some (_, outcome) => [.ended, .did (.log (outcome.report attempt))]

end Round

namespace ProbeTask

/-- The task, with its token cancelled. -/
def cancel (p : ProbeTask) : ProbeTask :=
  { p with isCancelled := true }

/-- The task is not over, and can be over in this way now. -/
def mayEnd (p : ProbeTask) (how : ProbeEnd) : Bool :=
  p.ended.isNone && (how == .panicked || p.isCancelled)

end ProbeTask

namespace RoundMark

/-- Marks that have no fixed place among the others: a stop comes at any time, and so does the end
of the probing. -/
def isLoose : RoundMark → Bool
  | .did .cancelTokens | .probeOver _ => true
  | _ => false

end RoundMark

namespace Rounds

/-- What an act of the supervisor does to the runs and to the probing. The token of a run and that
of the probing come from the supervisor's. No run is dropped, as nobody is aborted here. -/
def affect (s : Rounds) : SupervisorAct → Rounds
  | .beginProbing => { s with probe := some { isCancelled := s.supervisor.isStopped } }
  | .beginRun =>
    { s with
      runs := s.runs ++ [{ begun := s.now }]
      cancelled :=
        if s.supervisor.isStopped then s.runs.length :: s.cancelled else s.cancelled }
  | .cancelTokens =>
    { s with cancelled := List.range s.runs.length, probe := s.probe.map ProbeTask.cancel }
  | .endProbing => { s with probe := s.probe.map ProbeTask.cancel }
  | .register | .deregister | .log _ | .dropRun => s

/-- Brings an event to the supervisor, and carries out and notes what it does. -/
def tell (s : Rounds) (event : SupervisorEvent) : Rounds :=
  let (supervisor, acts) := s.supervisor.step s.now event
  let s' := acts.foldl affect { s with supervisor }
  { s' with diary := s.diary ++ acts.map .did }

/-- What an event makes of a supervisor, its tunnel and the probing. What is over does not end
again. -/
def step (s : Rounds) (now : Instant) : RoundEvent → Rounds
  | .start => tell { s with now } .start
  | .stop => tell { s with now } .stop
  | .goesOn => tell { s with now } .goesOn
  | .cancels n =>
    { s with now, cancelled := if n < s.runs.length then n :: s.cancelled else s.cancelled }
  | .ends n outcome =>
    match s.runs[n]? with
    | none => { s with now }
    | some r =>
      if r.ended.isSome then { s with now }
      else
        tell { s with
          now
          runs := s.runs.modify n (Round.finish now outcome)
          diary := s.diary ++ [.ended] } (.returned outcome)
  | .probeEnds how =>
    match s.probe with
    | none => { s with now }
    | some p =>
      if p.mayEnd how then
        tell { s with
          now
          probe := some { p with ended := some how }
          diary := s.diary ++ [.probeOver how] } .probeOver
      else { s with now }

/-- `Run retry conncheck h s`: the events of `h`, in the order of their times, have brought a
supervisor that had not begun to `s`. -/
inductive Run (retry : Span) (conncheck : Option ConncheckOptions) :
    RoundHistory → Rounds → Prop where
  | begin : Run retry conncheck [] { supervisor := { retry, conncheck } }
  | next {h : RoundHistory} {s : Rounds} (now : Instant) (event : RoundEvent) :
      Run retry conncheck h s → s.now ≤ now →
      Run retry conncheck ((now, event) :: h) (s.step now event)

/-! ## What an event does -/

/-- What the runs are like where the supervisor stands. -/
inductive Standing (retry : Span) (s : Rounds) : Prop where
  | idle : s.supervisor.phase = .idle → s.runs = [] → s.probe = none → Standing retry s
  | registering : s.supervisor.phase = .registering → s.runs = [] → s.probe = none →
      Standing retry s
  /-- Every run has been over for a retry interval. -/
  | opening : s.supervisor.phase = .opening →
      (∀ a ∈ s.runs, a.OverBefore retry s.now) → Standing retry s
  /-- The last run is in flight. -/
  | running {earlier : List Round} {r : Round} :
      s.supervisor.phase = .running → s.runs = earlier ++ [r] → r.ended = none →
      r.begun ≤ s.now → (∀ a ∈ earlier, a.OverBefore retry r.begun) → Standing retry s
  /-- The rest is over as soon as every run has been over for a retry interval. -/
  | resting {until' : Instant} : s.supervisor.phase = .resting until' →
      IsLeast {t | ∀ a ∈ s.runs, a.OverBefore retry t} until' → Standing retry s
  | closing : s.supervisor.phase = .closing → s.supervisor.isStopped = true →
      (∀ a ∈ s.runs, a.ended.isSome = true) → Standing retry s
  | finished : s.supervisor.phase = .finished → s.supervisor.isStopped = true →
      (∀ a ∈ s.runs, a.ended.isSome = true) → Standing retry s

/-- What an event makes of a supervisor, its tunnel and the probing. -/
inductive Turn (s : Rounds) (now : Instant) : RoundEvent → Rounds → Prop where
  /-- The supervisor begins to register its tunnel. -/
  | registers : s.supervisor.phase = .idle →
      Turn s now .start { s with
        supervisor := { s.supervisor with phase := .registering }
        now, diary := s.diary ++ [.did .register] }
  /-- The tunnel is registered: the supervisor has it probed, and is about to run it. -/
  | starts : s.supervisor.phase = .registering → s.supervisor.isStopped = false →
      Turn s now .goesOn { s with
        supervisor := { s.supervisor with
          phase := .opening, isProbing := s.supervisor.conncheck.isSome }
        now, probe := s.supervisor.conncheck.map fun _ => { isCancelled := false }
        diary := s.diary ++ (s.supervisor.ifProbed .beginProbing).map .did }
  /-- The tunnel is registered, but by then the supervisor has been told to stop. -/
  | passes : s.supervisor.phase = .registering → s.supervisor.isStopped = true →
      Turn s now .goesOn { s with
        supervisor := { s.supervisor with
          phase := .closing, isProbing := s.supervisor.conncheck.isSome }
        now, probe := s.supervisor.conncheck.map fun _ => { isCancelled := true }
        diary := s.diary ++
          (s.supervisor.ifProbed .beginProbing ++ s.supervisor.ifProbed .endProbing).map .did }
  /-- The supervisor runs its tunnel. If it has been told to stop in the meantime, the token of the
  run is cancelled from the beginning. -/
  | begins : s.supervisor.phase = .opening →
      Turn s now .goesOn { s with
        supervisor := { s.supervisor with phase := .running, runs := s.supervisor.runs + 1 }
        now, runs := s.runs ++ [{ begun := now }]
        cancelled :=
          if s.supervisor.isStopped then s.runs.length :: s.cancelled else s.cancelled
        diary := s.diary ++ [.did .beginRun] }
  /-- The run in flight is over, and the supervisor rests. -/
  | rests {n : Nat} {outcome : RunOutcome} {earlier : List Round} {r : Round} :
      s.supervisor.phase = .running → s.runs = earlier ++ [r] → r.ended = none →
      Turn s now (.ends n outcome) { s with
        supervisor := { s.supervisor with phase := .resting (now.after s.supervisor.retry) }
        now, runs := earlier ++ [r.finish now outcome]
        diary := s.diary ++ [.ended, .did (.log (outcome.report s.supervisor.runs))] }
  /-- The supervisor has rested, and is about to run its tunnel again. -/
  | wakes {until' : Instant} : s.supervisor.phase = .resting until' →
      s.supervisor.isStopped = false → until' ≤ now →
      Turn s now .goesOn { s with supervisor := { s.supervisor with phase := .opening }, now }
  /-- The supervisor, which rests, finds that it has been told to stop. -/
  | leaves {until' : Instant} : s.supervisor.phase = .resting until' →
      s.supervisor.isStopped = true →
      Turn s now .goesOn { s with
        supervisor := { s.supervisor with phase := .closing }
        now
        probe :=
          if s.supervisor.conncheck.isSome then s.probe.map ProbeTask.cancel else s.probe
        diary := s.diary ++ (s.supervisor.ifProbed .endProbing).map .did }
  /-- The probing is over, and the supervisor is done. -/
  | finishes : s.supervisor.phase = .closing → s.supervisor.isProbing = false →
      Turn s now .goesOn { s with
        supervisor := { s.supervisor with phase := .finished }
        now, diary := s.diary ++ [.did .deregister] }
  | probeEnds {how : ProbeEnd} {p : ProbeTask} : s.probe = some p → p.mayEnd how = true →
      Turn s now (.probeEnds how) { s with
        supervisor := { s.supervisor with isProbing := false }
        now, probe := some { p with ended := some how }, diary := s.diary ++ [.probeOver how] }
  /-- The supervisor is told to stop, and cancels all tokens that were given out. -/
  | stops : s.supervisor.isStopped = false →
      Turn s now .stop { s with
        supervisor := { s.supervisor with isStopped := true }
        now, cancelled := List.range s.runs.length, probe := s.probe.map ProbeTask.cancel
        diary := s.diary ++ [.did .cancelTokens] }
  /-- The tunnel cancels the token of a run. -/
  | cancels {n : Nat} : Turn s now (.cancels n) { s with
      now, cancelled := if n < s.runs.length then n :: s.cancelled else s.cancelled }
  /-- Nothing happens. -/
  | waits {event : RoundEvent} : (event = .start → s.supervisor.phase ≠ .idle) →
      (event = .stop → s.supervisor.isStopped = true) → Turn s now event { s with now }

variable {retry : Span} {conncheck : Option ConncheckOptions} {h : RoundHistory} {s s' : Rounds}
  {now t until' : Instant} {event : RoundEvent} {n : Nat} {r : Round} {earlier : List Round}
  {outcome : RunOutcome}

/-- A run in flight is the last one, and the supervisor waits for it. -/
theorem Standing.last (hs : Standing retry s) (hr : s.runs[n]? = some r) (ho : r.ended = none) :
    s.supervisor.phase = .running ∧ ∃ earlier, s.runs = earlier ++ [r] ∧ n = earlier.length := by
  cases hs with
  | idle _ hnone _ | registering _ hnone _ =>
    rw [hnone] at hr
    cases hr
  | @running earlier last hp hruns _ _ hearlier =>
    refine ⟨hp, earlier, ?_⟩
    rw [hruns] at hr ⊢
    rcases Nat.lt_trichotomy n earlier.length with hlt | rfl | hgt
    · rw [List.getElem?_append_left hlt] at hr
      obtain ⟨_, _, heq, -⟩ := hearlier r (List.mem_of_getElem? hr)
      cases ho.symm.trans heq
    · rw [List.getElem?_concat_length] at hr
      cases hr
      exact ⟨rfl, rfl⟩
    · rw [List.getElem?_eq_none (by rw [List.length_append]; exact hgt)] at hr
      cases hr
  | opening _ hover =>
    obtain ⟨_, _, heq, -⟩ := hover r (List.mem_of_getElem? hr)
    cases ho.symm.trans heq
  | resting _ hleast =>
    obtain ⟨_, _, heq, -⟩ := hleast.1 r (List.mem_of_getElem? hr)
    cases ho.symm.trans heq
  | closing _ _ hover | finished _ _ hover =>
    have hsome := hover r (List.mem_of_getElem? hr)
    rw [ho] at hsome
    cases hsome

/-- Before the tunnel is registered there are no runs and there is no probing. -/
theorem Standing.fresh (hs : Standing retry s)
    (hp : s.supervisor.phase = .idle ∨ s.supervisor.phase = .registering) :
    s.runs = [] ∧ s.probe = none := by
  cases hs with
  | idle _ hruns hprobe | registering _ hruns hprobe => exact ⟨hruns, hprobe⟩
  | opening hp' _ | running hp' _ _ _ _ | resting hp' _ | closing hp' _ _ | finished hp' _ _ =>
    rw [hp'] at hp
    simp at hp

theorem Standing.of_opening (hs : Standing retry s) (hp : s.supervisor.phase = .opening) :
    ∀ a ∈ s.runs, a.OverBefore retry s.now := by
  cases hs with
  | opening _ hover => exact hover
  | idle hp' _ _ | registering hp' _ _ | running hp' _ _ _ _ | resting hp' _ | closing hp' _ _
  | finished hp' _ _ => cases hp.symm.trans hp'

/-- The run in flight began at some earlier time, a retry interval after each one before it was
over. -/
theorem Standing.of_running (hs : Standing retry s) (hp : s.supervisor.phase = .running)
    (hruns : s.runs = earlier ++ [r]) :
    r.begun ≤ s.now ∧ ∀ a ∈ earlier, a.OverBefore retry r.begun := by
  cases hs with
  | running _ hruns' _ hbegun hearlier =>
    obtain ⟨rfl, heq⟩ := List.append_inj' (hruns'.symm.trans hruns) rfl
    cases heq
    exact ⟨hbegun, hearlier⟩
  | idle hp' _ _ | registering hp' _ _ | opening hp' _ | resting hp' _ | closing hp' _ _
  | finished hp' _ _ => cases hp.symm.trans hp'

theorem Standing.of_resting (hs : Standing retry s) (hp : s.supervisor.phase = .resting until') :
    IsLeast {t | ∀ a ∈ s.runs, a.OverBefore retry t} until' := by
  cases hs with
  | resting hp' hleast =>
    cases hp.symm.trans hp'
    exact hleast
  | idle hp' _ _ | registering hp' _ _ | opening hp' _ | running hp' _ _ _ _ | closing hp' _ _
  | finished hp' _ _ => cases hp.symm.trans hp'

theorem Standing.of_closing (hs : Standing retry s) (hp : s.supervisor.phase = .closing) :
    s.supervisor.isStopped = true ∧ ∀ a ∈ s.runs, a.ended.isSome = true := by
  cases hs with
  | closing _ hstop hover => exact ⟨hstop, hover⟩
  | idle hp' _ _ | registering hp' _ _ | opening hp' _ | running hp' _ _ _ _ | resting hp' _
  | finished hp' _ _ => cases hp.symm.trans hp'

/-- What the supervisor does of itself when it hears of an event. -/
theorem tell_of_step {supervisor : Supervisor} {acts : List SupervisorAct} {e : SupervisorEvent}
    (h : s.supervisor.step s.now e = (supervisor, acts)) :
    s.tell e = { acts.foldl affect { s with supervisor } with
      diary := s.diary ++ acts.map .did } := by
  rw [tell, h]

/-- A supervisor that has nothing to do for an event stays as it is. -/
theorem tell_of_same {e : SupervisorEvent}
    (h : s.supervisor.step now e = (s.supervisor, [])) :
    tell { s with now } e = { s with now } := by
  rw [tell_of_step h]
  simp

theorem turn_start (s : Rounds) (now : Instant) : Turn s now .start (s.step now .start) := by
  cases hp : s.supervisor.phase with
  | idle =>
    have hstep : s.supervisor.step now .start =
        ({ s.supervisor with phase := .registering }, [.register]) := by
      simp only [Supervisor.step, hp]
    rw [step, tell_of_step hstep]
    exact .registers hp
  | registering | opening | running | resting until' | closing | finished | aborted =>
    rw [step, tell_of_same (by simp only [Supervisor.step, hp])]
    exact .waits (by simp [hp]) (by simp)

theorem turn_stop (s : Rounds) (now : Instant) : Turn s now .stop (s.step now .stop) := by
  cases hstop : s.supervisor.isStopped with
  | true =>
    have hsame : ({ s.supervisor with isStopped := true } : Supervisor) = s.supervisor := by
      rw [← hstop]
    rw [step, tell_of_same (by simp [Supervisor.step, hstop, hsame])]
    exact .waits (by simp) fun _ => hstop
  | false =>
    have hstep : s.supervisor.step now .stop =
        ({ s.supervisor with isStopped := true }, [.cancelTokens]) := by
      simp [Supervisor.step, hstop]
    rw [step, tell_of_step hstep]
    exact .stops hstop

/-- When the tunnel is registered, a supervisor has it probed and is about to run it. -/
theorem Standing.goesOn_of_registered (hs : Standing retry s)
    (hp : s.supervisor.phase = .registering) (hgo : s.supervisor.isStopped = false) :
    s.step now .goesOn = { s with
      supervisor := { s.supervisor with
        phase := .opening, isProbing := s.supervisor.conncheck.isSome }
      now, probe := s.supervisor.conncheck.map fun _ => { isCancelled := false }
      diary := s.diary ++ (s.supervisor.ifProbed .beginProbing).map .did } := by
  have hprobe := (hs.fresh (.inr hp)).2
  have hstep : s.supervisor.step now .goesOn =
      ({ s.supervisor with phase := .opening, isProbing := s.supervisor.conncheck.isSome },
        s.supervisor.ifProbed .beginProbing) := by
    simp [Supervisor.step, Supervisor.isReady, Supervisor.goOn, Supervisor.look, hp, hgo]
  rw [step, tell_of_step hstep]
  cases hc : s.supervisor.conncheck <;> simp [Supervisor.ifProbed, affect, hc, hgo, hprobe]

/-- A supervisor that has been told to stop by the time the tunnel is registered does not run it. -/
theorem Standing.goesOn_of_stopped (hs : Standing retry s)
    (hp : s.supervisor.phase = .registering) (hstop : s.supervisor.isStopped = true) :
    s.step now .goesOn = { s with
      supervisor := { s.supervisor with
        phase := .closing, isProbing := s.supervisor.conncheck.isSome }
      now, probe := s.supervisor.conncheck.map fun _ => { isCancelled := true }
      diary := s.diary ++
        (s.supervisor.ifProbed .beginProbing ++ s.supervisor.ifProbed .endProbing).map .did } := by
  have hprobe := (hs.fresh (.inr hp)).2
  have hstep : s.supervisor.step now .goesOn =
      ({ s.supervisor with phase := .closing, isProbing := s.supervisor.conncheck.isSome },
        s.supervisor.ifProbed .beginProbing ++ s.supervisor.ifProbed .endProbing) := by
    simp [Supervisor.step, Supervisor.isReady, Supervisor.goOn, Supervisor.look, hp, hstop,
      Supervisor.ifProbed]
  rw [step, tell_of_step hstep]
  cases hc : s.supervisor.conncheck <;>
    simp [Supervisor.ifProbed, affect, hc, hstop, hprobe, ProbeTask.cancel]

/-- A supervisor that is about to run its tunnel begins at once. -/
theorem goesOn_of_opening (hp : s.supervisor.phase = .opening) :
    s.step now .goesOn = { s with
      supervisor := { s.supervisor with phase := .running, runs := s.supervisor.runs + 1 }
      now, runs := s.runs ++ [{ begun := now }]
      cancelled := if s.supervisor.isStopped then s.runs.length :: s.cancelled else s.cancelled
      diary := s.diary ++ [.did .beginRun] } := by
  have hstep : s.supervisor.step now .goesOn =
      ({ s.supervisor with phase := .running, runs := s.supervisor.runs + 1 }, [.beginRun]) := by
    simp [Supervisor.step, Supervisor.isReady, Supervisor.goOn, hp]
  rw [step, tell_of_step hstep]
  rfl

/-- A supervisor that has rested long enough is about to run its tunnel again. -/
theorem goesOn_of_rested (hp : s.supervisor.phase = .resting until')
    (hgo : s.supervisor.isStopped = false) (hdue : until' ≤ now) :
    s.step now .goesOn = { s with supervisor := { s.supervisor with phase := .opening }, now } := by
  have hstep : s.supervisor.step now .goesOn =
      ({ s.supervisor with phase := .opening }, []) := by
    simp [Supervisor.step, Supervisor.isReady, Supervisor.goOn, Supervisor.look, hp, hgo, hdue]
  rw [step, tell_of_step hstep]
  simp

/-- A supervisor that has been told to stop does not go on with its rest. -/
theorem goesOn_of_roused (hp : s.supervisor.phase = .resting until')
    (hstop : s.supervisor.isStopped = true) :
    s.step now .goesOn = { s with
      supervisor := { s.supervisor with phase := .closing }
      now
      probe := if s.supervisor.conncheck.isSome then s.probe.map ProbeTask.cancel else s.probe
      diary := s.diary ++ (s.supervisor.ifProbed .endProbing).map .did } := by
  have hstep : s.supervisor.step now .goesOn =
      ({ s.supervisor with phase := .closing }, s.supervisor.ifProbed .endProbing) := by
    simp [Supervisor.step, Supervisor.isReady, Supervisor.goOn, Supervisor.look, hp, hstop,
      Supervisor.ifProbed]
  rw [step, tell_of_step hstep]
  cases hc : s.supervisor.conncheck <;> simp [Supervisor.ifProbed, hc, affect]

/-- A supervisor that has left its loop is done when the probing is over. -/
theorem goesOn_of_closing (hp : s.supervisor.phase = .closing)
    (hprobe : s.supervisor.isProbing = false) :
    s.step now .goesOn = { s with
      supervisor := { s.supervisor with phase := .finished }
      now, diary := s.diary ++ [.did .deregister] } := by
  have hstep : s.supervisor.step now .goesOn =
      ({ s.supervisor with phase := .finished }, [.deregister]) := by
    simp [Supervisor.step, Supervisor.isReady, Supervisor.goOn, hp, hprobe]
  rw [step, tell_of_step hstep]
  rfl

theorem goesOn_of_not_ready (hready : s.supervisor.isReady now = false) :
    s.step now .goesOn = { s with now } := by
  rw [step, tell_of_same (by simp [Supervisor.step, hready])]

theorem Standing.turn_goesOn (hs : Standing retry s) (now : Instant) :
    Turn s now .goesOn (s.step now .goesOn) := by
  have hwaits (hready : s.supervisor.isReady now = false) :
      Turn s now .goesOn (s.step now .goesOn) := by
    rw [goesOn_of_not_ready hready]
    exact .waits (by simp) (by simp)
  cases hp : s.supervisor.phase with
  | registering =>
    cases hstop : s.supervisor.isStopped with
    | true =>
      rw [hs.goesOn_of_stopped hp hstop]
      exact .passes hp hstop
    | false =>
      rw [hs.goesOn_of_registered hp hstop]
      exact .starts hp hstop
  | opening =>
    rw [goesOn_of_opening hp]
    exact .begins hp
  | resting until' =>
    cases hstop : s.supervisor.isStopped with
    | true =>
      rw [goesOn_of_roused hp hstop]
      exact .leaves hp hstop
    | false =>
      by_cases hdue : until' ≤ now
      · rw [goesOn_of_rested hp hstop hdue]
        exact .wakes hp hstop hdue
      · exact hwaits (by simp [Supervisor.isReady, hp, hstop, hdue])
  | closing =>
    cases hprobe : s.supervisor.isProbing with
    | true => exact hwaits (by simp [Supervisor.isReady, hp, hprobe])
    | false =>
      rw [goesOn_of_closing hp hprobe]
      exact .finishes hp hprobe
  | idle | running | finished | aborted => exact hwaits (by simp [Supervisor.isReady, hp])

theorem Standing.turn_ends (hs : Standing retry s) (now : Instant) (n : Nat)
    (outcome : RunOutcome) : Turn s now (.ends n outcome) (s.step now (.ends n outcome)) := by
  cases hr : s.runs[n]? with
  | none =>
    simp only [step, hr]
    exact .waits (by simp) (by simp)
  | some r =>
    cases ho : r.ended with
    | some end' =>
      simp only [step, hr, ho, Option.isSome_some, if_true]
      exact .waits (by simp) (by simp)
    | none =>
      obtain ⟨hp, earlier, hruns, rfl⟩ := hs.last hr ho
      have hover : s.runs.modify earlier.length (Round.finish now outcome) =
          earlier ++ [r.finish now outcome] := by
        rw [hruns, List.modify_eq_take_drop, List.take_left, List.drop_left]
        rfl
      have hstep : s.supervisor.step now (.returned outcome) =
          ({ s.supervisor with phase := .resting (now.after s.supervisor.retry) },
            [.log (outcome.report s.supervisor.runs)]) := by
        simp only [Supervisor.step, hp]
      simp only [step, hr, ho, Option.isSome_none, Bool.false_eq_true, if_false, hover]
      have ht : Turn s now (.ends earlier.length outcome) _ := .rests hp hruns ho
      rw [tell_of_step hstep]
      simpa [affect] using ht

theorem turn_probeEnds (s : Rounds) (now : Instant) (how : ProbeEnd) :
    Turn s now (.probeEnds how) (s.step now (.probeEnds how)) := by
  rw [step]
  split
  · exact .waits (by simp) (by simp)
  · next p hprobe =>
    split
    · next hmay =>
      have hstep : s.supervisor.step now .probeOver =
          ({ s.supervisor with isProbing := false }, []) := rfl
      have ht : Turn s now (.probeEnds how) _ := .probeEnds hprobe hmay
      rw [tell_of_step hstep]
      simpa using ht
    · exact .waits (by simp) (by simp)

/-- What an event makes of a supervisor, its tunnel and the probing is one of these. -/
theorem Standing.turn (hs : Standing retry s) (now : Instant) (event : RoundEvent) :
    Turn s now event (s.step now event) := by
  cases event with
  | start => exact s.turn_start now
  | stop => exact s.turn_stop now
  | goesOn => exact hs.turn_goesOn now
  | cancels n => exact .cancels
  | ends n outcome => exact hs.turn_ends now n outcome
  | probeEnds how => exact s.turn_probeEnds now how

/-! ## The distance between runs -/

theorem overBefore_mono (ho : r.OverBefore retry t) (ht : t ≤ until') :
    r.OverBefore retry until' := by
  obtain ⟨since, outcome, heq, hle⟩ := ho
  exact ⟨since, outcome, heq, Nat.le_trans hle ht⟩

theorem isSome_of_overBefore (ho : r.OverBefore retry t) : r.ended.isSome = true := by
  obtain ⟨since, outcome, heq, -⟩ := ho
  rw [heq]
  rfl

/-- When the last run ends now, every run has been over for a retry interval as soon as a retry
interval has passed. -/
theorem isLeast_of_finish (hbegun : r.begun ≤ now)
    (hearlier : ∀ a ∈ earlier, a.OverBefore retry r.begun) :
    IsLeast {t | ∀ a ∈ earlier ++ [r.finish now outcome], a.OverBefore retry t}
      (now.after retry) := by
  constructor
  · intro a ha
    rcases List.mem_append.mp ha with hmem | hlast
    · exact overBefore_mono (hearlier a hmem) (Nat.le_trans hbegun (Nat.le_add_right _ _))
    · rw [List.mem_singleton.mp hlast]
      exact ⟨now, outcome, rfl, Nat.le_refl _⟩
  · intro t ht
    obtain ⟨since, outcome', heq, hle⟩ := ht _ (List.mem_append_right _ (List.mem_singleton_self _))
    cases heq
    exact hle

/-- No event changes how the tunnel is run and probed. -/
theorem options_of_turn (ht : Turn s now event s') :
    s'.supervisor.retry = s.supervisor.retry ∧
    s'.supervisor.conncheck = s.supervisor.conncheck := by
  cases ht <;> exact ⟨rfl, rfl⟩

/-- An event that leaves the phase and the runs as they are leaves the supervisor where it
stands. -/
theorem Standing.of_same (hs : Standing retry s) (hnow : s.now ≤ s'.now)
    (hphase : s'.supervisor.phase = s.supervisor.phase) (hruns : s'.runs = s.runs)
    (hprobe : s.probe = none → s'.probe = none)
    (hstop : s.supervisor.isStopped = true → s'.supervisor.isStopped = true) :
    Standing retry s' := by
  cases hs with
  | idle hp hnone hprobe' => exact .idle (hphase.trans hp) (hruns.trans hnone) (hprobe hprobe')
  | registering hp hnone hprobe' =>
    exact .registering (hphase.trans hp) (hruns.trans hnone) (hprobe hprobe')
  | opening hp hover =>
    refine .opening (hphase.trans hp) fun a ha => ?_
    rw [hruns] at ha
    exact overBefore_mono (hover a ha) hnow
  | running hp hruns' ho hbegun hearlier =>
    exact .running (hphase.trans hp) (hruns.trans hruns') ho (Nat.le_trans hbegun hnow) hearlier
  | resting hp hleast => exact .resting (hphase.trans hp) (by rwa [hruns])
  | closing hp hstop' hover => exact .closing (hphase.trans hp) (hstop hstop') (by rwa [hruns])
  | finished hp hstop' hover => exact .finished (hphase.trans hp) (hstop hstop') (by rwa [hruns])

/-- Where the supervisor stands after an event. -/
theorem Standing.of_turn (hs : Standing retry s) (hretry : s.supervisor.retry = retry)
    (hnow : s.now ≤ now) (ht : Turn s now event s') : Standing retry s' := by
  cases ht with
  | registers hp =>
    obtain ⟨hruns, hprobe⟩ := hs.fresh (.inl hp)
    exact .registering rfl hruns hprobe
  | starts hp hgo =>
    refine .opening rfl ?_
    rw [(hs.fresh (.inr hp)).1]
    nofun
  | passes hp hstop =>
    refine .closing rfl hstop ?_
    rw [(hs.fresh (.inr hp)).1]
    nofun
  | begins hp =>
    exact .running rfl rfl rfl (Nat.le_refl _) fun a ha =>
      overBefore_mono (hs.of_opening hp a ha) hnow
  | rests hp hruns ho =>
    obtain ⟨hbegun, hearlier⟩ := hs.of_running hp hruns
    rw [hretry]
    exact .resting rfl (isLeast_of_finish (Nat.le_trans hbegun hnow) hearlier)
  | wakes hp hgo hdue =>
    exact .opening rfl fun a ha => overBefore_mono ((hs.of_resting hp).1 a ha) hdue
  | leaves hp hstop =>
    exact .closing rfl hstop fun a ha => isSome_of_overBefore ((hs.of_resting hp).1 a ha)
  | finishes hp hprobe =>
    obtain ⟨hstop, hover⟩ := hs.of_closing hp
    exact .finished rfl hstop hover
  | probeEnds hprobe hmay =>
    refine hs.of_same hnow rfl rfl (fun hnone => ?_) id
    cases hprobe.symm.trans hnone
  | stops hgo =>
    refine hs.of_same hnow rfl rfl (fun hnone => ?_) fun _ => rfl
    rw [hnone]
    rfl
  | cancels | waits _ _ => exact hs.of_same hnow rfl rfl id id

theorem Run.standing (hr : Run retry conncheck h s) :
    s.supervisor.retry = retry ∧ Standing retry s := by
  induction hr with
  | begin => exact ⟨rfl, .idle rfl rfl rfl⟩
  | @next h s now event _ hnow ih =>
    have ht := ih.2.turn now event
    exact ⟨(options_of_turn ht).1.trans ih.1, ih.2.of_turn ih.1 hnow ht⟩

/-- What an event makes of a supervisor, its tunnel and the probing, after any history. -/
theorem Run.turn (hr : Run retry conncheck h s) (now : Instant) (event : RoundEvent) :
    Turn s now event (s.step now event) :=
  hr.standing.2.turn now event

/-- What an event makes of the runs: one more begins, a retry interval after each earlier one was
over, or the last one is over, or they stay as they are. -/
theorem Run.runs_step (hr : Run retry conncheck h s) (hnow : s.now ≤ now) (event : RoundEvent) :
    (s.step now event).runs = s.runs ∨
    ((s.step now event).runs = s.runs ++ [{ begun := now }] ∧
      ∀ a ∈ s.runs, a.OverBefore retry now) ∨
    ∃ earlier r outcome, s.runs = earlier ++ [r] ∧ r.begun ≤ now ∧
      (s.step now event).runs = earlier ++ [r.finish now outcome] := by
  have hs := hr.standing.2
  have ht := hs.turn now event
  generalize s.step now event = s' at ht
  cases ht with
  | begins hp =>
    exact .inr (.inl ⟨rfl, fun a ha => overBefore_mono (hs.of_opening hp a ha) hnow⟩)
  | rests hp hruns ho =>
    have hbegun := (hs.of_running hp hruns).1
    exact .inr (.inr ⟨_, _, _, hruns, Nat.le_trans hbegun hnow, rfl⟩)
  | registers _ | starts _ _ | passes _ _ | wakes _ _ _ | leaves _ _ | finishes _ _
  | probeEnds _ _ | stops _ | cancels | waits _ _ => exact .inl rfl

/-- A run begins only a retry interval after each earlier one was over. -/
theorem Run.apart (hr : Run retry conncheck h s) :
    s.runs.Pairwise fun a b => a.OverBefore retry b.begun := by
  induction hr with
  | begin => exact List.Pairwise.nil
  | @next h s now event hrun hnow ih =>
    rcases hrun.runs_step hnow event with heq | ⟨heq, hover⟩ | ⟨earlier, r, outcome, hruns, -, heq⟩
    · rw [heq]
      exact ih
    · rw [heq]
      refine List.pairwise_append.mpr ⟨ih, List.pairwise_singleton _ _, fun a ha b hb => ?_⟩
      rw [List.mem_singleton.mp hb]
      exact hover a ha
    · rw [hruns] at ih
      rw [heq]
      obtain ⟨hearlier, -, hlast⟩ := List.pairwise_append.mp ih
      refine List.pairwise_append.mpr ⟨hearlier, List.pairwise_singleton _ _, fun a ha b hb => ?_⟩
      rw [List.mem_singleton.mp hb]
      exact hlast a ha r (List.mem_singleton_self r)

/-- No run is over before it began. -/
theorem Run.lasts (hr : Run retry conncheck h s) : ∀ r ∈ s.runs, ∀ t outcome,
    r.ended = some (t, outcome) → r.begun ≤ t := by
  induction hr with
  | begin => exact nofun
  | @next h s now event hrun hnow ih =>
    rcases hrun.runs_step hnow event with heq | ⟨heq, -⟩ | ⟨earlier, r, outcome, hruns, hle, heq⟩
    · rw [heq]
      exact ih
    · rw [heq]
      refine List.forall_mem_append.mpr ⟨ih, fun r hr => ?_⟩
      rw [List.mem_singleton.mp hr]
      nofun
    · rw [hruns] at ih
      rw [heq]
      refine List.forall_mem_append.mpr ⟨(List.forall_mem_append.mp ih).1, fun r' hr => ?_⟩
      rw [List.mem_singleton.mp hr]
      intro t outcome' ho
      cases ho
      exact hle

end Rounds
end SshTunnels
