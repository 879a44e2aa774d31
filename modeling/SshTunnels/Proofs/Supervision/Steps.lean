import SshTunnels.Proofs.Supervision.Calls
import SshTunnels.Supervisor
import SshTunnels.Tunnel.Config

/-!
# What a supervisor can do

A supervisor registers its tunnel when it begins and deregisters it when it finishes, and makes no
other call to discovery. It leaves its loop only when it has been told to stop, and then does
nothing more than to finish; one that is aborted makes no call at all.

`step_stepped` says once what an event can do to a supervisor and which calls are made.
-/

namespace SshTunnels

namespace SupervisorAct

/-- The call to discovery that an act is, if it is one, for a tunnel of this configuration. -/
def call? (c : TunnelConfig) : SupervisorAct → Option DiscoveryCall
  | .register => some (.register c.id c.tunnelPort)
  | .deregister => some (.deregister c.id)
  | .beginProbing | .beginRun | .log _ | .cancelTokens | .dropRun | .endProbing => none

end SupervisorAct

namespace SupervisorPhase

/-- The supervisor has begun and is not over. -/
def isActive : SupervisorPhase → Bool
  | .registering | .opening | .running | .resting _ | .closing => true
  | .idle | .finished | .aborted => false

/-- The supervisor does nothing more. -/
def isOver : SupervisorPhase → Bool
  | .finished | .aborted => true
  | .idle | .registering | .opening | .running | .resting _ | .closing => false

/-- The supervisor does not run its tunnel any more. -/
def hasLeft : SupervisorPhase → Bool
  | .closing | .finished | .aborted => true
  | .idle | .registering | .opening | .running | .resting _ => false

theorem hasLeft_of_isOver {phase : SupervisorPhase} (ho : phase.isOver = true) :
    phase.hasLeft = true := by
  cases phase <;> first | rfl | cases ho

theorem ne_finished_of_isActive {phase : SupervisorPhase} (ha : phase.isActive = true) :
    phase ≠ .finished := by
  rintro rfl
  cases ha

theorem ne_aborted_of_isActive {phase : SupervisorPhase} (ha : phase.isActive = true) :
    phase ≠ .aborted := by
  rintro rfl
  cases ha

theorem ne_idle_of_isActive {phase : SupervisorPhase} (ha : phase.isActive = true) :
    phase ≠ .idle := by
  rintro rfl
  cases ha

end SupervisorPhase

namespace Supervisor

/-- What an event makes of a supervisor whose tunnel has configuration `c`, and the calls to
discovery that it makes then. -/
inductive Stepped (c : TunnelConfig) (s : Supervisor) (event : SupervisorEvent) (s' : Supervisor) :
    List DiscoveryCall → Prop where
  | begins : s.phase = .idle → s'.phase = .registering →
      Stepped c s event s' [.register c.id c.tunnelPort]
  | ends : s.phase = .closing → s'.phase = .finished → s'.isStopped = s.isStopped →
      Stepped c s event s' [.deregister c.id]
  | drops : event = .abort → s.phase ≠ .finished → s'.phase = .aborted → s'.isStopped = true →
      Stepped c s event s' []
  /-- It is active before and after; it leaves its loop if it has been told to stop. -/
  | goesOn : s.phase.isActive = true → s'.phase.isActive = true →
      (s'.phase.hasLeft = true → s'.isStopped = true) → Stepped c s event s' []
  | stays : s'.phase = s.phase → (s.isStopped = true → s'.isStopped = true) →
      Stepped c s event s' []

variable {c : TunnelConfig} {s : Supervisor} {event : SupervisorEvent}

/-- What a look for a stop comes to: the supervisor is about to run its tunnel, or has left. -/
theorem look_spec (s : Supervisor) :
    s.look.1.phase.isActive = true ∧ s.look.1.isStopped = s.isStopped ∧
    (s.look.1.phase.hasLeft = true → s.look.1.isStopped = true) ∧
    s.look.2.filterMap (SupervisorAct.call? c) = [] := by
  rw [look]
  split
  · next hs =>
    refine ⟨rfl, rfl, fun _ => hs, ?_⟩
    rw [ifProbed]
    split <;> rfl
  · exact ⟨rfl, rfl, nofun, rfl⟩

theorem stepped_goOn (c : TunnelConfig) (s : Supervisor) (event : SupervisorEvent) :
    Stepped c s event s.goOn.1 (s.goOn.2.filterMap (SupervisorAct.call? c)) := by
  rw [goOn]
  split
  · next hp =>
    obtain ⟨ha, -, hleft, hcalls⟩ :=
      look_spec (c := c) { s with isProbing := s.conncheck.isSome }
    have hprobing : (s.ifProbed .beginProbing).filterMap (SupervisorAct.call? c) = [] := by
      rw [ifProbed]
      split <;> rfl
    rw [List.filterMap_append, hcalls, List.append_nil, hprobing]
    exact .goesOn (by rw [hp]; rfl) ha hleft
  · next hp => exact .goesOn (by rw [hp]; rfl) rfl nofun
  · next hp =>
    obtain ⟨ha, -, hleft, hcalls⟩ := s.look_spec (c := c)
    rw [hcalls]
    exact .goesOn (by rw [hp]; rfl) ha hleft
  · next hp => exact .ends hp rfl rfl
  all_goals exact .stays rfl id

theorem step_stepped (c : TunnelConfig) (s : Supervisor) (now : Instant) (event : SupervisorEvent) :
    Stepped c s event (s.step now event).1
      ((s.step now event).2.filterMap (SupervisorAct.call? c)) := by
  cases event with
  | start =>
    simp only [step]
    split
    · next hp => exact .begins hp rfl
    · exact .stays rfl id
  | goesOn =>
    simp only [step]
    split
    · exact s.stepped_goOn c .goesOn
    · exact .stays rfl id
  | returned outcome =>
    simp only [step]
    split
    · next hp => exact .goesOn (by rw [hp]; rfl) rfl nofun
    · exact .stays rfl id
  | probeOver => exact .stays rfl id
  | stop =>
    simp only [step]
    split
    · exact .stays rfl fun _ => rfl
    · exact .stays rfl fun _ => rfl
  | abort =>
    simp only [step]
    split
    · exact .stays rfl id
    · next hp => exact .drops rfl (by rw [hp]; nofun) rfl rfl
    · next hp _ => exact .drops rfl hp rfl rfl

theorem isStopped_goOn (s : Supervisor) : s.goOn.1.isStopped = s.isStopped := by
  rw [goOn]
  split
  · exact (look_spec (c := default) { s with isProbing := s.conncheck.isSome }).2.1
  · rfl
  · exact (s.look_spec (c := default)).2.1
  all_goals rfl

/-- A supervisor is stopped by being told so and in no other way. -/
theorem isStopped_step (now : Instant) : (s.step now event).1.isStopped = true ↔
    s.isStopped = true ∨ event = .stop ∨ event = .abort ∧ s.phase ≠ .finished := by
  cases event with
  | start =>
    simp only [step]
    split <;> simp
  | goesOn =>
    simp only [step]
    split
    · simp [isStopped_goOn]
    · simp
  | returned outcome =>
    simp only [step]
    split <;> simp
  | probeOver => simp [step]
  | stop => simp [step]
  | abort =>
    simp only [step]
    split <;> simp_all

theorem Stepped.idle {s' : Supervisor} {calls : List DiscoveryCall}
    (h : Stepped c s event s' calls) (hp : s'.phase = .idle) : s.phase = .idle := by
  cases h with
  | begins hidle _ => exact hidle
  | ends _ hp' _ | drops _ _ hp' _ => cases hp'.symm.trans hp
  | goesOn _ ha _ => exact absurd hp (SupervisorPhase.ne_idle_of_isActive ha)
  | stays h _ => exact h.symm.trans hp

/-- Nobody goes back to the beginning, or stays there when told to start. -/
theorem idle_of_step {now : Instant} (hp : (s.step now event).1.phase = .idle) :
    s.phase = .idle ∧ event ≠ .start := by
  have hidle : s.phase = .idle := (step_stepped default s now event).idle hp
  refine ⟨hidle, ?_⟩
  rintro rfl
  simp only [step, hidle] at hp
  cases hp

/-- The port that a tunnel of configuration `c` is registered at by a supervisor that has called
last for it. -/
def portAt (c : TunnelConfig) (s : Supervisor) : Option UInt16 :=
  if s.phase = .finished then none else some c.tunnelPort

section Speaking

variable {s' : Supervisor} {call : DiscoveryCall} {calls : List DiscoveryCall}

theorem Stepped.not_finished (h : Stepped c s event s' (call :: calls)) : s.phase ≠ .finished := by
  cases h with
  | begins hp _ | ends hp _ _ => rw [hp]; nofun

/-- Whoever calls has called last for its tunnel. -/
theorem Stepped.caller?_log (h : Stepped c s event s' (call :: calls)) (n : Nat)
    (log : DiscoveryLog) (id : Uuid) :
    DiscoveryLog.caller? (((call :: calls).map fun call => (n, call)).reverse ++ log) id =
      if id = c.id then some n else log.caller? id := by
  cases h with
  | begins _ _ | ends _ _ _ => rfl

/-- Whoever calls registers its tunnel, unless it has finished. -/
theorem Stepped.registered?_log (h : Stepped c s event s' (call :: calls)) (n : Nat)
    (log : DiscoveryLog) (id : Uuid) :
    DiscoveryLog.registered? (((call :: calls).map fun call => (n, call)).reverse ++ log) id =
      if id = c.id then s'.portAt c else log.registered? id := by
  cases h with
  | begins _ hp =>
    rw [portAt, hp]
    rfl
  | ends _ hp _ =>
    rw [portAt, hp]
    rfl

end Speaking

/-- How a phase changes without a call to discovery: nobody begins or finishes. -/
structure Drifts (s s' : Supervisor) : Prop where
  finished : s'.phase = .finished ↔ s.phase = .finished
  active : s'.phase.isActive = true → s.phase.isActive = true

theorem drifts_refl (s : Supervisor) : Drifts s s :=
  ⟨.rfl, id⟩

theorem Stepped.drifts {s' : Supervisor} (h : Stepped c s event s' []) : Drifts s s' := by
  cases h with
  | drops _ hp hp' _ =>
    refine ⟨iff_of_false ?_ hp, fun ha => ?_⟩
    · rw [hp']
      nofun
    · exact absurd hp' (SupervisorPhase.ne_aborted_of_isActive ha)
  | goesOn ha ha' _ =>
    exact ⟨iff_of_false (SupervisorPhase.ne_finished_of_isActive ha')
      (SupervisorPhase.ne_finished_of_isActive ha), fun _ => ha⟩
  | stays h _ => exact ⟨by rw [h], fun ha => h ▸ ha⟩

/-- Whoever has finished stays so. -/
theorem Stepped.of_finished {s' : Supervisor} {calls : List DiscoveryCall}
    (h : Stepped c s event s' calls) (hp : s.phase = .finished) :
    s'.phase = .finished ∧ calls = [] := by
  cases h with
  | begins hp' _ | ends hp' _ _ => cases hp'.symm.trans hp
  | drops _ hne _ _ => exact absurd hp hne
  | goesOn ha _ _ => exact absurd hp (SupervisorPhase.ne_finished_of_isActive ha)
  | stays h _ => exact ⟨h.trans hp, rfl⟩

/-- Whoever has left has been stopped. -/
theorem Stepped.stopped {s' : Supervisor} {calls : List DiscoveryCall}
    (h : Stepped c s event s' calls) (hs : s.phase.hasLeft = true → s.isStopped = true)
    (hp : s'.phase.hasLeft = true) : s'.isStopped = true := by
  cases h with
  | begins _ hp' =>
    rw [hp'] at hp
    cases hp
  | goesOn _ _ hleft => exact hleft hp
  | ends hclosing _ hsame =>
    rw [hsame]
    refine hs ?_
    rw [hclosing]
    rfl
  | drops _ _ _ hstop => exact hstop
  | stays h hstop => exact hstop (hs (h ▸ hp))

/-- Whoever is aborted has been told so. -/
theorem Stepped.aborted {s' : Supervisor} {calls : List DiscoveryCall}
    (h : Stepped c s event s' calls) (hp : s'.phase = .aborted) :
    event = .abort ∨ s.phase = .aborted := by
  cases h with
  | goesOn _ ha _ => exact absurd hp (SupervisorPhase.ne_aborted_of_isActive ha)
  | begins _ hp' | ends _ hp' _ => cases hp'.symm.trans hp
  | drops he _ _ _ => exact .inl he
  | stays h _ => exact .inr (h.symm.trans hp)

end Supervisor
end SshTunnels
