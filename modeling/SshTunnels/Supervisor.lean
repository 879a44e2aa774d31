import SshTunnels.Options
import SshTunnels.Time.Instant
import SshTunnels.Tunnel.Error
import SshTunnels.Verbosity

/-!
# Supervisors

A supervisor keeps one tunnel running. It registers the tunnel with discovery, has it probed if that
is wanted, runs it, waits one retry interval after the end of every run, however it ended, and runs
it again, until it is stopped.

A stop cancels the supervisor's token. Every run has a token that comes from this one, and so has
the task that probes the tunnel: a stop cancels them all, and the probing may be over before the run
in flight is. The supervisor itself looks for a stop before every run, for the first time when the
tunnel is registered, and while it rests. Then it waits for the probing to be over, deregisters the
tunnel, and is finished. A supervisor that is aborted is dropped where it stands, together with its
run.

Runs are counted without bound, where a counter of 64 bits stands for their number. Acts that
concern discovery are acts even if there is no discovery to hear of them.
-/

namespace SshTunnels

/-- How a run of a tunnel is over. -/
inductive RunOutcome where
  | returned
  | failed (error : TunnelError)
  | panicked
  deriving DecidableEq, Repr

/-- What is logged of the end of a run. -/
structure RunReport where
  level : LogLevel
  text : String
  attempt : Nat
  error : Option TunnelError
  deriving DecidableEq, Repr

/-- What is logged of a run with this outcome. A panic counts as an error. -/
def RunOutcome.report (attempt : Nat) : RunOutcome → RunReport
  | .returned => ⟨.debug, "tunnel returned", attempt, none⟩
  | .failed e => ⟨.warn, "tunnel exited with error", attempt, some e⟩
  | .panicked => ⟨.error, "tunnel panicked", attempt, some .panicked⟩

/-- Where a supervisor stands. -/
inductive SupervisorPhase where
  | idle
  /-- It waits for discovery to have registered its tunnel. -/
  | registering
  /-- It has found that it is not stopped, and is about to run its tunnel. -/
  | opening
  | running
  | resting (until' : Instant)
  /-- It has found that it is stopped, and waits for the probing to be over. -/
  | closing
  | finished
  | aborted
  deriving DecidableEq, Repr

/-- A supervisor: its retry interval, how its tunnel is probed, if it is, where it stands, whether
its token is cancelled, whether the task that probes is there, and how often it has run its
tunnel. -/
structure Supervisor where
  retry : Span
  conncheck : Option ConncheckOptions := none
  phase : SupervisorPhase := .idle
  isStopped : Bool := false
  isProbing : Bool := false
  runs : Nat := 0
  deriving DecidableEq, Repr

/-- What happens to a supervisor: it is started, stopped or aborted, goes on by itself, or hears
that its run or the probing is over. -/
inductive SupervisorEvent where
  | start
  | goesOn
  | returned (outcome : RunOutcome)
  | probeOver
  | stop
  | abort
  deriving DecidableEq, Repr

/-- What a supervisor does. To cancel the tokens is to cancel its own, and with it the tokens of all
runs and of the probing; to end the probing is to cancel the token of the probing alone and to wait
for its end. -/
inductive SupervisorAct where
  | register
  | beginProbing
  | beginRun
  | log (report : RunReport)
  | cancelTokens
  | dropRun
  | endProbing
  | deregister
  deriving DecidableEq, Repr

namespace Supervisor

/-- An act that concerns the probing, if the tunnel is to be probed. -/
def ifProbed (s : Supervisor) (act : SupervisorAct) : List SupervisorAct :=
  if s.conncheck.isSome then [act] else []

/-- Looks for a stop: without one the tunnel is about to run. -/
def look (s : Supervisor) : Supervisor × List SupervisorAct :=
  if s.isStopped then ({ s with phase := .closing }, s.ifProbed .endProbing)
  else ({ s with phase := .opening }, [])

/-- The supervisor can go on by itself. -/
def isReady (s : Supervisor) (now : Instant) : Bool :=
  match s.phase with
  | .registering | .opening => true
  | .resting until' => s.isStopped || until' ≤ now
  | .closing => !s.isProbing
  | .idle | .running | .finished | .aborted => false

/-- The supervisor goes on by itself. -/
def goOn (s : Supervisor) : Supervisor × List SupervisorAct :=
  match s.phase with
  | .registering =>
    let (s', acts) := { s with isProbing := s.conncheck.isSome }.look
    (s', s.ifProbed .beginProbing ++ acts)
  | .opening => ({ s with phase := .running, runs := s.runs + 1 }, [.beginRun])
  | .resting _ => s.look
  | .closing => ({ s with phase := .finished }, [.deregister])
  | .idle | .running | .finished | .aborted => (s, [])

/-- What an event makes of a supervisor. Events that cannot happen to it where it stands are
ignored. -/
def step (s : Supervisor) (now : Instant) : SupervisorEvent → Supervisor × List SupervisorAct
  | .start =>
    match s.phase with
    | .idle => ({ s with phase := .registering }, [.register])
    | _ => (s, [])
  | .goesOn => if s.isReady now then s.goOn else (s, [])
  | .returned outcome =>
    match s.phase with
    | .running =>
      ({ s with phase := .resting (now.after s.retry) }, [.log (outcome.report s.runs)])
    | _ => (s, [])
  | .probeOver => ({ s with isProbing := false }, [])
  | .stop => ({ s with isStopped := true }, if s.isStopped then [] else [.cancelTokens])
  | .abort =>
    match s.phase with
    | .finished => (s, [])
    | .running => ({ s with phase := .aborted, isStopped := true }, [.dropRun])
    | _ => ({ s with phase := .aborted, isStopped := true }, [])

/-- The supervisor has ended by itself. -/
def isFinished (s : Supervisor) : Bool :=
  s.phase == .finished

/-- When the rest of the supervisor is over. -/
def due? (s : Supervisor) : Option Instant :=
  match s.phase with
  | .resting until' => some until'
  | _ => none

end Supervisor
end SshTunnels
