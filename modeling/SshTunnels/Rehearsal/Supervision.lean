import SshTunnels.Discovery
import SshTunnels.Manager
import SshTunnels.Supervisor

/-!
# Rehearsals of supervision

Tunnels that follow a script, under supervisors and a manager, in virtual time: the clock stands
still while anything can act, and then moves to the next moment at which something is due. A
scripted tunnel runs for the time its script says and then returns, fails or panics; when it is
cancelled it may linger before it returns.
-/

namespace SshTunnels.Rehearsal

/-- How a scripted run ends by itself. -/
inductive RunEnd where
  | returned
  | failed
  | panicked
  deriving DecidableEq, Repr

/-- What a supervisor hears of such an end. -/
def RunEnd.outcome : RunEnd → RunOutcome
  | .returned => .returned
  | .failed => .failed (.other "scripted failure")
  | .panicked => .panicked

/-- The script of one run: how long it lasts, if not for good, how it ends, and how long it lingers
when it is cancelled. -/
structure RunScript where
  lasts : Option Span := none
  ending : RunEnd := .returned
  lingers : Span := ⟨0⟩
  deriving DecidableEq, Repr

/-- What is seen of a scripted run. -/
inductive Sight where
  | started
  | ended (how : RunEnd)
  | cancelSeen
  | cancelled
  | aborted
  deriving DecidableEq, Repr

/-- The word for what is seen. -/
def Sight.name : Sight → String
  | .started => "started"
  | .ended .returned => "returned"
  | .ended .failed => "failed"
  | .ended .panicked => "panicked"
  | .cancelSeen => "cancel_seen"
  | .cancelled => "cancelled"
  | .aborted => "aborted"

/-- Something seen at some time of some tunnel. -/
structure Sighting where
  time : Instant
  id : Uuid
  port : UInt16
  sight : Sight
  deriving DecidableEq, Repr

/-- A run in flight: when it is due to end, if ever, and whether it only lingers. -/
structure RunInFlight where
  script : RunScript
  due : Option Instant
  lingers : Bool
  deriving DecidableEq, Repr

/-- A supervised scripted tunnel: its run in flight, how the last one ended if the supervisor has
not heard of it yet, and how many runs are in flight and have been at most. -/
structure Actor where
  serial : Nat
  id : Uuid
  port : UInt16
  supervisor : Supervisor
  scripts : List RunScript
  run : Option RunInFlight := none
  news : Option RunOutcome := none
  inFlight : Nat := 0
  mostInFlight : Nat := 0
  deriving DecidableEq, Repr

/-- The stage: the clock, the actors, discovery if there is one, and what has been seen. -/
structure Stage where
  now : Instant := 0
  actors : List Actor := []
  discovery : Option Discovery := none
  sightings : List Sighting := []

namespace Actor

/-- The script of the next run: the last one is used again and again. -/
def nextScript (a : Actor) : RunScript :=
  (a.scripts[a.supervisor.runs - 1]? <|> a.scripts.getLast?).getD {}

/-- A run begins. -/
def beginRun (a : Actor) (run : RunInFlight) : Actor :=
  { a with
    run := some run
    inFlight := a.inFlight + 1, mostInFlight := max a.mostInFlight (a.inFlight + 1) }

/-- The run in flight is over. -/
def endRun (a : Actor) (news : Option RunOutcome) : Actor :=
  { a with run := none, news, inFlight := a.inFlight - 1 }

/-- When the actor goes on by itself. -/
def due? (a : Actor) : Option Instant :=
  match a.run with
  | some run => run.due
  | none => a.supervisor.due?

/-- What the actor's supervisor hears or does at once. -/
def next? (a : Actor) (now : Instant) : Option SupervisorEvent :=
  match a.news with
  | some outcome => some (.returned outcome)
  | none => if a.supervisor.isReady now then some .goesOn else none

end Actor

/-- Lets a supervisor hear and do what comes at once, one event after the other. -/
def follow (next? : σ → Option SupervisorEvent) (tell : σ → SupervisorEvent → σ) :
    (fuel : Nat) → σ → σ
  | 0, s => s
  | fuel + 1, s =>
    match next? s with
    | none => s
    | some event => follow next? tell fuel (tell s event)

/-- Of two moments the earlier one. -/
def earlier : Option Instant → Option Instant → Option Instant
  | some a, some b => some (min a b)
  | none, b => b
  | a, none => a

namespace Stage

/-- The actor of a number. -/
def actor? (st : Stage) (serial : Nat) : Option Actor :=
  st.actors.find? (·.serial == serial)

/-- Puts an actor back. -/
def put (st : Stage) (a : Actor) : Stage :=
  { st with actors := st.actors.map fun b => if b.serial == a.serial then a else b }

/-- Notes what is seen of an actor. -/
def note (st : Stage) (a : Actor) (sight : Sight) : Stage :=
  { st with sightings := st.sightings ++ [⟨st.now, a.id, a.port, sight⟩] }

/-- Carries out an act of an actor's supervisor. Nobody probes the tunnels. -/
def act (serial : Nat) (st : Stage) (act : SupervisorAct) : Stage :=
  match st.actor? serial with
  | none => st
  | some a =>
    match act with
    | .register => { st with discovery := st.discovery.map (·.register a.id a.port) }
    | .deregister => { st with discovery := st.discovery.map (·.deregister a.id) }
    | .beginRun =>
      let script := a.nextScript
      (st.put (a.beginRun ⟨script, script.lasts.map (st.now.after ·), false⟩)).note a .started
    | .cancelTokens =>
      match a.run with
      | none => st
      | some run =>
        if run.script.lingers.nanos = 0 then
          (st.put (a.endRun (some .returned))).note a .cancelled
        else
          let run := { run with due := some (st.now.after run.script.lingers), lingers := true }
          (st.put { a with run := some run }).note a .cancelSeen
    | .dropRun => if a.run.isSome then (st.put (a.endRun none)).note a .aborted else st
    | .log _ | .beginProbing | .endProbing => st

/-- Brings an event to an actor's supervisor, and carries out what it does. -/
def tellOnce (serial : Nat) (st : Stage) (event : SupervisorEvent) : Stage :=
  match st.actor? serial with
  | none => st
  | some a =>
    let (supervisor, acts) := a.supervisor.step st.now event
    let news := match event with
      | .returned _ => none
      | _ => a.news
    acts.foldl (act serial) (st.put { a with supervisor, news })

/-- Lets an actor's supervisor do what it can do at once. -/
def settle (st : Stage) (serial : Nat) : Stage :=
  follow (fun st => (st.actor? serial).bind (·.next? st.now)) (tellOnce serial) 8 st

/-- Brings an event to an actor's supervisor, and lets everything happen that follows at once. -/
def tell (st : Stage) (serial : Nat) (event : SupervisorEvent) : Stage :=
  (tellOnce serial st event).settle serial

/-- Something is due for an actor: its run ends, or its rest. -/
def fire (st : Stage) (serial : Nat) : Stage :=
  match st.actor? serial with
  | none => st
  | some a =>
    match a.run with
    | none => st.settle serial
    | some run =>
      let (sight, outcome) := if run.lingers then (Sight.cancelled, RunOutcome.returned)
        else (.ended run.script.ending, run.script.ending.outcome)
      ((st.put (a.endRun (some outcome))).note a sight).settle serial

/-- The next moment at which an actor goes on by itself. -/
def due? (st : Stage) : Option Instant :=
  st.actors.foldl (fun t a => earlier t a.due?) none

/-- The first actor for whom something is due now. -/
def firstDue? (st : Stage) : Option Actor :=
  st.actors.find? fun a => a.due?.any (· ≤ st.now)

/-- The supervisor of an actor is finished. -/
def isFinished (st : Stage) (serial : Nat) : Bool :=
  (st.actor? serial).any (·.supervisor.isFinished)

/-- Lets everything happen that is due up to a moment, then moves the clock there. -/
def advanceTo (target : Instant) : (fuel : Nat) → Stage → Stage
  | 0, st => { st with now := max st.now target }
  | fuel + 1, st =>
    match st.firstDue? with
    | some a => advanceTo target fuel (st.fire a.serial)
    | none =>
      match st.due? with
      | some t => if t ≤ target then advanceTo target fuel { st with now := t }
          else { st with now := max st.now target }
      | none => { st with now := max st.now target }

end Stage
end SshTunnels.Rehearsal
