import SshTunnels.Rehearsal.Supervision

/-!
# Rehearsals of the manager

A manager over scripted tunnels in virtual time. A reconciliation or a shutdown that has to wait
lets the clock move on until it is done. The manager's own loops refresh and reconcile at fixed
intervals; a turn that comes late is taken at once, and the next one follows a full interval later.
-/

namespace SshTunnels.Rehearsal

/-- A stage with a manager: the scripts of tunnels that it will build, the list it will be given, if
listing works, and the counts it has reported. -/
structure ManagedStage where
  stage : Stage
  manager : Manager
  scripts : List RunScript
  listing : Option (List TunnelConfig) := none
  gauges : List Nat := []

/-- The loops of a running manager: when each takes its next turn, the list that a refresh has been
given but cannot hand over yet, and the changes of the list to come. -/
structure ManagerLoops where
  nextRefresh : Instant
  nextReconcile : Instant
  held : Option (List TunnelConfig) := none
  changes : List (Instant × Option (List TunnelConfig)) := []
  cancelAt : Instant

namespace ManagedStage

/-- Carries out an act of the manager. -/
def act (s : ManagedStage) : ManagerAct → ManagedStage
  | .stop serial => { s with stage := s.stage.tell serial .stop }
  | .abort serial => { s with stage := s.stage.tell serial .abort }
  | .gauge count => { s with gauges := s.gauges ++ [count] }
  | .start serial config =>
    let supervisor : Supervisor :=
      { retry := s.manager.options.restartInterval, isStopped := s.manager.isEnding }
    let actor : Actor :=
      { serial, id := config.id, port := config.tunnelPort, supervisor, scripts := s.scripts }
    let stage := { s.stage with actors := s.stage.actors ++ [actor] }
    { s with stage := stage.tell serial .start }

/-- Supervisors that have ended and that the manager does not know to have ended. -/
def newlyEnded (s : ManagedStage) : List Nat :=
  (s.manager.started.filter fun t => !t.isOver && s.stage.isFinished t.serial).map (·.serial)

/-- Brings events to the manager, one after the other, and carries out what it does. A deadline that
has come already is met before the supervisors hear that they are to stop. -/
def tell (s : ManagedStage) (events : List ManagerEvent) : ManagedStage :=
  let now := s.stage.now
  let (manager, acts) := events.foldl (fun (m, acts) event =>
    let (m, more) := m.step now event
    (m, acts ++ more)) (s.manager, [])
  let (manager, early) :=
    if manager.due?.any (· ≤ now) then manager.step now .timedOut else (manager, [])
  (early ++ acts).foldl act { s with manager }

/-- Tells the manager which supervisors have ended, until there is no more news. -/
def report : (fuel : Nat) → ManagedStage → ManagedStage
  | 0, s => s
  | fuel + 1, s =>
    match s.newlyEnded with
    | [] => s
    | serial :: _ => report fuel (s.tell [.ended serial])

/-- Brings events to the manager and lets everything happen that follows at once. -/
def manageAll (s : ManagedStage) (events : List ManagerEvent) : ManagedStage :=
  let s := s.tell events
  report (s.manager.started.length + s.manager.desired.length + 1) s

/-- Brings an event to the manager and lets everything happen that follows at once. -/
def manage (s : ManagedStage) (event : ManagerEvent) : ManagedStage :=
  s.manageAll [event]

/-- Refreshes the desired tunnels from the list. -/
def refresh (s : ManagedStage) : ManagedStage :=
  match s.listing with
  | some listing => s.manage (.refreshed listing)
  | none => s.manage (.listingFailed (.list "control plane unavailable"))

/-- Lets one thing happen that is due now. -/
def fireOne (s : ManagedStage) : Option ManagedStage :=
  if s.manager.due?.any (· ≤ s.stage.now) then some (s.manage .timedOut)
  else s.stage.firstDue?.map fun a =>
    let s := { s with stage := s.stage.fire a.serial }
    report (s.manager.started.length + s.manager.desired.length + 1) s

/-- The next moment at which something is due. -/
def due? (s : ManagedStage) : Option Instant :=
  earlier s.manager.due? s.stage.due?

/-- Moves the clock. -/
def setNow (s : ManagedStage) (now : Instant) : ManagedStage :=
  { s with stage := { s.stage with now } }

/-- Lets everything happen that is due up to a moment, then moves the clock there. -/
def advanceTo (target : Instant) : (fuel : Nat) → ManagedStage → ManagedStage
  | 0, s => s.setNow (max s.stage.now target)
  | fuel + 1, s =>
    match s.fireOne with
    | some s => advanceTo target fuel s
    | none =>
      match s.due? with
      | some t =>
        if t ≤ target then advanceTo target fuel (s.setNow t)
        else s.setNow (max s.stage.now target)
      | none => s.setNow (max s.stage.now target)

/-- Lets things happen until the manager is free. -/
def untilFree : (fuel : Nat) → ManagedStage → ManagedStage
  | 0, s => s
  | fuel + 1, s =>
    if s.manager.isFree then s
    else match s.fireOne with
      | some s => untilFree fuel s
      | none =>
        match s.due? with
        | some t => untilFree fuel (s.setNow t)
        | none => s

/-- Enough for all that can happen in so many milliseconds. -/
def fuelFor (s : ManagedStage) (millis : Nat) : Nat :=
  8 * (millis + 8) * (s.stage.actors.length + 2)

/-- The milliseconds for which the manager may wait. -/
def patience (s : ManagedStage) : Nat :=
  s.manager.options.stopTimeout.millis

/-- Reconciles, and waits until that is done. -/
def reconcile (s : ManagedStage) : ManagedStage :=
  untilFree (s.fuelFor s.patience) (s.manage .reconcile)

/-- Ends the manager, and waits until that is done. -/
def shutdown (s : ManagedStage) : ManagedStage :=
  untilFree (s.fuelFor s.patience) (s.manageAll [.endBegins, .shutdown])

/-- Takes the turns of the loops that can be taken now: a list that was held is handed over first,
then comes a refresh, then a reconciliation. -/
def turn (interval : Span) (s : ManagedStage) (l : ManagerLoops) :
    Option (ManagedStage × ManagerLoops) :=
  let now := s.stage.now
  match l.held with
  | some listing =>
    if s.manager.isFree then some (s.manage (.refreshed listing), { l with held := none })
    else none
  | none =>
    if l.nextRefresh ≤ now then
      let l := { l with nextRefresh := now.after interval }
      if s.manager.isFree then some (s.refresh, l) else some (s, { l with held := s.listing })
    else if s.manager.isFree && l.nextReconcile ≤ now then
      some (s.manage .reconcile, { l with nextReconcile := now.after interval })
    else none

/-- Runs the loops until they are cancelled. -/
def loop (interval : Span) : (fuel : Nat) → ManagedStage → ManagerLoops →
    ManagedStage × ManagerLoops
  | 0, s, l => (s, l)
  | fuel + 1, s, l =>
    match s.fireOne with
    | some s => loop interval fuel s l
    | none =>
      match turn interval s l with
      | some (s, l) => loop interval fuel s l
      | none =>
        match l.changes with
        | (t, listing) :: rest =>
          if t ≤ s.stage.now then loop interval fuel { s with listing } { l with changes := rest }
          else rest' fuel s l
        | [] => rest' fuel s l
where
  /-- Moves on to the next moment, unless it is time to stop. -/
  rest' (fuel : Nat) (s : ManagedStage) (l : ManagerLoops) : ManagedStage × ManagerLoops :=
    if l.cancelAt ≤ s.stage.now then (s, l)
    else
      let turns := earlier (some l.nextRefresh)
        (if s.manager.isFree then some l.nextReconcile else none)
      let turns := turns.filter (s.stage.now < ·)
      let next := earlier (earlier s.due? turns)
        (earlier (l.changes.head?.map (·.1)) (some l.cancelAt))
      loop interval fuel (s.setNow (next.getD l.cancelAt)) l

/-- Runs the manager for so many milliseconds, with changes of the list at certain times, and shuts
it down. There is no run without a time between the turns of its loops. -/
def run? (s : ManagedStage) (millis : Nat) (changes : List (Nat × Option (List TunnelConfig))) :
    Option ManagedStage :=
  let start := s.stage.now
  let moment (n : Nat) : Instant := start + Instant.ofMillis n
  let interval := s.manager.options.refreshInterval
  if interval.nanos = 0 then none
  else
    let (s, l) := loop interval (s.fuelFor (millis + s.patience)) s
      { nextRefresh := start, nextReconcile := start, cancelAt := moment millis
        changes := changes.map fun (n, listing) => (moment n, listing) }
    let s := untilFree (s.fuelFor s.patience) s
    let s := l.held.elim s fun listing => s.manage (.refreshed listing)
    some s.shutdown

end ManagedStage
end SshTunnels.Rehearsal
