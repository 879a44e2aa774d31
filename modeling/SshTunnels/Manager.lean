import SshTunnels.Options
import SshTunnels.Time.Instant
import SshTunnels.Tunnel.Error

/-!
# The manager

The manager brings the supervised tunnels into line with the desired ones. A refresh takes over the
latest list of desired tunnels; a reconciliation first stops the supervisors that are no longer
wanted or whose tunnel has changed, waits until they have ended or aborts them, and then starts
supervisors for the tunnels that lack one. A listing that fails changes nothing.

Every supervisor ever started has a number of its own. Between the stop of a supervisor and its end
other tasks may act; a further refresh or reconciliation waits until the manager is free again.
-/

namespace SshTunnels

/-- A tunnel of the latest list. -/
structure DesiredTunnel where
  config : TunnelConfig
  needsRestart : Bool
  deriving DecidableEq, Repr

/-- A supervised tunnel, with the number of its supervisor. -/
structure SupervisedTunnel where
  config : TunnelConfig
  serial : Nat
  deriving DecidableEq, Repr

/-- A supervisor that was started at some time: the configuration it was started with, whether it
has been told to stop, and whether it has ended. -/
structure StartedSupervisor where
  serial : Nat
  config : TunnelConfig
  isStopped : Bool
  isOver : Bool
  deriving DecidableEq, Repr

/-- Whether the manager is free, or waits for supervisors to end, until a deadline, and what it does
then: start tunnels, or end. -/
inductive ManagerPhase where
  | free
  | reconciling (waiting : List Nat) (deadline : Instant)
  | ending (waiting : List Nat) (deadline : Instant)
  deriving DecidableEq, Repr

/-- The state of the manager. -/
structure Manager where
  options : ManagerOptions
  createdAt : Instant
  desired : List (Uuid × DesiredTunnel) := []
  supervised : List (Uuid × SupervisedTunnel) := []
  started : List StartedSupervisor := []
  lastRefresh : Option Instant := none
  isEnding : Bool := false
  phase : ManagerPhase := .free
  deriving DecidableEq, Repr

/-- What happens to the manager. -/
inductive ManagerEvent where
  | refreshed (listing : List TunnelConfig)
  | listingFailed (error : TunnelError)
  | reconcile
  | ended (serial : Nat)
  | timedOut
  | endBegins
  | shutdown
  deriving DecidableEq, Repr

/-- What the manager does. -/
inductive ManagerAct where
  | stop (serial : Nat)
  | abort (serial : Nat)
  | start (serial : Nat) (config : TunnelConfig)
  | gauge (count : Nat)
  deriving DecidableEq, Repr

namespace Manager

/-- A list of tunnels with the value of one set. -/
def upsert (entries : List (Uuid × α)) (id : Uuid) (value : α) : List (Uuid × α) :=
  if entries.any (·.1 == id) then
    entries.map fun e => if e.1 == id then (id, value) else e
  else entries ++ [(id, value)]

/-- A tunnel that is desired now needs a restart if it needed one before or has changed since. -/
def desire (m : Manager) (config : TunnelConfig) : DesiredTunnel :=
  match m.desired.lookup config.id with
  | some old => ⟨config, old.needsRestart || !old.config.sameLive config⟩
  | none => ⟨config, false⟩

/-- Takes over a list; of several configurations for one tunnel the last counts. -/
def refresh (m : Manager) (now : Instant) (listing : List TunnelConfig) : Manager :=
  { m with
    desired := listing.foldl (fun next c => upsert next c.id (m.desire c)) []
    lastRefresh := some now }

/-- The supervisor of this tunnel has to be stopped. -/
def isStale (m : Manager) (id : Uuid) (s : SupervisedTunnel) : Bool :=
  match m.desired.lookup id with
  | none => true
  | some d => d.needsRestart || !s.config.sameLive d.config

/-- Notes that supervisors have been told to stop. -/
def markStopped (m : Manager) (which : Nat → Bool) : Manager :=
  { m with started := m.started.map fun s =>
      if which s.serial then { s with isStopped := true } else s }

/-- Notes that supervisors have ended. -/
def markOver (m : Manager) (which : Nat → Bool) : Manager :=
  { m with started := m.started.map fun s =>
      if which s.serial then { s with isOver := true } else s }

/-- Starts the desired tunnel, or keeps the supervisor that it has. -/
def ensure (state : Manager × List ManagerAct) (id : Uuid) (d : DesiredTunnel) :
    Manager × List ManagerAct :=
  let (m, acts) := state
  match m.supervised.lookup id with
  | some s => ({ m with supervised := upsert m.supervised id { s with config := d.config } }, acts)
  | none =>
    let serial := m.started.length
    ({ m with
      supervised := m.supervised ++ [(id, ⟨d.config, serial⟩)]
      started := m.started ++ [⟨serial, d.config, m.isEnding, false⟩] },
      acts ++ [.start serial d.config])

/-- Starts what is missing, and reports how many tunnels are supervised. -/
def startMissing (m : Manager) : Manager × List ManagerAct :=
  let cleared := m.desired.map fun (id, d) => (id, { d with needsRestart := false })
  let (m, acts) := cleared.foldl (fun state (id, d) => ensure state id d)
    ({ m with desired := cleared, phase := .free }, [])
  (m, acts ++ [.gauge m.supervised.length])

/-- Goes on once all supervisors that were waited for have ended. -/
def proceed (m : Manager) : Manager × List ManagerAct :=
  match m.phase with
  | .reconciling [] _ => m.startMissing
  | .ending [] _ => ({ m with phase := .free }, [.gauge 0])
  | _ => (m, [])

/-- The supervisors of these tunnels leave and are told to stop. -/
def release (m : Manager) (gone : Uuid × SupervisedTunnel → Bool) : Manager × List Nat :=
  let serials := (m.supervised.filter gone).map (·.2.serial)
  let m := { m with supervised := m.supervised.filter fun e => !gone e }
  (m.markStopped serials.contains, serials)

/-- Of these supervisors, those that have not ended yet. -/
def unfinished (m : Manager) (serials : List Nat) : List Nat :=
  serials.filter fun n => m.started.any fun s => s.serial == n && !s.isOver

/-- What an event makes of the manager. -/
def step (m : Manager) (now : Instant) (event : ManagerEvent) : Manager × List ManagerAct :=
  match event, m.phase with
  | .refreshed listing, .free => (m.refresh now listing, [])
  | .listingFailed _, _ => (m, [])
  | .reconcile, .free =>
    let (m, serials) := m.release fun (id, s) => m.isStale id s
    let deadline := now.after m.options.stopTimeout
    let (m, acts) := { m with phase := .reconciling (m.unfinished serials) deadline }.proceed
    (m, serials.map .stop ++ acts)
  | .shutdown, .free =>
    let (m, serials) := m.release fun _ => true
    let deadline := now.after m.options.stopTimeout
    let (m, acts) := { m with phase := .ending (m.unfinished serials) deadline }.proceed
    (m, serials.map .stop ++ acts)
  | .endBegins, _ =>
    let serials := m.unfinished (m.started.map (·.serial))
    ({ m with isEnding := true }.markStopped fun _ => true, serials.map .stop)
  | .ended serial, phase =>
    let m := m.markOver (· == serial)
    match phase with
    | .free => (m, [])
    | .reconciling waiting deadline =>
      { m with phase := .reconciling (waiting.erase serial) deadline }.proceed
    | .ending waiting deadline =>
      { m with phase := .ending (waiting.erase serial) deadline }.proceed
  | .timedOut, .reconciling waiting deadline =>
    if deadline ≤ now then
      let m := { m.markOver waiting.contains with phase := .reconciling [] deadline }
      let (m, acts) := m.proceed
      (m, waiting.map .abort ++ acts)
    else (m, [])
  | .timedOut, .ending waiting deadline =>
    if deadline ≤ now then
      let (m, acts) := { m.markOver waiting.contains with phase := .ending [] deadline }.proceed
      (m, waiting.map .abort ++ acts)
    else (m, [])
  | _, _ => (m, [])

/-- The manager waits for nothing. -/
def isFree (m : Manager) : Bool :=
  m.phase == .free

/-- When the manager stops waiting. -/
def due? (m : Manager) : Option Instant :=
  match m.phase with
  | .reconciling _ deadline | .ending _ deadline => some deadline
  | .free => none

/-- Fails when no refresh has succeeded within two refresh intervals; no answer if twice the
interval is too long for a span. -/
def check (m : Manager) (now : Instant) : Option (Except TunnelError Unit) :=
  m.options.refreshInterval.double?.map fun limit =>
    let age := now.since (m.lastRefresh.getD m.createdAt)
    if limit.nanos < age.nanos then .error (.stale age) else .ok ()

end Manager
end SshTunnels
