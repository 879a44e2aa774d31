import SshTunnels.Network
import SshTunnels.Probe
import SshTunnels.Rehearsal.Supervision

/-!
# Rehearsals of connectivity checks

One tunnel is probed at once and then at fixed intervals, in virtual time, and every outcome goes to
discovery. A probe that takes longer than the interval puts off the next one until it is done; one
that has no outcome is the last. Calls of discovery can be made to fail: then there is no probe, or
its outcome is lost. The tunnel may be under a supervisor, which has it probed while it runs; it
runs until it is cancelled.
-/

namespace SshTunnels.Rehearsal

/-- Calls of discovery that can be made to fail. -/
inductive DiscoveryCall where
  | resolve
  | update
  | register
  deriving DecidableEq, Repr

/-- A prober: when its next probe is due, and when the outcome of the last one is known, if it is
still going on. -/
structure Prober where
  nextProbe : Instant
  pending : Option (Instant × ProbeOutcome) := none
  deriving DecidableEq, Repr

/-- A tunnel whose endpoint is checked, by itself or under a supervisor, which is there from the
first start on. -/
structure Checkup where
  id : Uuid
  port : UInt16
  network : Network
  options : ConncheckOptions
  isSupervised : Bool
  discovery : Discovery
  now : Instant := 0
  isListening : Bool := false
  failing : List DiscoveryCall := []
  prober : Option Prober := none
  supervisor : Option Supervisor := none

/-- What is done to the tunnel and to the clock. -/
inductive CheckupStep where
  | register
  | deregister
  | setListening (on : Bool)
  | setFailing (call : DiscoveryCall) (on : Bool)
  | start
  | stop
  | pause (time : Span)
  | await (health : TunnelHealth) (limit : Span)
  deriving DecidableEq, Repr

namespace Checkup

/-- What a probe of the tunnel meets: a listener closes every connection. -/
def endpoint (c : Checkup) : Endpoint :=
  match c.network.dialFault? c.discovery.host c.isListening with
  | some code => ⟨.failed ⟨0⟩ (.system code), []⟩
  | none => ⟨.connected ⟨0⟩, [(⟨0⟩, .closed)]⟩

/-- Registers the tunnel, unless that fails. -/
def register (c : Checkup) : Checkup :=
  if c.failing.contains .register then c
  else { c with discovery := c.discovery.register c.id c.port }

/-- Takes the tunnel's registration back, unless that fails. -/
def deregister (c : Checkup) : Checkup :=
  if c.failing.contains .register then c
  else { c with discovery := c.discovery.deregister c.id }

/-- Begins to probe. There is no probing without a time between the probes. -/
def beginProbing (c : Checkup) : Checkup :=
  { c with prober := if c.options.interval.nanos = 0 then none else some ⟨c.now, none⟩ }

/-- Carries out an act of the supervisor. -/
def act (c : Checkup) : SupervisorAct → Checkup
  | .register => c.register
  | .deregister => c.deregister
  | .beginProbing => c.beginProbing
  | .cancelTokens | .endProbing => { c with prober := none }
  | .beginRun | .log _ | .dropRun => c

/-- What the supervisor hears or does at once: the tunnel has returned once it is cancelled. -/
def next? (c : Checkup) : Option SupervisorEvent :=
  c.supervisor.bind fun s =>
    if s.isProbing && c.prober.isNone then some .probeOver
    else if s.phase == .running && s.isStopped then some (.returned .returned)
    else if s.isReady c.now then some .goesOn
    else none

/-- Brings an event to the supervisor, and carries out what it does. -/
def tellOnce (c : Checkup) (event : SupervisorEvent) : Checkup :=
  match c.supervisor with
  | none => c
  | some s =>
    let (s, acts) := s.step c.now event
    acts.foldl act { c with supervisor := some s }

/-- Brings an event to the supervisor, and lets everything happen that follows at once. -/
def tell (c : Checkup) (event : SupervisorEvent) : Checkup :=
  follow next? tellOnce 8 (c.tellOnce event)

/-- The supervisor begins, or the prober by itself. -/
def start (c : Checkup) : Checkup :=
  if c.isSupervised then
    let retry := ({} : ManagerOptions).restartInterval
    { c with supervisor := some { retry, conncheck := some c.options } }.tell .start
  else c.beginProbing

/-- Stops the supervisor, or the prober by itself. -/
def stop (c : Checkup) : Checkup :=
  if c.isSupervised then c.tell .stop else { c with prober := none }

/-- The prober takes its next turn: it notes an outcome that is known by now, or probes again. -/
def turn (c : Checkup) (p : Prober) : Option Checkup :=
  match p.pending with
  | some (known, outcome) =>
    if known ≤ c.now then
      let c := { c with prober := some { p with pending := none } }
      if c.failing.contains .update then some c
      else
        let reason := outcome.reason? s!"{c.discovery.host}:{c.port}"
        some { c with discovery := c.discovery.updateHealth c.id outcome.health reason ⟨0, 0⟩ }
    else none
  | none =>
    if p.nextProbe ≤ c.now then
      let p := { p with nextProbe := c.now.after c.options.interval }
      if c.failing.contains .resolve then some { c with prober := some p }
      else
        some { c with prober := (Probe.check? c.options c.endpoint).map fun outcome =>
          { p with pending := some (c.now.after outcome.took, outcome) } }
    else none

/-- When the prober takes its next turn. -/
def due? (c : Checkup) : Option Instant :=
  c.prober.map fun p => (p.pending.map (·.1)).getD p.nextProbe

/-- Lets the prober go on until a moment, or until the tunnel is in a certain health. -/
def advance (target : Instant) (awaited : Option TunnelHealth) : (fuel : Nat) → Checkup → Checkup
  | 0, c => c
  | fuel + 1, c =>
    if awaited.isSome && (c.discovery.details? c.id).map (·.health) == awaited then c
    else match c.prober.bind c.turn with
      | some c => advance target awaited fuel c
      | none =>
        match c.due? with
        | some t =>
          if t ≤ target then advance target awaited fuel { c with now := max c.now t }
          else { c with now := target }
        | none => { c with now := target }

/-- Lets the prober go on for a time, or until the tunnel is in a certain health. -/
def advanceBy (time : Span) (awaited : Option TunnelHealth) (c : Checkup) : Checkup :=
  advance (c.now.after time) awaited (4 * (time.nanos / max 1 c.options.interval.nanos + 2)) c

/-- Carries out a step, and tells what is known of the tunnel afterwards. What a start brings about
shows only later. -/
def step (c : Checkup) (s : CheckupStep) : Checkup × Option TunnelDetails :=
  let shown (c : Checkup) := (c, c.discovery.details? c.id)
  match s with
  | .register => shown c.register
  | .deregister => shown c.deregister
  | .setListening on => shown { c with isListening := on }
  | .setFailing call on =>
    shown { c with failing := c.failing.filter (· != call) ++ if on then [call] else [] }
  | .start => (c.start, c.discovery.details? c.id)
  | .stop => shown c.stop
  | .pause time => shown (c.advanceBy time none)
  | .await health limit => shown (c.advanceBy limit (some health))

end Checkup
end SshTunnels.Rehearsal
