import SshTunnels.Discovery
import SshTunnels.Manager
import SshTunnels.Probe
import SshTunnels.Rehearsal.Cast
import SshTunnels.Rehearsal.Supervision
import SshTunnels.Reverse.Registry
import SshTunnels.Reverse.Serving
import SshTunnels.Tunnel.Json

/-!
# Rehearsals of a fleet

The store, the manager, supervisors, tunnels of both kinds, the registry and discovery, all together
on one machine, with no agents and no SSH server at the far end. Ports go by names. A tick
refreshes, reconciles and lets some time pass, and then everybody has done all that there is to do;
with connectivity checks, every tunnel that is supervised has been probed by then.
-/

namespace SshTunnels.Rehearsal

open Fields

/-- A supervised tunnel. -/
structure FleetMember where
  serial : Nat
  config : TunnelConfig
  supervisor : Supervisor
  tunnel : PlayedTunnel
  registration : Option Registration := none
  isProbed : Bool := false

/-- The fleet: its clock, the names of its ports counted from a first one, the ports that somebody
else holds, and every tunnel that was ever started. -/
structure FleetStage where
  network : Network
  ports : List String
  firstPort : Nat
  now : Instant := 0
  store : Store := {}
  manager : Manager
  registry : Registry := {}
  discovery : Discovery := ⟨"127.0.0.1", []⟩
  members : List FleetMember := []
  held : List UInt16 := []
  inserted : List Uuid := []
  count : Option Nat := none

namespace FleetStage

/-- The tunnels are probed. -/
def isChecked (s : FleetStage) : Bool :=
  s.manager.options.conncheck.isSome

/-- The port of a name. -/
def portNamed (s : FleetStage) (name : String) : UInt16 :=
  UInt16.ofNat (s.firstPort + s.ports.idxOf name)

/-- A port by its name, if it has one. -/
def showPort (s : FleetStage) : Json → Json
  | .number n =>
    let name? := n.toInt?.bind fun p =>
      s.ports[(p - s.firstPort).toNat]?.filter fun _ => s.firstPort ≤ p
    name?.elim (.number n) .string
  | j => j

/-- The fields that hold ports, changed. -/
def mapPorts (f : Json → Json) : Json → Json
  | .object ms => .object (ms.map fun (k, v) =>
      (k, if ["tunnel_port", "ssh_port", "port"].contains k then f v else v))
  | j => j

/-- The configuration of a step, where ports may go by names. -/
def configOf (s : FleetStage) (step : Json) : TunnelConfig :=
  let named := mapPorts (fun j => j.string?.elim j fun n => .ofNat (s.portNamed n).toNat)
    (sub step "config")
  (TunnelConfig.ofJson? named).getD default

/-- The member of a number. -/
def member? (s : FleetStage) (serial : Nat) : Option FleetMember :=
  s.members.find? (·.serial == serial)

/-- Puts a member back. -/
def put (s : FleetStage) (m : FleetMember) : FleetStage :=
  { s with members := s.members.map fun n => if n.serial == m.serial then m else n }

/-- The member that listens on a port. -/
def listener? (s : FleetStage) (port : UInt16) : Option FleetMember :=
  s.members.find? fun m => m.tunnel.isListening && m.tunnel.port == port

/-- Somebody listens on a port. -/
def isTaken (s : FleetStage) (port : UInt16) : Bool :=
  s.held.contains port || (s.listener? port).isSome

/-- A client connects to a port and waits for its end: a reverse tunnel lets it go, for there is no
agent. -/
def visit (s : FleetStage) (port : UInt16) : FleetStage :=
  match s.network.dialFault? s.discovery.host (s.isTaken port), s.listener? port with
  | none, some m =>
    let id := Uuid.ofTime m.tunnel.ledger.sessions.length m.serial
    let t := { m.tunnel with ledger := m.tunnel.ledger.accept id userPeer }.session id .begin
    match dialAgent none fun _ => .ok () with
    | .ok () => s.put { m with tunnel := t.session id .dialed }
    | .error e => s.put { m with tunnel := t.session id (.dialFailed e) }
  | _, _ => s

/-- A standard tunnel connects to its SSH server, which is none: whoever accepts the connection
hangs up, or keeps silent if it is somebody else. -/
def connectFar (s : FleetStage) (m : FleetMember) (c : StandardTunnel) : FleetStage :=
  let fault := s.network.dialFault? c.sshHost (s.isTaken c.sshPort)
  if fault.isNone && s.held.contains c.sshPort then s
  else
    let user := c.sshUserOr defaultUser
    let failed := TunnelRun.connected c.sshHost user (.error (.ssh elided))
    (s.put { m with tunnel := m.tunnel.advance failed }).visit c.sshPort

/-- A reverse tunnel listens and registers. -/
def openReverse (s : FleetStage) (m : FleetMember) (keys : List PublicKey) : FleetStage :=
  let t := m.tunnel
  let fault := Network.bindFault? t.host (s.isTaken t.port)
  let listening : Except IoError Unit := fault.elim (.ok ()) fun code => .error (.system code)
  let t := t.advance (TunnelRun.listening t.address listening)
  if fault.isSome then s.put { m with tunnel := t }
  else match s.registry.register ⟨t.id, t.port, keys⟩ with
    | .ok (g, registry) =>
      let t := t.advance (TunnelRun.registered t.port (.ok ()))
      { s with registry }.put { m with tunnel := t, registration := some g }
    | .error e => s.put { m with tunnel := t.advance (TunnelRun.registered t.port (.error e)) }

/-- A tunnel boots as far as it gets. -/
def boot (s : FleetStage) (m : FleetMember) : FleetStage :=
  let source := KeySource.ofStore s.store
  let t := m.tunnel.start
  match m.config with
  | .standard c =>
    let keys := source.privateKeys c.id
    let m := { m with tunnel := t.advance (TunnelRun.keysLoaded keys) }
    if keys.isOk then s.connectFar m c else s.put m
  | .reverse c =>
    let keys := source.authorizedKeys c.id
    let m := { m with tunnel := t.advance (TunnelRun.keysLoaded keys) }
    match keys with
    | .ok keys => s.openReverse m keys
    | .error _ => s.put m

/-- A tunnel's run ends and gives its registration back. -/
def endRun (s : FleetStage) (m : FleetMember) (event : RunEvent) : FleetStage :=
  let acts := m.tunnel.acts event
  let s := s.put { m with tunnel := m.tunnel.advance event, registration := none }
  match m.registration with
  | some g => if acts.contains .release then { s with registry := s.registry.release g } else s
  | none => s

/-- Carries out an act of a member's supervisor. -/
def act (serial : Nat) (s : FleetStage) (a : SupervisorAct) : FleetStage :=
  match s.member? serial with
  | none => s
  | some m =>
    match a with
    | .register => { s with discovery := s.discovery.register m.config.id m.config.tunnelPort }
    | .deregister => { s with discovery := s.discovery.deregister m.config.id }
    | .beginProbing => s.put { m with isProbed := true }
    | .endProbing => s.put { m with isProbed := false }
    | .beginRun => s.boot m
    | .cancelTokens =>
      let m := { m with isProbed := false }
      if m.supervisor.phase = .running then s.endRun m .cancelled else s.put m
    | .dropRun => s.endRun m .cancelled
    | .log _ => s

/-- Brings an event to a member's supervisor and carries out what it does. -/
def tellOnce (serial : Nat) (s : FleetStage) (event : SupervisorEvent) : FleetStage :=
  match s.member? serial with
  | none => s
  | some m =>
    let (supervisor, acts) := m.supervisor.step s.now event
    acts.foldl (act serial) (s.put { m with supervisor })

/-- What a member's supervisor hears or does at once. -/
def next? (s : FleetStage) (serial : Nat) : Option SupervisorEvent := do
  let m ← s.member? serial
  if m.supervisor.isReady s.now then some .goesOn
  else if m.supervisor.isProbing && !m.isProbed then some .probeOver
  else if m.supervisor.phase = .running then
    match ← m.tunnel.run.bind (·.result?) with
    | .ok () => some (.returned .returned)
    | .error e => some (.returned (.failed e))
  else none

/-- Lets a member's supervisor do what it can do at once. -/
def settle (s : FleetStage) (serial : Nat) : FleetStage :=
  follow (·.next? serial) (tellOnce serial) 8 s

/-- Brings an event to a member's supervisor, and lets everything happen that follows at once. -/
def tell (s : FleetStage) (serial : Nat) (event : SupervisorEvent) : FleetStage :=
  (tellOnce serial s event).settle serial

/-- Carries out an act of the manager. -/
def manage (s : FleetStage) : ManagerAct → FleetStage
  | .stop serial => s.tell serial .stop
  | .abort serial => s.tell serial .abort
  | .gauge count => { s with count := some count }
  | .start serial config =>
    let o := s.manager.options
    let m : FleetMember :=
      { serial, config
        supervisor :=
          { retry := o.restartInterval, conncheck := o.conncheck, isStopped := s.manager.isEnding }
        tunnel := { name := toString serial, id := config.id, kind := config.kind
                    host := s.discovery.host, port := config.tunnelPort } }
    { s with members := s.members ++ [m] }.tell serial .start

/-- Brings events to the manager, and tells it which supervisors have ended thereby. -/
def tellManager : (fuel : Nat) → FleetStage → List ManagerEvent → FleetStage
  | 0, s, _ => s
  | fuel + 1, s, events =>
    let (manager, acts) := events.foldl (fun (m, acts) event =>
      let (m, more) := m.step s.now event
      (m, acts ++ more)) (s.manager, [])
    let s := acts.foldl manage { s with manager }
    let gone := s.manager.started.filter fun t =>
      !t.isOver && (s.member? t.serial).any (·.supervisor.isFinished)
    if gone.isEmpty then s else tellManager fuel s (gone.map fun t => .ended t.serial)

/-- Brings events to the manager. -/
def bring (s : FleetStage) (events : List ManagerEvent) : FleetStage :=
  tellManager (s.manager.started.length + s.manager.desired.length + 2) s events

/-- The manager takes over the list of the store, if there is one. -/
def refresh (s : FleetStage) : FleetStage :=
  match s.store.read (·.listEnabledTunnels) with
  | .ok listing => s.bring [.refreshed listing]
  | .error e => s.bring [.listingFailed (.store e)]

/-- What a probe of a port meets: a tunnel without an agent resets its users, and somebody else who
holds the port says nothing. -/
def endpoint (s : FleetStage) (port : UInt16) : Endpoint :=
  match s.network.dialFault? s.discovery.host (s.isTaken port) with
  | some code => ⟨.failed ⟨0⟩ (.system code), []⟩
  | none => ⟨.connected ⟨0⟩,
      if s.held.contains port then [] else [(⟨0⟩, .failed (.system .connectionReset))]⟩

/-- Probes a member and notes the outcome. -/
def probe (s : FleetStage) (m : FleetMember) : FleetStage :=
  match m.supervisor.conncheck.filter fun _ => m.isProbed with
  | none => s
  | some options =>
    let port := m.config.tunnelPort
    let o := Probe.check options (s.endpoint port)
    let reason := o.reason? s!"{s.discovery.host}:{port}"
    { s with discovery := s.discovery.updateHealth m.config.id o.health reason ⟨0, 0⟩ }

/-- Time passes: supervisors that have rested long enough go on, and tunnels are probed. -/
def pass (s : FleetStage) (time : Span) : FleetStage :=
  let s := { s with now := s.now.after time }
  let due := s.members.filter fun m => m.supervisor.due?.any (· ≤ s.now)
  let s := due.foldl (fun (s : FleetStage) m => s.settle m.serial) s
  s.members.foldl probe s

/-- A tunnel loses its registration, and its run with it. -/
def deregister (s : FleetStage) (id : Uuid) : FleetStage :=
  let s := { s with registry := s.registry.deregister id }
  let lost := s.members.filter fun m =>
    m.registration.any fun g => s.registry.ended.contains g.serial
  lost.foldl (fun (s : FleetStage) m =>
    let s := s.endRun m (.lost (.forward "tunnel registration was replaced"))
    s.settle m.serial) s

/-- Changes the store. -/
def change (s : FleetStage) (f : Database → Except StoreError Database) : FleetStage × Json :=
  match s.store.write f with
  | (.ok (), store) => ({ s with store }, Report.ok .null)
  | (.error e, store) => ({ s with store }, e.toJson)

/-- Carries out a step. -/
def perform (s : FleetStage) (step : Json) : FleetStage × Json :=
  let id := idOf step "id"
  match str step "do" with
  | "insert" =>
    let c := s.configOf step
    let (s, answer) := s.change (·.insertTunnel c)
    let isNew := (answer.get? "ok").isSome && !s.inserted.contains c.id
    ({ s with inserted := s.inserted ++ if isNew then [c.id] else [] }, answer)
  | "update" => s.change (·.updateTunnel (s.configOf step))
  | "enable" => s.change (·.setTunnelEnabled id true)
  | "disable" => s.change (·.setTunnelEnabled id false)
  | "delete" => s.change (·.deleteTunnel id)
  | "key" =>
    let key := idOf step "key"
    let keyKind := (KeyKind.ofName? (str step "key_kind")).getD .publicKey
    let time : Timestamp := ⟨s.now, 0⟩
    let (s, answer) := s.change fun db => .ok (db.putKey time key keyKind (bytes step "contents"))
    if (answer.get? "ok").isSome then
      s.change (·.authorizeKey (idOf step "tunnel") (kindOf step "kind") key)
    else (s, answer)
  | "hold" => ({ s with held := s.portNamed (str step "port") :: s.held }, .null)
  | "release" => ({ s with held := s.held.filter (· != s.portNamed (str step "port")) }, .null)
  | "deregister" => (s.deregister id, .null)
  | "break_store" => ({ s with store := s.store.close }, .null)
  | "refresh" => (s.refresh, .null)
  | "shutdown" => (s.bring [.endBegins, .shutdown], .null)
  | _ => ((s.refresh.bring [.reconcile]).pass (.ofMillis (if s.isChecked then 70 else 40)), .null)

/-- A report as an event of the statistics, without what differs from run to run. -/
def eventOf (t : PlayedTunnel) (r : LifecycleReport) : Json :=
  match (Lifecycle.forTunnel .root t.id t.kind).record r with
  | .event title text tags =>
    let shown := (tags.erase "tunnel_id").entries.map fun (k, v) =>
      (k, if k = "session_id" then "<session>" else if k = "peer" then "<peer>" else v)
    .object [("event", .string title), ("text", .string text), ("tags", (Tags.ofList shown).toJson)]
  | other => other.toJson

/-- The report is about a session. -/
def isOfSession : LifecycleReport → Bool
  | .sessionEvent .. | .sessionError .. => true
  | _ => false

/-- The events of a tunnel that nobody has read yet; connectivity checks drown those of sessions. -/
def freshEvents (s : FleetStage) (id : Uuid) : List Json :=
  (s.members.filter (·.config.id == id)).flatMap fun m =>
    (m.tunnel.fresh.filter fun r => !(s.isChecked && isOfSession r)).map (eventOf m.tunnel)

/-- Everything that can be seen of the fleet after a step. A visitor comes when the ports have been
looked at. -/
def entry (s : FleetStage) (answer : Json) (visited : Option String) : FleetStage × Json :=
  let listening := s.ports.filter fun name => (s.listener? (s.portNamed name)).isSome
  let s := visited.elim s fun name => s.visit (s.portNamed name)
  let text (id : Uuid) : String := id.text
  let sorted (xs : List String) : List String := xs.mergeSort fun a b => a ≤ b
  let known := (s.members.map (·.config.id)).eraseDups
  let events := known.filterMap fun id =>
    match s.freshEvents id with
    | [] => none
    | events => some (text id, Json.array events)
  let members := s.members.map fun m => { m with tunnel := { m.tunnel with fresh := [] } }
  ({ s with members }, .object [("answer", answer),
    ("supervised", .object (s.manager.supervised.map fun (id, t) =>
      (text id, mapPorts s.showPort t.config.toJson))),
    ("listening", .array ((sorted listening).map .string)),
    ("registered", .array
      ((sorted (s.registry.entries.map fun e => text e.tunnel.id)).map .string)),
    ("details", .object (s.inserted.map fun id =>
      (text id, (s.discovery.details? id).elim .null fun d => mapPorts s.showPort d.summary))),
    ("events", .object events),
    ("count", .ofString? (s.count.map fun n => Text.floatText n.toFloat))])

/-- Carries out a script. -/
def rehearse (network : Network) (firstPort : Nat) (j : Json) : Json :=
  let conncheck : Option ConncheckOptions :=
    if flag j "conncheck" then some { interval := .ofMillis 10 } else none
  let start : FleetStage :=
    { network, firstPort, ports := texts j "ports"
      manager := { options := { conncheck }, createdAt := 0 } }
  let (_, told) := (items j "steps").foldl (fun (s, told) step =>
    let (s, answer) := s.perform step
    let (s, entry) := s.entry answer (str? step "visit")
    (s, entry :: told)) (start, [])
  Report.ok (.array told.reverse)

end FleetStage
end SshTunnels.Rehearsal
