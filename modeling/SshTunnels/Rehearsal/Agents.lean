import SshTunnels.Rehearsal.Cast
import SshTunnels.Reverse.Admission
import SshTunnels.Reverse.Greeting
import SshTunnels.Reverse.Serving

/-!
# Rehearsals with agents

Reverse tunnels on one SSH server, agents who sign in there and forward, and users of the tunnels'
ports. After every step everybody does all that there is to do: tunnels take the requests that wait
for them, a tunnel whose registration has ended ends, watchers look after their requests, and agents
that were told to leave do so.
-/

namespace SshTunnels.Rehearsal

open Fields

/-- A reverse tunnel: its keys, the room of its queue, and, while it runs, its registration and the
agent who serves it. -/
structure ReversePart where
  name : String
  keys : MemoryKeys
  queue : Nat
  isHeld : Bool := false
  registration : Option Registration := none
  serving : Serving := {}

/-- The SSH server with its tunnels and agents. -/
structure AgentStage where
  network : Network
  keys : List (String × PrivateKey)
  parts : List ReversePart
  cast : Cast
  server : AgentServer := {}
  agents : List (String × Nat) := []
  isOpen : Bool := true
  connections : Nat := 0
  forwards : Nat := 0

namespace AgentStage

/-- The agents and tunnels of a script. Tunnels get ports of their own, counted from a first one,
unless they share one. -/
def ofRecord (network : Network) (firstPort : Nat) (j : Json) : AgentStage :=
  let keys := (members j "keys").filterMap fun (name, text) =>
    (PrivateKey.load (bytesOf text)).toOption.map (name, ·)
  let named := (members j "tunnels").zipIdx
  let publicLine (name : String) : Option Bytes :=
    (keys.lookup name).map fun k => Bytes.ofString k.publicKey.line
  let portOfName (name : String) : Option Nat :=
    (named.find? fun ((n, _), _) => n == name).map fun (_, i) => firstPort + i
  { network, keys
    parts := named.map fun ((name, t), _) =>
      ⟨name, playedKeys publicLine (idOf t "id") .reverse (items t "keys"), (num t "queue" 8).toNat,
        false, none, {}⟩
    cast := { tunnels := named.map fun ((name, t), i) =>
      { name, id := idOf t "id", kind := .reverse, host := (str? t "bind_host").getD "127.0.0.1"
        port := UInt16.ofNat (((str? t "port_of").bind portOfName).getD (firstPort + i)) } } }

/-- The part of a name. -/
def part? (s : AgentStage) (name : String) : Option ReversePart :=
  s.parts.find? (·.name == name)

/-- Changes the part of a name. -/
def modifyPart (s : AgentStage) (name : String) (f : ReversePart → ReversePart) : AgentStage :=
  { s with parts := s.parts.map fun p => if p.name == name then f p else p }

/-- The tunnel of a name goes on with its run. -/
def advance (s : AgentStage) (name : String) (event : RunEvent) : AgentStage :=
  match s.cast.tunnel? name with
  | some t => { s with cast := s.cast.put (t.advance event) }
  | none => s

/-- What the act of a run that ends means for the server. -/
def giveBack (g : Registration) (server : AgentServer) : RunAct → AgentServer
  | .release => server.release g
  | .closeQueue => server.closeQueue g.serial
  | .cancelConnections | .closeListener | .disconnect | .dropConnecting => server

/-- The tunnel of a name ends its run and gives back what it holds. -/
def finish (s : AgentStage) (name : String) (event : RunEvent) : AgentStage :=
  let acts := (s.cast.tunnel? name).elim [] (·.acts event)
  let s := s.advance name event
  match (s.part? name).bind (·.registration) with
  | none => s
  | some g =>
    let server := acts.foldl (giveBack g) s.server
    { s with server }.modifyPart name fun p => { p with registration := none, serving := {} }

/-- The tunnel that listens on an address. -/
def listener? (s : AgentStage) (host : String) (port : UInt16) : Option PlayedTunnel :=
  s.cast.tunnels.find? fun t => t.isListening && t.host == host && t.port == port

/-- The address is taken. -/
def isTaken (s : AgentStage) (host : String) (port : UInt16) : Bool :=
  (s.listener? host port).isSome || s.cast.tunnels.any fun t =>
    t.host == host && t.port == port && (s.part? t.name).any (·.isHeld)

/-- A tunnel takes all requests that wait for it. -/
def drain (name : String) (serial : Nat) : (fuel : Nat) → AgentStage → AgentStage
  | 0, s => s
  | fuel + 1, s =>
    match s.server.takeRequest serial with
    | none => s
    | some (r, server) =>
      drain name serial fuel
        ({ s with server }.modifyPart name fun p => { p with serving := p.serving.take r })

/-- A tunnel takes its requests, and ends if its registration has. -/
def attend (s : AgentStage) (p : ReversePart) : AgentStage :=
  match p.registration with
  | none => s
  | some g =>
    let s := drain p.name g.serial (s.server.granted.length + 1) s
    if s.server.registry.ended.contains g.serial then
      s.finish p.name (.lost (.forward "tunnel registration was replaced"))
    else s

/-- A connection ends, and with it the sessions of the users who talk through it. -/
def disconnect (s : AgentStage) (c : Nat) : AgentStage :=
  let through := s.cast.users.filter fun u => u.via == some c && s.cast.isTalking u
  let cast := through.foldl (fun cast u => cast.happen u (.relayEnded none)) s.cast
  { s with cast, server := s.server.disconnect c }

/-- Everybody does all that there is to do. -/
def settle (s : AgentStage) : AgentStage :=
  let s := s.parts.foldl attend s
  let s := { s with server := s.server.watchAll }
  let leaving := s.server.connections.zipIdx.filter fun (conn, _) => conn.isOpen && conn.isLeaving
  leaving.foldl (fun s (_, c) => s.disconnect c) s

/-- A tunnel boots. -/
def start (s : AgentStage) (t : PlayedTunnel) (p : ReversePart) : AgentStage × Json :=
  let keys := (KeySource.ofMemory p.keys).authorizedKeys t.id
  let fault := Network.bindFault? t.host (s.isTaken t.host t.port)
  let t := (t.start.advance (TunnelRun.keysLoaded keys))
  let listening : Except IoError Unit := fault.elim (.ok ()) fun code => .error (.system code)
  let t := t.advance (TunnelRun.listening t.address listening)
  let s := { s with cast := s.cast.put t }
  let registered : RegisteredTunnel := ⟨t.id, t.port, keys.toOption.getD []⟩
  let ready := t.run.any fun run => run.result?.isNone
  let s := if !ready then s else
    match s.server.register registered p.queue with
    | .ok (g, server) =>
      let s := { s with server }.modifyPart t.name fun p => { p with registration := some g }
      s.advance t.name (TunnelRun.registered t.port (.ok ()))
    | .error e => s.advance t.name (TunnelRun.registered t.port (.error e))
  let s := s.settle
  match s.cast.tunnel? t.name with
  | some t =>
    let (t, answer) := t.started
    ({ s with cast := s.cast.put t }, answer)
  | none => (s, .null)

/-- Tells how a tunnel ended. -/
def tellEnd (s : AgentStage) (name : String) : Option (AgentStage × Json) := do
  let (t, answer) := (← s.cast.tunnel? name).takeEnd
  return ({ s with cast := s.cast.put t }, answer)

/-- An agent tries its keys in turn until one lets it in; a password never does. -/
def signIn (s : AgentStage) (c : Nat) (password : Bool) : List PublicKey → AgentStage × List Bool
  | [] => (s, if password then [false] else [])
  | key :: rest =>
    match s.server.authenticate c key with
    | (true, server) => ({ s with server }, [true])
    | (false, _) =>
      let (s, more) := s.signIn c password rest
      (s, false :: more)

/-- The server can be reached. -/
def isReachable (s : AgentStage) : Bool :=
  (s.network.dialFault? "127.0.0.1" s.isOpen).isNone

/-- An agent connects and signs in. -/
def connect (s : AgentStage) (step : Json) : AgentStage × Json :=
  if !s.isReachable then (s, .string "unreachable")
  else
    let (c, server) := s.server.connect (some userPeer)
    let agents := (str step "as", c) :: s.agents
    let s := { s with server, connections := s.connections + 1, agents }
    let keys := (texts step "keys").filterMap fun name => (s.keys.lookup name).map (·.publicKey)
    let (s, told) := s.signIn c (str? step "password").isSome keys
    (s, .object [("auth", .array (told.map .bool))])

/-- The connection is open and somebody has signed in over it. -/
def isSignedIn (s : AgentStage) (c : Nat) : Bool :=
  s.server.connections[c]?.any fun conn => conn.isOpen && conn.key.isSome

/-- The port that a step names, by itself or by a tunnel's name. -/
def portNamed (s : AgentStage) (step : Json) : Nat :=
  ((s.cast.tunnel? (str step "tunnel")).map fun t => t.port.toNat).getD (num step "port" 0).toNat

/-- An agent asks for the users of a port. -/
def forward (s : AgentStage) (c : Nat) (step : Json) : AgentStage × Json :=
  let told (granted : Bool) : Json := .object [("granted", .bool granted)]
  if !s.isSignedIn c then (s, told false)
  else
    let address := (str? step "address").getD "127.0.0.1"
    let (granted, server) := s.server.forward c address (s.portNamed step)
    ({ s with server, forwards := s.forwards + 1 }.settle, told granted)

/-- Whether an agent's connection has ended. -/
def toldClosed (s : AgentStage) (c : Nat) : Json :=
  .object [("agent_closed", .bool (s.server.connections[c]?.any (!·.isOpen)))]

/-- What an agent sees of a user: the address it asked for, and an origin that tells nothing. -/
def channel (s : AgentStage) (r : ForwardRequest) (c : Nat) : Json :=
  let via := (s.agents.find? fun (_, d) => d == c).map (·.1)
  .object [("address", .string r.bindAddress), ("port", .string (toString r.bindPort)),
    ("origin", .string "127.0.0.1"), ("origin_port", .ofNat 0), ("via", .ofString? via)]

/-- A user connects to a tunnel's port. -/
def user (s : AgentStage) (name : String) (t : PlayedTunnel) : AgentStage × Json :=
  match s.network.dialFault? t.host (s.isTaken t.host t.port), s.listener? t.host t.port with
  | some code, _ => (s, .object [("connect", .string code.kind.name)])
  | none, none => (s, .null)
  | none, some t =>
    let (cast, t, id) := s.cast.receive t
    let serving := ((s.part? t.name).map (·.serving)).getD {}
    let serving := serving.accept s.server.isClosed
    let s := s.modifyPart t.name fun p => { p with serving }
    let granted := serving.newest.bind fun r => s.server.granted[r]?
    let answer := dialAgent (granted.map (·.request)) fun _ => .ok ()
    let via := granted.map (·.connection)
    ({ s with cast := cast.settle t id name via answer },
      match answer, granted with
      | .ok (), some g => s.channel g.request g.connection
      | _, _ => .string IoKind.connectionReset.name)

/-- Somebody connects to the SSH server without an agent's manners. -/
def raw (s : AgentStage) (step : Json) : AgentStage × Json :=
  if !s.isReachable then (s, .string "unreachable")
  else
    ({ s with connections := s.connections + 1 },
      if flag step "hang_up" then .null
      else .object [("banner", .string Greeting.banner),
        ("ended", .bool (Greeting.isRefused (bytes step "data")))])

/-- The server stops: nobody connects any more, and whoever is connected stays. -/
def stopServer (s : AgentStage) : AgentStage :=
  { s with isOpen := false }

/-- Carries out a step; nothing if it needs a tunnel, an agent or a user that is not there. -/
def perform (s : AgentStage) (step : Json) : Option (AgentStage × Json) := do
  let tunnel := s.cast.tunnel? (str step "tunnel")
  let agent := s.agents.lookup (str step "agent")
  match str step "do" with
  | "start" =>
    let t ← tunnel
    return s.start t (← s.part? t.name)
  | "stop" =>
    let t ← tunnel
    (s.finish t.name .cancelled).settle.tellEnd t.name
  | "wait_end" => s.tellEnd (← tunnel).name
  | "hold_port" => return (s.modifyPart (← tunnel).name fun p => { p with isHeld := true }, .null)
  | "connect" => return s.connect step
  | "raw" => return s.raw step
  | "session" => return (s, .bool (s.isSignedIn (← agent)))
  | "forward" => return s.forward (← agent) step
  | "cancel_forward" =>
    let c ← agent
    let s := { s with server := (s.server.cancelForward c (s.portNamed step)).2 }.settle
    return (s, s.toldClosed c)
  | "agent_closed" => return (s, s.toldClosed (← agent))
  | "disconnect" => return ((s.disconnect (← agent)).settle, .null)
  | "user" => return s.user (str step "as") (← tunnel)
  | "deregister" => return ({ s with server := s.server.deregister (idOf step "id") }.settle, .null)
  | "stop_server" => return (s.stopServer, Report.ok .null)
  | _ =>
    let (cast, answer) ← s.cast.userStep step
    return ({ s with cast }, answer)

/-- What a step answered and brought about. -/
def entry (s : AgentStage) (answer : Json) : AgentStage × Json :=
  let (cast, events) := s.cast.takeFresh
  let (rcvd, sent) := cast.totals
  ({ s with cast }, .object [("answer", answer), ("events", .object events),
    ("registered", .ofNat s.server.registry.size),
    ("totals", .object [("connections", .ofNat s.connections), ("forwards", .ofNat s.forwards),
      ("rcvd", .ofNat rcvd), ("sent", .ofNat sent)])])

/-- Carries out steps; nothing if one of them cannot be carried out. -/
def performAll (s : AgentStage) : List Json → Option (AgentStage × List Json)
  | [] => some (s, [])
  | step :: rest => do
    let (s, answer) ← s.perform step
    let (s, told) := s.entry answer
    let (s, more) ← s.performAll rest
    return (s, told :: more)

/-- Carries out a script. -/
def rehearse (network : Network) (firstPort : Nat) (j : Json) : Option Json := do
  let (s, told) ← (ofRecord network firstPort j).performAll (items j "steps")
  return Report.ok (.object [("steps", .array told),
    ("gauge_seen", .bool (s.cast.tunnels.any (·.hasOpened)))])

end AgentStage
end SshTunnels.Rehearsal
