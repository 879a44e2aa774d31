import SshTunnels.Reverse.Forward
import SshTunnels.Reverse.Registry

/-!
# Admission of agents

What the SSH server keeps for its agents. An agent is let in when one of its keys is authorized for
a registered tunnel, and may then ask for the users of one port. First the port is looked up: the
key that let the agent in must have been authorized for the tunnel that holds the port. Then the
request is delivered, and is granted if the queue of the registration that was found takes it. In
between the registry and the queues may change, so by then another tunnel may hold the port; but
nothing else happens on the connection.

A granted request is closed when its connection ends, when the agent takes it back, or, by the
watcher that every granted request has, after its registration ended. In the last two cases the
agent is told to leave as well.
-/

namespace SshTunnels

/-- The requests that a registered tunnel has not taken yet, by number. -/
structure RequestQueue where
  registration : Nat
  capacity : Nat
  waiting : List Nat := []
  isOpen : Bool := true
  deriving DecidableEq, Repr

/-- The forward of a connection: the tunnel, and the number of the granted request. -/
structure ActiveForward where
  tunnel : AuthorizedTunnel
  request : Nat
  deriving DecidableEq, Repr

/-- Where a request is on its way to: the tunnel and the registration that were found for its port,
and the address that was asked for. -/
structure ForwardTarget where
  tunnel : AuthorizedTunnel
  registration : Nat
  address : String
  deriving DecidableEq, Repr

/-- An agent's connection: the key that it last signed in with, the tunnels that this key may
forward for, the request that is on its way, the forward that it has, and whether it has been told
to leave. -/
structure AgentConnection where
  peer : Option String
  key : Option PublicKey := none
  authorized : List AuthorizedTunnel := []
  pending : Option ForwardTarget := none
  forward : Option ActiveForward := none
  isLeaving : Bool := false
  isOpen : Bool := true
  deriving DecidableEq, Repr

/-- A granted request, with the connection it came over and the registration that it was granted
for. -/
structure GrantedForward where
  request : ForwardRequest
  connection : Nat
  registration : Nat
  deriving DecidableEq, Repr

/-- The shared state of the SSH server. Connections and granted requests are numbered in order. -/
structure AgentServer where
  registry : Registry := {}
  queues : List RequestQueue := []
  connections : List AgentConnection := []
  granted : List GrantedForward := []
  deriving DecidableEq, Repr

namespace AgentServer

/-- Changes a connection. -/
def modifyConnection (s : AgentServer) (c : Nat) (f : AgentConnection → AgentConnection) :
    AgentServer :=
  { s with connections := s.connections.modify c f }

/-- Changes the queue of a registration. -/
def modifyQueue (s : AgentServer) (registration : Nat) (f : RequestQueue → RequestQueue) :
    AgentServer :=
  { s with queues := s.queues.map fun q => if q.registration == registration then f q else q }

/-- The queue of a registration. -/
def queue? (s : AgentServer) (registration : Nat) : Option RequestQueue :=
  s.queues.find? (·.registration == registration)

/-- Closes a granted request. -/
def closeRequest (s : AgentServer) (r : Nat) : AgentServer :=
  { s with granted := s.granted.modify r fun g => { g with request := g.request.close } }

/-- The granted request is closed; there is nothing open about one that was never granted. -/
def isClosed (s : AgentServer) (r : Nat) : Bool :=
  s.granted[r]?.all (·.request.isClosed)

/-- Registers a tunnel with an empty queue, which has room for one request at least. -/
def register (s : AgentServer) (t : RegisteredTunnel) (capacity : Nat) :
    Except TunnelError (Registration × AgentServer) := do
  let (registration, registry) ← s.registry.register t
  return (registration, { s with
    registry, queues := s.queues ++ [⟨registration.serial, max 1 capacity, [], true⟩] })

/-- Takes a tunnel out of the registry. -/
def deregister (s : AgentServer) (id : Uuid) : AgentServer :=
  { s with registry := s.registry.deregister id }

/-- Takes a registration back. -/
def release (s : AgentServer) (g : Registration) : AgentServer :=
  { s with registry := s.registry.release g }

/-- The tunnel of a registration takes no more requests. -/
def closeQueue (s : AgentServer) (registration : Nat) : AgentServer :=
  s.modifyQueue registration fun q => { q with waiting := [], isOpen := false }

/-- The tunnel of a registration takes the request that has waited longest. -/
def takeRequest (s : AgentServer) (registration : Nat) : Option (Nat × AgentServer) := do
  match (← s.queue? registration).waiting with
  | [] => none
  | r :: rest => some (r, s.modifyQueue registration fun q => { q with waiting := rest })

/-- An agent connects. -/
def connect (s : AgentServer) (peer : Option String) : Nat × AgentServer :=
  (s.connections.length, { s with connections := s.connections ++ [{ peer }] })

/-- An agent presents a key. One that is authorized for nothing is refused, and changes nothing. -/
def authenticate (s : AgentServer) (c : Nat) (key : PublicKey) : Bool × AgentServer :=
  match s.registry.authorizedTunnels key with
  | [] => (false, s)
  | authorized => (true, s.modifyConnection c fun conn => { conn with key := some key, authorized })

/-- The registration for which a connection's request for a port is: the connection has no forward,
signed in for a tunnel with this port, and the tunnel that holds the port is that tunnel. -/
def target? (s : AgentServer) (conn : AgentConnection) (port : Nat) : Option RegistryEntry := do
  if conn.forward.isSome || UInt16.size ≤ port then none
  else
    let allowed ← conn.authorized.find? (·.port.toNat == port)
    let entry ← s.registry.holder? allowed.port
    if entry.tunnel.id == allowed.id then some entry else none

/-- The request of a connection that is on its way. -/
def pending? (s : AgentServer) (c : Nat) : Option ForwardTarget :=
  s.connections[c]?.bind (·.pending)

/-- An agent asks for the users of a port: if the registry has a registration for the request, the
request is on its way there. -/
def lookUp (s : AgentServer) (c : Nat) (address : String) (port : Nat) : Bool × AgentServer :=
  match s.connections[c]?.bind (s.target? · port) with
  | none => (false, s)
  | some entry =>
    let target : ForwardTarget :=
      ⟨⟨entry.tunnel.id, entry.tunnel.port⟩, entry.serial, address⟩
    (true, s.modifyConnection c fun conn => { conn with pending := some target })

/-- The tunnel of a registration takes one more request. -/
def hasRoom (s : AgentServer) (registration : Nat) : Bool :=
  (s.queue? registration).any fun q => q.isOpen && q.waiting.length < q.capacity

/-- Puts a connection's request into the queue that it is on its way to; it is the forward of the
connection from now on. -/
def grant (s : AgentServer) (c : Nat) (peer : Option String) (t : ForwardTarget) : AgentServer :=
  let request : ForwardRequest := ⟨t.tunnel.id, t.address, t.tunnel.port, peer, false⟩
  let r := s.granted.length
  let logged : AgentServer := { s with granted := s.granted ++ [⟨request, c, t.registration⟩] }
  let queued := logged.modifyQueue t.registration fun q => { q with waiting := q.waiting ++ [r] }
  queued.modifyConnection c fun conn => { conn with forward := some ⟨t.tunnel, r⟩ }

/-- A connection's request that is on its way arrives: it is granted if the queue takes it. -/
def deliver (s : AgentServer) (c : Nat) : Bool × AgentServer :=
  match s.connections[c]? with
  | none => (false, s)
  | some conn =>
    match conn.pending with
    | none => (false, s)
    | some target =>
      let s := s.modifyConnection c fun conn => { conn with pending := none }
      if s.hasRoom target.registration then (true, s.grant c conn.peer target) else (false, s)

/-- An agent asks for the users of a port, and nothing comes between the look-up and the delivery.
-/
def forward (s : AgentServer) (c : Nat) (address : String) (port : Nat) : Bool × AgentServer :=
  match s.lookUp c address port with
  | (true, s) => s.deliver c
  | (false, s) => (false, s)

/-- Closes the forward of a connection, if it has one. -/
def endForward (s : AgentServer) (c : Nat) : AgentServer :=
  match s.connections[c]?.bind (·.forward) with
  | none => s
  | some f =>
    (s.closeRequest f.request).modifyConnection c fun conn => { conn with forward := none }

/-- An agent takes back its forward of a port; another port changes nothing. -/
def cancelForward (s : AgentServer) (c : Nat) (port : Nat) : Bool × AgentServer :=
  match s.connections[c]?.bind (·.forward) with
  | none => (false, s)
  | some f =>
    if f.tunnel.port.toNat == port then
      (true, (s.endForward c).modifyConnection c fun conn => { conn with isLeaving := true })
    else (false, s)

/-- A connection ends. -/
def disconnect (s : AgentServer) (c : Nat) : AgentServer :=
  (s.endForward c).modifyConnection c fun conn => { conn with isOpen := false }

/-- The watcher of a granted request has something to do: the registration has ended, and the
request is still open. -/
def mustClose (s : AgentServer) (g : GrantedForward) : Bool :=
  s.registry.ended.contains g.registration && !g.request.isClosed

/-- The watcher of a granted request looks after it. -/
def watch (s : AgentServer) (r : Nat) : AgentServer :=
  match s.granted[r]? with
  | none => s
  | some g =>
    if s.mustClose g then
      (s.closeRequest r).modifyConnection g.connection fun conn => { conn with isLeaving := true }
    else s

/-- All watchers look after their requests. -/
def watchAll (s : AgentServer) : AgentServer :=
  (List.range s.granted.length).foldl watch s

end AgentServer
end SshTunnels
