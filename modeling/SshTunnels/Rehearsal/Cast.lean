import SshTunnels.Network
import SshTunnels.Report.Answer
import SshTunnels.Report.Fields
import SshTunnels.Sessions
import SshTunnels.Tunnel.Run

/-!
# Tunnels and users of a rehearsal

Tunnels that are run by hand, and users who talk through them. Every byte that is sent arrives
before the next thing happens. A user who was let through keeps its end of the session after the
session is over, and finds it closed.
-/

namespace SshTunnels.Rehearsal

open Fields

/-- The local address of a user, whose port is not told. -/
def userPeer : String := "127.0.0.1:<peer>"

/-- A tunnel: where it is to listen, its run, whether it listens, its sessions, the reports that
have not been read yet, and whether its end is still to be told. -/
structure PlayedTunnel where
  name : String
  id : Uuid
  kind : TunnelKind
  host : String
  port : UInt16
  run : Option TunnelRun := none
  isListening : Bool := false
  ledger : SessionLedger := {}
  fresh : List LifecycleReport := []
  hasOpened : Bool := false
  isAwaited : Bool := false

namespace PlayedTunnel

/-- The address that the tunnel listens on. -/
def address (t : PlayedTunnel) : String :=
  s!"{t.host}:{t.port}"

/-- The tunnel accepts users. -/
def isServing (t : PlayedTunnel) : Bool :=
  t.run.any (·.isServing)

/-- The tunnel starts. -/
def start (t : PlayedTunnel) : PlayedTunnel :=
  let run := TunnelRun.start t.kind
  { t with run := some run, fresh := t.fresh ++ run.reports, isAwaited := true }

/-- Something happens to a session. -/
def session (t : PlayedTunnel) (id : Uuid) (event : SessionEvent) : PlayedTunnel :=
  let ledger := t.ledger.step id event
  { t with ledger, fresh := t.fresh ++ ledger.reports.drop t.ledger.reports.length }

/-- What the run does when an event ends it. -/
def acts (t : PlayedTunnel) (event : RunEvent) : List RunAct :=
  t.run.elim [] (·.acts event)

/-- Something happens to the run. Sessions whose connections are cancelled are dropped. -/
def advance (t : PlayedTunnel) (event : RunEvent) : PlayedTunnel :=
  match t.run with
  | none => t
  | some run =>
    let next := run.step event
    let isCut := (run.acts event).contains .cancelConnections
    let isClosing := (run.acts event).contains .closeListener
    { t with
      run := some next
      isListening := (t.isListening || run.completes? event = some .listen) && !isClosing
      ledger := if isCut then t.ledger.dropAll else t.ledger
      fresh := t.fresh ++ next.reports.drop run.reports.length
      hasOpened := t.hasOpened || next.isServing }

/-- How the run ended, told once. -/
def takeEnd (t : PlayedTunnel) : PlayedTunnel × Json :=
  match t.isAwaited, t.run.bind (·.result?) with
  | true, some result => ({ t with isAwaited := false }, Report.outcome (fun _ => .null) result)
  | _, _ => (t, .string "not running")

/-- What came of a start. -/
def started (t : PlayedTunnel) : PlayedTunnel × Json :=
  if t.isServing then (t, .string "open") else t.takeEnd

end PlayedTunnel

/-- A user: the tunnel and the session, the number of the agent's connection if there is one, and
whether the user was let through. -/
structure PlayedUser where
  name : String
  tunnel : String
  session : Uuid
  via : Option Nat
  wasLetIn : Bool
  deriving DecidableEq, Repr

/-- The tunnels and users, and the number of sessions so far. -/
structure Cast where
  tunnels : List PlayedTunnel := []
  users : List PlayedUser := []
  sessions : Nat := 0

namespace Cast

/-- The tunnel of a name. -/
def tunnel? (c : Cast) (name : String) : Option PlayedTunnel :=
  c.tunnels.find? (·.name == name)

/-- Puts a tunnel back. -/
def put (c : Cast) (t : PlayedTunnel) : Cast :=
  { c with tunnels := c.tunnels.map fun u => if u.name == t.name then t else u }

/-- The user of a name: the last one who took it. -/
def user? (c : Cast) (name : String) : Option PlayedUser :=
  c.users.find? (·.name == name)

/-- A tunnel accepts a user: the session begins and waits for its far side. -/
def receive (c : Cast) (t : PlayedTunnel) : Cast × PlayedTunnel × Uuid :=
  let id := Uuid.ofTime c.sessions c.sessions
  let t := { t with ledger := t.ledger.accept id userPeer }.session id .begin
  ({ c with sessions := c.sessions + 1 }.put t, t, id)

/-- The far side of a user's session has answered. -/
def settle (c : Cast) (t : PlayedTunnel) (id : Uuid) (name : String) (via : Option Nat)
    (answer : Except TunnelError Unit) : Cast :=
  let (event, wasLetIn) := match answer with
    | .ok () => (SessionEvent.dialed, true)
    | .error e => (.dialFailed e, false)
  let c := c.put (t.session id event)
  { c with users := ⟨name, t.name, id, via, wasLetIn⟩ :: c.users }

/-- The session of a user carries bytes. -/
def isTalking (c : Cast) (u : PlayedUser) : Bool :=
  (c.tunnel? u.tunnel).any (·.ledger.isRelaying u.session)

/-- Something happens to a user's session. -/
def happen (c : Cast) (u : PlayedUser) (event : SessionEvent) : Cast :=
  match c.tunnel? u.tunnel with
  | some t => c.put (t.session u.session event)
  | none => c

/-- A user, or the far side, sends bytes. -/
def send (c : Cast) (u : PlayedUser) (fromUser : Bool) (data : Bytes) : Cast × Json :=
  if !u.wasLetIn then (c, .string "not connected")
  else if !c.isTalking u then (c, .string "broken")
  else
    let n := data.length
    (c.happen u (if fromUser then .relayed n 0 else .relayed 0 n),
      .object [("bytes", .ofNat n), ("fnv", .string data.fnvText), ("same", .bool true)])

/-- One side closes, and the other sees the end. -/
def close (c : Cast) (u : PlayedUser) : Cast × Json :=
  if !u.wasLetIn then (c, .string "not connected")
  else (c.happen u (.relayEnded none), .object [("end", .string "eof"), ("bytes", .ofNat 0)])

/-- What a user sees at the end. -/
def endOf (u : PlayedUser) : Json :=
  .string (if u.wasLetIn then "eof" else IoKind.connectionReset.name)

/-- Carries out what a user or the far side of a user does; nothing if there is no such user. -/
def userStep (c : Cast) (step : Json) : Option (Cast × Json) := do
  let u ← c.user? (str step "user")
  match str step "do" with
  | "send" => some (c.send u (str step "from" == "user") (bytes step "data"))
  | "close" => some (c.close u)
  | _ => some (c, endOf u)

/-- The bytes that users sent and received. -/
def totals (c : Cast) : Nat × Nat :=
  c.tunnels.foldl (fun (rcvd, sent) t => (rcvd + t.ledger.rcvd, sent + t.ledger.sent)) (0, 0)

/-- Reads the fresh reports of all tunnels that have any. -/
def takeFresh (c : Cast) : Cast × List (String × Json) :=
  let told := (c.tunnels.filter fun t => !t.fresh.isEmpty).map fun t =>
    (t.name, Json.array (t.fresh.map (·.toJson)))
  ({ c with tunnels := c.tunnels.map fun t => { t with fresh := [] } }, told)

end Cast

/-- The keys of a tunnel that a script gives by name, by contents, or not at all; they are numbered
from one. -/
def playedKeys (named : String → Option Bytes) (id : Uuid) (kind : TunnelKind) (keys : List Json) :
    MemoryKeys :=
  keys.zipIdx.foldl (fun m (k, i) =>
    let ref := Uuid.ofNat (i + 1)
    let m := m.authorize id kind ref
    let contents := if flag k "missing" then none else
      match k.string? with
      | some name => named name
      | none => some (bytesOf k)
    contents.elim m (m.set ref ·)) {}

end SshTunnels.Rehearsal
