import SshTunnels.Keepalive
import SshTunnels.Options
import SshTunnels.Rehearsal.Cast
import SshTunnels.Time.Instant

/-!
# Rehearsals with an SSH server

A standard tunnel, the SSH server that it connects to, and users of the tunnel's port. The server
lets certain keys in, and its service takes every user or none; or it is no SSH server at all. Its
connection can be cut, or go silent for good. The clock moves only in pauses, and while somebody
waits for the tunnel's end.
-/

namespace SshTunnels.Rehearsal

open Fields

/-- How the server behaves. -/
inductive FarServerKind where
  | ssh
  | refuses
  | silent
  | hangsUp
  deriving DecidableEq, Repr

/-- The state of the connection to the server: up, cut, or silent since some time. -/
inductive FarLink where
  | up
  | cut
  | frozen (since : Instant)
  deriving DecidableEq, Repr

/-- The server and the tunnel. -/
structure FarServerStage where
  network : Network
  kind : FarServerKind
  accepted : List PublicKey
  takesUsers : Bool
  options : TunnelOptions
  config : StandardTunnel
  keys : MemoryKeys
  cast : Cast
  now : Instant := 0
  openedAt : Instant := 0
  cancelAt : Option Instant := none
  link : FarLink := .up
  isHeld : Bool := false
  saw : List Json := []

namespace FarServerStage

/-- The only tunnel. -/
def tunnelName : String := ""

/-- The server, the tunnel and the keys of a script. -/
def ofRecord (network : Network) (tunnelPort sshPort : UInt16) (j : Json) : FarServerStage :=
  let t := sub j "tunnel"
  let keys := (members j "keys").filterMap fun (name, text) =>
    (PrivateKey.load (bytesOf text)).toOption.map fun k => (name, k.publicKey)
  let contents (name : String) : Option Bytes := (members j "keys").lookup name |>.map bytesOf
  let o := sub j "options"
  let id := idOf t "id"
  let options : TunnelOptions :=
    { defaultUser := (str? o "default_user").getD defaultUser
      dialTimeout := millisOf o "dial_ms" 2000
      keepaliveInterval := millisOf o "keepalive_interval_ms" 60000
      keepaliveTimeout := millisOf o "keepalive_timeout_ms" 15000 }
  { network, options
    kind := match str j "server" with
      | "refuse" => .refuses
      | "silent" => .silent
      | "garbage" | "close" => .hangsUp
      | _ => .ssh
    accepted := (texts j "accept").filterMap fun name => keys.lookup name
    takesUsers := str j "service" != "refuse"
    config := { id, createdAt := default, enabled := true, tunnelPort
                sshUser := str? t "ssh_user"
                sshHost := (str? t "ssh_host").getD "127.0.0.1", sshPort
                serviceHost := str t "service_host", servicePort := portOf t "service_port" }
    keys := playedKeys contents id .standard (items t "keys")
    cast := { tunnels := [
      { name := tunnelName, id, kind := .standard, host := options.bindHost
        port := tunnelPort }] } }

/-- The tunnel. -/
def tunnel? (s : FarServerStage) : Option PlayedTunnel :=
  s.cast.tunnel? tunnelName

/-- The tunnel goes on with its run. -/
def advance (s : FarServerStage) (event : RunEvent) : FarServerStage :=
  match s.tunnel? with
  | some t => { s with cast := s.cast.put (t.advance event) }
  | none => s

/-- The tunnel accepts users. -/
def isServing (s : FarServerStage) : Bool :=
  s.tunnel?.any (·.isServing)

/-- The user that the tunnel signs in as. -/
def sshUser (s : FarServerStage) : String :=
  s.config.sshUserOr s.options.defaultUser

/-- The server looks at keys in turn, up to the first that it accepts. -/
def signIn (s : FarServerStage) : List PublicKey → FarServerStage × Bool
  | [] => (s, false)
  | key :: rest =>
    let isGood := s.accepted.any (·.sameKey key)
    let s := { s with saw := s.saw ++ [.object [("user", .string s.sshUser),
      ("key", .string key.fingerprint), ("accepted", .bool isGood)]] }
    if isGood then (s, true) else s.signIn rest

/-- The tunnel connects to the server. A server that says nothing is waited for, unless somebody
loses patience first. -/
def connect (s : FarServerStage) (keys : List PrivateKey) (cancelAfter : Option Span) :
    FarServerStage × RunEvent :=
  let address := s!"{s.config.sshHost}:{s.config.sshPort}"
  let told := TunnelRun.connected s.config.sshHost s.sshUser
  let listens := s.config.sshHost == "127.0.0.1" && s.kind != .refuses
  let fault := s.network.dialFault? s.config.sshHost listens
  match fault, s.kind with
  | some _, _ | none, .refuses | none, .hangsUp => (s, told (.error (.ssh elided)))
  | none, .silent =>
    match cancelAfter with
    | some t =>
      if t.nanos < s.options.dialTimeout.nanos then ({ s with now := s.now.after t }, .cancelled)
      else timedOut s told
    | none => timedOut s told
  | none, .ssh =>
    match s.signIn (keys.map (·.publicKey)) with
    | (s, true) => (s, told (.ok ()))
    | (s, false) => (s, told (.error (.authFailed s.sshUser address)))
where
  /-- The time to connect is over. -/
  timedOut (s : FarServerStage) (told : Except TunnelError Unit → RunEvent) :
      FarServerStage × RunEvent :=
    let limit := s.options.dialTimeout
    ({ s with now := s.now.after limit }, told (.error (.timeout "ssh dial" limit)))

/-- Tells something about the tunnel. -/
def tell (s : FarServerStage) (f : PlayedTunnel → PlayedTunnel × Json) :
    Option (FarServerStage × Json) := do
  let (t, answer) := f (← s.tunnel?)
  return ({ s with cast := s.cast.put t }, answer)

/-- The tunnel boots. -/
def start (s : FarServerStage) (cancelAfter : Option Span) : Option (FarServerStage × Json) := do
  let t ← s.tunnel?
  let keys := (KeySource.ofMemory s.keys).privateKeys s.config.id
  let t := t.start.advance (TunnelRun.keysLoaded keys)
  let s := { s with cast := s.cast.put t, link := .up }
  let startedAt := s.now
  let s := match keys with
    | .error _ => s
    | .ok keys =>
      let (s, event) := s.connect keys cancelAfter
      let fault := Network.bindFault? t.host s.isHeld
      let listening : Except IoError Unit := fault.elim (.ok ()) fun code => .error (.system code)
      (s.advance event).advance (TunnelRun.listening t.address listening)
  let s := { s with openedAt := s.now, cancelAt := cancelAfter.map (startedAt.after ·) }
  s.tell (·.started)

/-- When the tunnel finds its session gone, if it is. -/
def lostAt? (s : FarServerStage) : Option Instant :=
  let o := s.options
  let poll := (Keepalive.poll o.keepaliveInterval o.keepaliveTimeout).nanos
  let look (t : Instant) : Instant := s.openedAt + ((t - s.openedAt) / poll + 1) * poll
  match s.link with
  | .up => none
  | .cut => some (look s.now)
  | .frozen since =>
    some (look (since.after (Keepalive.patience o.keepaliveInterval o.keepaliveTimeout)))

/-- The sessions of all users end by themselves. -/
def endSessions (s : FarServerStage) : FarServerStage :=
  let talking := s.cast.users.filter s.cast.isTalking
  { s with cast := talking.foldl (fun cast u => cast.happen u (.relayEnded none)) s.cast }

/-- Lets time pass up to a moment: the tunnel may be cancelled meanwhile, or find its session
gone. -/
def passUntil (s : FarServerStage) (target : Instant) : FarServerStage :=
  let s := if !s.isServing then s else
    match s.cancelAt, s.lostAt? with
    | some c, some l =>
      if c ≤ l then (if c ≤ target then s.advance .cancelled else s)
      else if l ≤ target then s.endSessions.advance (.lost Keepalive.lost) else s
    | some c, none => if c ≤ target then s.advance .cancelled else s
    | none, some l => if l ≤ target then s.endSessions.advance (.lost Keepalive.lost) else s
    | none, none => s
  { s with now := max s.now target }

/-- Waits for what will happen to the tunnel next. -/
def waitEnd (s : FarServerStage) : FarServerStage :=
  let next := match s.cancelAt, s.lostAt? with
    | some c, some l => some (min c l)
    | c, none => c
    | none, l => l
  next.elim s s.passUntil

/-- A user connects to the tunnel's port. -/
def user (s : FarServerStage) (name : String) : Option (FarServerStage × Json) := do
  let t ← s.tunnel?
  match s.network.dialFault? t.host (t.isListening || s.isHeld) with
  | some code => return (s, .object [("connect", .string code.kind.name)])
  | none =>
    let (cast, t, id) := s.cast.receive t
    let isUp := s.link = .up
    let saw := .object [("host", .string s.config.serviceHost),
      ("port", .ofNat s.config.servicePort.toNat), ("origin", .string "127.0.0.1"),
      ("origin_matches", .bool true)]
    let answer : Except TunnelError Unit :=
      if isUp && s.takesUsers then .ok () else .error (.sshCore (.protocol elided))
    let s := { s with cast := cast.settle t id name none answer
                      saw := s.saw ++ if isUp then [saw] else [] }
    return (s, .string (if answer.isOk then "connected" else IoKind.connectionReset.name))

/-- Carries out a step; nothing if it needs a user who is not there. -/
def perform (s : FarServerStage) (step : Json) : Option (FarServerStage × Json) := do
  match str step "do" with
  | "start" => s.start ((num? step "cancel_ms").map fun n => .ofMillis n.toNat)
  | "stop" => (s.advance .cancelled).tell (·.takeEnd)
  | "wait_end" => s.waitEnd.tell (·.takeEnd)
  | "hold_port" => return ({ s with isHeld := true }, .null)
  | "release_port" => return ({ s with isHeld := false }, .null)
  | "user" => s.user (str step "as")
  | "kill_server" => return ({ s with link := .cut }.endSessions, .null)
  | "freeze_server" => return ({ s with link := .frozen s.now }, .null)
  | "pause" => return (s.passUntil (s.now.after (millisOf step "ms" 0)), .null)
  | _ =>
    let (cast, answer) ← s.cast.userStep step
    return ({ s with cast }, answer)

/-- What a step answered and brought about. -/
def entry (s : FarServerStage) (answer : Json) : FarServerStage × Json :=
  let (cast, events) := s.cast.takeFresh
  let (rcvd, sent) := cast.totals
  ({ s with cast, saw := [] }, .object [("answer", answer),
    ("events", (events.head?.map (·.2)).getD (.array [])), ("server_saw", .array s.saw),
    ("totals", .object [("connections", .ofNat 0), ("forwards", .ofNat 0), ("rcvd", .ofNat rcvd),
      ("sent", .ofNat sent)])])

/-- Carries out steps; nothing if one of them cannot be carried out. -/
def performAll (s : FarServerStage) : List Json → Option (FarServerStage × List Json)
  | [] => some (s, [])
  | step :: rest => do
    let (s, answer) ← s.perform step
    let (s, told) := s.entry answer
    let (s, more) ← s.performAll rest
    return (s, told :: more)

/-- Carries out a script. -/
def rehearse (network : Network) (tunnelPort sshPort : UInt16) (j : Json) : Option Json := do
  let (s, told) ← (ofRecord network tunnelPort sshPort j).performAll (items j "steps")
  let opened := Json.bool (s.tunnel?.any (·.hasOpened))
  return Report.ok (.object [("steps", .array told), ("gauge_seen", opened), ("opened", opened)])

end FarServerStage
end SshTunnels.Rehearsal
