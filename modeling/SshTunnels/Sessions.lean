import SshTunnels.Lifecycle

/-!
# Sessions of users

What a tunnel reports and counts for the users it accepts. A session opens when its work begins;
then the far side is dialled, bytes are relayed until one side is done, and the session closes. A
failed dial ends it too. A session whose tunnel ends is dropped where it stands: it reports nothing
more and its bytes are not counted.

The active sessions and the bytes are counted without bound. Counters of 64 bits stand for them, so
what is said here is said of totals that fit into these.
-/

namespace SshTunnels

/-- Where a session stands: waiting for its work to begin, dialling, relaying with so many bytes
received from the user and sent to the user, or over. -/
inductive SessionPhase where
  | accepted
  | dialing
  | relaying (rcvd sent : Nat)
  | ended
  deriving DecidableEq, Repr

/-- A session of a user. -/
structure UserSession where
  id : Uuid
  peer : String
  phase : SessionPhase := .accepted
  deriving DecidableEq, Repr

/-- What happens to a session. -/
inductive SessionEvent where
  | begin
  | dialFailed (error : TunnelError)
  | dialed
  | relayed (rcvd sent : Nat)
  | relayEnded (fault : Option SshError)
  | dropped
  deriving DecidableEq, Repr

/-- The sessions of a tunnel: how many are active, what they have reported, and how many bytes have
been counted. -/
structure SessionLedger where
  sessions : List UserSession := []
  active : Int := 0
  reports : List LifecycleReport := []
  rcvd : Nat := 0
  sent : Nat := 0
  deriving DecidableEq, Repr

namespace SessionLedger

/-- The session of an identifier. -/
def session? (l : SessionLedger) (id : Uuid) : Option UserSession :=
  l.sessions.find? (·.id == id)

/-- Puts a session into a phase. -/
def put (l : SessionLedger) (id : Uuid) (phase : SessionPhase) : SessionLedger :=
  { l with sessions := l.sessions.map fun s => if s.id == id then { s with phase } else s }

/-- Reports something. -/
def report (l : SessionLedger) (reports : List LifecycleReport) : SessionLedger :=
  { l with reports := l.reports ++ reports }

/-- A session is over. -/
def finish (l : SessionLedger) (id : Uuid) : SessionLedger :=
  { l.put id .ended with active := l.active - 1 }

/-- A user is accepted. -/
def accept (l : SessionLedger) (id : Uuid) (peer : String) : SessionLedger :=
  { l with sessions := l.sessions ++ [{ id, peer }] }

/-- The reports of a session that closes: the fault that ended the relay, if it was one, and the
bytes that were relayed. -/
def closing (id : Uuid) (rcvd sent : Nat) (fault : Option SshError) : List LifecycleReport :=
  (fault.map fun e => LifecycleReport.sessionError id (.sshCore e)).toList ++
    [.sessionEvent id "close"
      (.ofList [("bytes_rcvd", toString rcvd), ("bytes_sent", toString sent)])]

/-- What an event makes of the sessions. Events that cannot happen to the session where it stands
are ignored. -/
def step (l : SessionLedger) (id : Uuid) (event : SessionEvent) : SessionLedger :=
  match l.session? id with
  | none => l
  | some s =>
    match s.phase, event with
    | .accepted, .begin =>
      { (l.put id .dialing).report [.sessionEvent id "open" (.ofList [("peer", s.peer)])] with
        active := l.active + 1 }
    | .accepted, .dropped => l.put id .ended
    | .dialing, .dialed => l.put id (.relaying 0 0)
    | .dialing, .dialFailed e => (l.finish id).report [.sessionError id e]
    | .dialing, .dropped => l.finish id
    | .relaying rcvd sent, .relayed r t => l.put id (.relaying (rcvd + r) (sent + t))
    | .relaying rcvd sent, .relayEnded fault =>
      { (l.finish id).report (closing id rcvd sent fault) with
        rcvd := l.rcvd + rcvd, sent := l.sent + sent }
    | .relaying .., .dropped => l.finish id
    | _, _ => l

/-- The session can carry bytes. -/
def isRelaying (l : SessionLedger) (id : Uuid) : Bool :=
  (l.session? id).any fun s =>
    match s.phase with
    | .relaying .. => true
    | _ => false

/-- All sessions are dropped. -/
def dropAll (l : SessionLedger) : SessionLedger :=
  l.sessions.foldl (fun l s => l.step s.id .dropped) l

end SessionLedger
end SshTunnels
