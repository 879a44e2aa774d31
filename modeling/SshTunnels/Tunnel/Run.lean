import SshTunnels.Key.Source
import SshTunnels.Lifecycle

/-!
# Runs of a tunnel

A run boots step by step and reports each step; with the last one it is open. A boot step that fails
ends the run, and so does the loss of what an open tunnel rests on. A run that is cancelled ends
well: an open one at once, and one that is still connecting to its SSH server as well.

A run gives back what its boot steps gave it, its listener, its SSH session and its registration, on
each of its ways out, and what it has to do for that depends on how far it came.
-/

namespace SshTunnels

/-- The steps of a boot. -/
inductive BootStep where
  | loadKeys
  | sshConnect
  | listen
  | register
  deriving DecidableEq, Repr

namespace BootStep

/-- The word for a step. -/
def name : BootStep → String
  | .loadKeys => "load_keys"
  | .sshConnect => "ssh_connect"
  | .listen => "listen"
  | .register => "register"

/-- The boot of a kind of tunnel. -/
def ofKind : TunnelKind → List BootStep
  | .standard => [.loadKeys, .sshConnect, .listen]
  | .reverse => [.loadKeys, .listen, .register]

end BootStep

/-- Where a run stands; one that is over ended well or with a fault. -/
inductive RunPhase where
  | booting (next : BootStep) (later : List BootStep)
  | serving
  | ended (fault : Option TunnelError)
  deriving DecidableEq, Repr

/-- What happens to a run. -/
inductive RunEvent where
  | stepDone (tags : Tags)
  | stepFailed (error : TunnelError)
  | cancelled
  | lost (error : TunnelError)
  deriving DecidableEq, Repr

/-- What a run does about what it holds when it ends. -/
inductive RunAct where
  | cancelConnections
  | closeQueue
  | release
  | closeListener
  | disconnect
  | dropConnecting
  deriving DecidableEq, Repr

/-- A run of a kind of tunnel: where it stands, and what it reported. -/
structure TunnelRun where
  kind : TunnelKind
  phase : RunPhase
  reports : List LifecycleReport
  deriving DecidableEq, Repr

namespace TunnelRun

/-- A run at its start. -/
def start (kind : TunnelKind) : TunnelRun :=
  match BootStep.ofKind kind with
  | next :: later => ⟨kind, .booting next later, [.start]⟩
  | [] => ⟨kind, .serving, [.start, .opened]⟩

/-- Reports, and ends the run. -/
def finish (run : TunnelRun) (reports : List LifecycleReport) (fault : Option TunnelError) :
    TunnelRun :=
  { run with phase := .ended fault, reports := run.reports ++ reports ++ [.stop] }

/-- What an event makes of a run. Events that cannot happen to it where it stands are ignored. -/
def step (run : TunnelRun) (event : RunEvent) : TunnelRun :=
  match run.phase, event with
  | .booting done next, .stepDone tags =>
    let reports := run.reports ++ [.bootEvent done.name tags]
    match next with
    | next :: later => { run with phase := .booting next later, reports }
    | [] => { run with phase := .serving, reports := reports ++ [.opened] }
  | .booting failed _, .stepFailed e =>
    let e := TunnelError.atBoot failed.name e
    run.finish [.bootError e] (some e)
  | .booting .sshConnect _, .cancelled => run.finish [] none
  | .serving, .cancelled => run.finish [.closed] none
  | .serving, .lost e => run.finish [.closed, if e.isBoot then .bootError e else .error e] (some e)
  | _, _ => run

/-- The boot step that an event completes. -/
def completes? (run : TunnelRun) (event : RunEvent) : Option BootStep :=
  match run.phase, event with
  | .booting done _, .stepDone _ => some done
  | _, _ => none

/-- What a run does when an event ends it. A session over which no key was accepted is asked to end
like one that was signed in over, and a connect that is cancelled is dropped as it is. -/
def acts (run : TunnelRun) (event : RunEvent) : List RunAct :=
  match run.phase, event with
  | .booting .sshConnect _, .stepFailed (.authFailed ..) => [.disconnect]
  | .booting .sshConnect _, .cancelled => [.dropConnecting]
  | .booting .listen _, .stepFailed _ => if run.kind = .standard then [.disconnect] else []
  | .booting .register _, .stepFailed _ => [.closeListener]
  | .serving, .cancelled | .serving, .lost _ =>
    match run.kind with
    | .standard => [.cancelConnections, .closeListener, .disconnect]
    | .reverse => [.cancelConnections, .closeQueue, .release, .closeListener]
  | _, _ => []

/-- The run accepts users. -/
def isServing (run : TunnelRun) : Bool :=
  run.phase == .serving

/-- How the run ended. -/
def result? (run : TunnelRun) : Option (Except TunnelError Unit) :=
  match run.phase with
  | .ended none => some (.ok ())
  | .ended (some e) => some (.error e)
  | _ => none

/-- The outcome of loading keys. -/
def keysLoaded : Except TunnelError (List κ) → RunEvent
  | .ok keys => .stepDone (.ofList [("count", toString keys.length)])
  | .error e => .stepFailed e

/-- The outcome of connecting to an SSH server. -/
def connected (host user : String) : Except TunnelError Unit → RunEvent
  | .ok () => .stepDone (.ofList [("ssh_host", host), ("ssh_user", user)])
  | .error e => .stepFailed e

/-- The outcome of listening on an address. -/
def listening (address : String) : Except IoError Unit → RunEvent
  | .ok () => .stepDone (.ofList [("address", address)])
  | .error e => .stepFailed (.bind address e)

/-- The outcome of registering a port. -/
def registered (port : UInt16) : Except TunnelError Unit → RunEvent
  | .ok () => .stepDone (.ofList [("port", toString port)])
  | .error e => .stepFailed e

end TunnelRun
end SshTunnels
