import SshTunnels.CommandLine.Arguments
import SshTunnels.CommandLine.KeyCommand
import SshTunnels.CommandLine.Listing
import SshTunnels.Network
import SshTunnels.Probe
import SshTunnels.Reverse.HostKey
import SshTunnels.Store.Opening
import SshTunnels.Time.Instant

/-!
# The program

One run of the program on a machine: it reads its arguments, opens and migrates the database, and
carries out its command. The server itself then runs until it is interrupted.
-/

namespace SshTunnels

/-- What a run of the program finds: files, environment, clock and random number, the network, who
listens already, and how the endpoints of tunnels behave. -/
structure Machine where
  files : FileSystem
  environment : Environment
  now : Timestamp
  random : Nat
  network : Network
  isTaken : String → UInt16 → Bool
  endpoint : String → UInt16 → Endpoint

/-- How a run ends, or that it serves agents at an address until it is interrupted. A panic is an
end that the program does not provide for. -/
inductive ProgramEnd where
  | finished
  | failed (error : ProgramError)
  | panicked (message : String)
  | serving (host : String) (port : UInt16)
  deriving DecidableEq, Repr

/-- A run: the files it leaves, the lines it prints, the endpoint that it has dialled, and how it
ends. -/
structure ProgramRun where
  files : FileSystem
  output : List String := []
  dialed : Option (String × UInt16) := none
  ending : ProgramEnd := .finished

/-- An opened database: what is in files, and what is in memory only. -/
structure OpenDatabase where
  opened : OpenedStore
  files : FileSystem
  memory : Database := {}

namespace OpenDatabase

/-- Reads. -/
def read (d : OpenDatabase) (query : Database → Except StoreError α) : Except StoreError α :=
  match d.opened.tables d.files d.memory with
  | .ok db => query db
  | .error fault => .error (.query (some fault))

/-- Changes. -/
def write (d : OpenDatabase) (change : Database → Except StoreError Database) :
    Except StoreError Unit × OpenDatabase :=
  let (result, files, memory) := d.opened.write d.files d.memory change
  (result, { d with files, memory })

end OpenDatabase

namespace Program

/-- The name of the program and its version. -/
def version : String := "tb-server 0.1.0"

/-- A run that prints some lines. -/
def printed (d : OpenDatabase) (lines : List String) : ProgramRun :=
  { files := d.files, output := lines }

/-- A run that fails. -/
def failed (d : OpenDatabase) (error : ProgramError) : ProgramRun :=
  { files := d.files, ending := .failed error }

/-- Changes the database and prints some lines if that succeeds. -/
def changing (d : OpenDatabase) (lines : List String)
    (change : Database → Except StoreError Database) : ProgramRun :=
  match d.write change with
  | (.ok (), d) => printed d lines
  | (.error e, d) => failed d (.store e)

/-- Carries out the statements of a key command. -/
def runKeyCommand (command : KeyCommand) (id : Uuid) (now : Timestamp) :
    (fuel : Nat) → OpenDatabase → KeyCommandPhase → ProgramRun
  | 0, d, _ => failed d (.store (.query none))
  | fuel + 1, d, phase =>
    match phase.result? with
    | some (.ok text) => printed d ((text.trimAsciiEnd.toString).splitOn "\n")
    | some (.error e) => failed d e
    | none =>
      if phase.isChange then
        match d.read fun db => .ok (command.step id now db phase) with
        | .error e => failed d (.store e)
        | .ok (next, changed) =>
          match d.write fun _ => .ok changed with
          | (.ok (), d) => runKeyCommand command id now fuel d next
          | (.error e, d) => failed d (.store e)
      else
        match d.read fun db => .ok (command.step id now db phase).1 with
        | .error e => failed d (.store e)
        | .ok next => runKeyCommand command id now fuel d next

/-- A key pair from a machine's random number, with the comment of a tunnel's keys. RSA keys are not
made here. -/
def newPair (m : Machine) (tunnel : Uuid) : NewKeyAlgorithm → Except ProgramError GeneratedKeyPair
  | .ed25519 => .ok (.ofSeed (Bytes.ofNat 32 m.random) (m.random % UInt32.size)
      ("tunnelbridge-" ++ tunnel.text))
  | .rsa => .error (.ssh (.keyGeneration elided))

/-- The line of a check: where the tunnel is reached, and how it is. -/
def checkLine (m : Machine) (host : String) (c : TunnelConfig) : String :=
  let address := s!"{host}:{c.tunnelPort}"
  let o := Probe.check {} (m.endpoint host c.tunnelPort)
  let reason := (o.reason? address).elim "" (": " ++ ·)
  s!"{address} {o.health.label}{reason}"

/-- The time between two checks of the manager, unless it is too long for a span. -/
def checkInterval? (options : ManagerOptions) : Option Span :=
  options.refreshInterval.double?

/-- Runs the server: its host key and its listener come first, and then the timer of its checks. -/
def serve (m : Machine) (d : OpenDatabase) (options : ReverseOptions) (manager : ManagerOptions) :
    ProgramRun :=
  let fresh := GeneratedKeyPair.ofSeed (Bytes.ofNat 32 m.random) (m.random % UInt32.size)
    "tunnelbridge-host"
  match hostKey d.files options.hostKeyPath fresh with
  | (files, .error e) => { files, ending := .failed (.tunnel e.toTunnelError) }
  | (files, .ok _) =>
    let address := s!"{options.bindHost}:{options.port}"
    match Network.bindFault? options.bindHost (m.isTaken options.bindHost options.port) with
    | some code => { files, ending := .failed (.tunnel (.bind address (.system code))) }
    | none =>
      match checkInterval? manager with
      | none => { files, ending := .panicked "overflow when multiplying duration by scalar" }
      | some _ => { files, ending := .serving options.bindHost options.port }

/-- Carries out a command on the opened database. -/
def perform (m : Machine) (d : OpenDatabase) (a : ServerArguments) : ProgramRun :=
  let id := Uuid.ofTime (m.now.seconds.toNat * 1000 + m.now.nanos / 1000000) m.random
  let fuel := 4
  match a.command with
  | none | some .run => serve m d a.reverse a.manager
  | some (.check tunnel) =>
    match d.read (·.getTunnel tunnel) with
    | .error e => failed d (.store e)
    | .ok none => failed d (.noTunnel tunnel)
    | .ok (some c) =>
      { printed d [checkLine m a.discoveryHost c] with
        dialed := some (a.discoveryHost, c.tunnelPort) }
  | some (.addStandard port sshHost sshPort sshUser serviceHost servicePort disabled) =>
    changing d [id.text] (·.insertTunnel (.standard
      ⟨id, m.now, !disabled, port, sshUser, sshHost, sshPort, serviceHost, servicePort⟩))
  | some (.addReverse port disabled) =>
    changing d [id.text] (·.insertTunnel (.reverse ⟨id, m.now, !disabled, port⟩))
  | some (.list json) =>
    match d.read (·.listTunnels) with
    | .error e => failed d (.store e)
    | .ok cs => printed d (if json then TunnelConfig.jsonLines cs else TunnelConfig.lines cs)
  | some (.enable tunnel) => changing d [] (·.setTunnelEnabled tunnel true)
  | some (.disable tunnel) => changing d [] (·.setTunnelEnabled tunnel false)
  | some (.delete tunnel) => changing d [] (·.deleteTunnel tunnel)
  | some (.generate tunnel algorithm) =>
    runKeyCommand (.generate tunnel (newPair m tunnel algorithm)) id m.now fuel d .lookingUp
  | some (.authorize tunnel file) =>
    let contents := (d.files.readFile (d.files.place file)).mapError fun _ =>
      ProgramError.unreadable file
    runKeyCommand (.authorize tunnel contents) id m.now fuel d .lookingUp

/-- The variables of the environment that the program looks at. -/
def variableNames : List String :=
  ["HOME", "XDG_STATE_HOME", "TB_DB_MAX_CONNECTIONS"] ++
    (ServerArguments.globalOptions ++ ServerArguments.runOptions).filterMap (·.env)

/-- The paths that a run may look at or change. -/
def paths (env : Environment) (words : List String) : List String :=
  match ServerArguments.read env words with
  | .error _ => []
  | .ok a =>
    let name := DatabaseAddress.display a.db env
    let database :=
      if DatabaseAddress.isUrl name then (DatabaseAddress.ofUrl? name).map (·.path) else some name
    let key := match a.command with
      | some (.authorize _ file) => some file
      | _ => none
    database.toList ++ a.reverse.hostKeyPath.toList ++ key.toList

/-- Runs the program with these words on its command line. Help tells the place of the database. -/
def run (m : Machine) (words : List String) : ProgramRun :=
  match ServerArguments.read m.environment words with
  | .error .displayHelp =>
    { files := m.files, output := ["Database: " ++ DatabaseAddress.display none m.environment] }
  | .error .displayVersion => { files := m.files, output := [version] }
  | .error fault => { files := m.files, ending := .failed (.usage fault) }
  | .ok a =>
    match Opening.run m.files a.db m.environment with
    | (files, .error e) => { files, ending := .failed (.store e) }
    | (files, .ok opened) =>
      let (migrated, files, memory) := opened.migrate files {}
      let d : OpenDatabase := ⟨opened, files, memory⟩
      match migrated with
      | .error e => failed d (.store e)
      | .ok () => perform m d a

end Program
end SshTunnels
