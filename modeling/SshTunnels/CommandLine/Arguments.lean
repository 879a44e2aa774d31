import SshTunnels.CommandLine.Usage
import SshTunnels.Options

/-!
# The program's arguments

The options and commands of the server program. Without a command it runs the server. Intervals that
must not be zero are raised to one second.
-/

namespace SshTunnels

/-- The algorithm of a key to be generated. -/
inductive NewKeyAlgorithm where
  | ed25519
  | rsa
  deriving DecidableEq, Repr

/-- The word for an algorithm. -/
def NewKeyAlgorithm.name : NewKeyAlgorithm → String
  | .ed25519 => "ed25519"
  | .rsa => "rsa"

/-- What the program is told to do. -/
inductive ServerCommand where
  | run
  | check (id : Uuid)
  | addStandard (port : UInt16) (sshHost : String) (sshPort : UInt16) (sshUser : Option String)
      (serviceHost : String) (servicePort : UInt16) (disabled : Bool)
  | addReverse (port : UInt16) (disabled : Bool)
  | list (json : Bool)
  | enable (id : Uuid)
  | disable (id : Uuid)
  | delete (id : Uuid)
  | generate (tunnel : Uuid) (algorithm : NewKeyAlgorithm)
  | authorize (tunnel : Uuid) (file : String)
  deriving DecidableEq, Repr

/-- Everything that a command line and the environment tell the program. -/
structure ServerArguments where
  db : Option String
  logLevel : String
  tunnel : TunnelOptions
  reverse : ReverseOptions
  manager : ManagerOptions
  discoveryHost : String
  command : Option ServerCommand
  deriving DecidableEq, Repr

namespace ServerArguments

/-- The options that every command accepts. -/
def globalOptions : List OptionSpec :=
  [{ name := "db", env := some "TB_DB_URL" }, { name := "log-level", env := some "TB_LOG_LEVEL" }]

/-- The options of the server itself. -/
def runOptions : List OptionSpec :=
  [{ name := "reverse-bind", env := some "TB_REVERSE_BIND" },
    { name := "reverse-port", kind := .port, env := some "TB_REVERSE_PORT" },
    { name := "host-key", kind := .path, env := some "TB_HOST_KEY" },
    { name := "bind-host", env := some "TB_BIND_HOST" },
    { name := "default-user", env := some "TB_DEFAULT_USER" },
    { name := "dial-timeout", kind := .seconds, env := some "TB_DIAL_TIMEOUT" },
    { name := "keepalive-interval", kind := .seconds, env := some "TB_KEEPALIVE_INTERVAL" },
    { name := "keepalive-timeout", kind := .seconds, env := some "TB_KEEPALIVE_TIMEOUT" },
    { name := "refresh-interval", kind := .seconds, env := some "TB_REFRESH_INTERVAL" },
    { name := "restart-interval", kind := .seconds, env := some "TB_RESTART_INTERVAL" },
    { name := "conncheck", isFlag := true, env := some "TB_CONNCHECK" },
    { name := "discovery-host", env := some "TB_DISCOVERY_HOST" }]

/-- A command without subcommands. -/
def leaf (name : String) (options : List OptionSpec) (positionals : List (String × ValueKind)) :
    CommandSpec :=
  .mk name (options ++ globalOptions) positionals false false []

/-- A command that only has subcommands. -/
def group (name : String) (subcommands : List CommandSpec) : CommandSpec :=
  .mk name globalOptions [] true false subcommands

/-- The whole program. -/
def spec : CommandSpec :=
  let port : OptionSpec := { name := "port", kind := .port, isRequired := true }
  let disabled : OptionSpec := { name := "disabled", isFlag := true }
  let tunnel : OptionSpec := { name := "tunnel", kind := .uuid, isRequired := true }
  .mk "tb-server" (globalOptions ++ runOptions) [] false true
    [leaf "run" [] [],
      group "tunnels"
        [leaf "add-standard"
          [port, { name := "ssh-host", isRequired := true }, { name := "ssh-port", kind := .port },
            { name := "ssh-user" }, { name := "service-host", isRequired := true },
            { name := "service-port", kind := .port, isRequired := true }, disabled] [],
          leaf "add-reverse" [port, disabled] [],
          leaf "list" [{ name := "json", isFlag := true }] [],
          leaf "enable" [] [("id", .uuid)],
          leaf "disable" [] [("id", .uuid)],
          leaf "delete" [] [("id", .uuid)]],
      group "keys"
        [leaf "generate" [tunnel, { name := "algorithm", kind := .choice ["ed25519", "rsa"] }] [],
          leaf "authorize" [tunnel] [("file", .path)]],
      leaf "check" [] [("id", .uuid)]]

/-- What the innermost command says. -/
def commandOf (p : ParsedCommand) : Option ServerCommand :=
  let inner := p.innermost
  let text (name : String) : String := (inner.get? name).getD ""
  let port (name : String) (fallback : UInt16) : UInt16 :=
    ((inner.get? name).bind portOfText?).getD fallback
  let id (name : String) : Uuid := ((inner.get? name).bind Uuid.ofString?).getD default
  match p.path with
  | ["run"] => some .run
  | ["check"] => some (.check (id "id"))
  | ["tunnels", "add-standard"] =>
    some (.addStandard (port "port" 0) (text "ssh-host") (port "ssh-port" 22)
      (inner.get? "ssh-user") (text "service-host") (port "service-port" 0)
      (inner.hasFlag "disabled"))
  | ["tunnels", "add-reverse"] => some (.addReverse (port "port" 0) (inner.hasFlag "disabled"))
  | ["tunnels", "list"] => some (.list (inner.hasFlag "json"))
  | ["tunnels", "enable"] => some (.enable (id "id"))
  | ["tunnels", "disable"] => some (.disable (id "id"))
  | ["tunnels", "delete"] => some (.delete (id "id"))
  | ["keys", "generate"] =>
    some (.generate (id "tunnel") (if text "algorithm" = "rsa" then .rsa else .ed25519))
  | ["keys", "authorize"] => some (.authorize (id "tunnel") (text "file"))
  | _ => none

/-- The arguments that a command line gives. -/
def ofParsed (p : ParsedCommand) : ServerArguments :=
  let text (name fallback : String) : String := (p.get? name).getD fallback
  let span (name : String) (fallback : Span) : Span :=
    ((p.get? name).bind secondsOfText?).elim fallback .ofSeconds
  let raised (s : Span) : Span := if s.nanos < 1000000000 then .ofSeconds 1 else s
  let tunnel : TunnelOptions := {}
  let reverse : ReverseOptions := {}
  let manager : ManagerOptions := {}
  { db := (p.globalValue "db" none).map (·.1)
    logLevel := ((p.globalValue "log-level" none).map (·.1)).getD "info"
    tunnel := { tunnel with
      bindHost := text "bind-host" tunnel.bindHost
      defaultUser := text "default-user" tunnel.defaultUser
      dialTimeout := span "dial-timeout" tunnel.dialTimeout
      keepaliveInterval := raised (span "keepalive-interval" tunnel.keepaliveInterval)
      keepaliveTimeout := span "keepalive-timeout" tunnel.keepaliveTimeout }
    reverse := { reverse with
      bindHost := text "reverse-bind" reverse.bindHost
      port := ((p.get? "reverse-port").bind portOfText?).getD reverse.port
      hostKeyPath := p.get? "host-key" }
    manager := { manager with
      refreshInterval := raised (span "refresh-interval" manager.refreshInterval)
      restartInterval := span "restart-interval" manager.restartInterval
      conncheck := if p.hasFlag "conncheck" then some {} else none }
    discoveryHost := text "discovery-host" "localhost"
    command := commandOf p }

/-- Reads a command line. -/
def read (env : List (String × String)) (words : List String) :
    Except UsageFault ServerArguments :=
  (CommandReader.run env words { spec }).map ofParsed

end ServerArguments
end SshTunnels
