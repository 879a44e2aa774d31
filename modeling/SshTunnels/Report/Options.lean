import SshTunnels.Json.Basic
import SshTunnels.Options

/-!
# Options as records
-/

namespace SshTunnels

/-- A span as its text. -/
def Span.toJson (s : Span) : Json := .string s.text

/-- The record of the options of tunnels. -/
def TunnelOptions.toJson (o : TunnelOptions) : Json :=
  .object [("bind_host", .string o.bindHost), ("default_user", .string o.defaultUser),
    ("dial_timeout", o.dialTimeout.toJson), ("keepalive_interval", o.keepaliveInterval.toJson),
    ("keepalive_timeout", o.keepaliveTimeout.toJson), ("stats_interval", o.statsInterval.toJson)]

/-- The record of the options of the SSH server. -/
def ReverseOptions.toJson (o : ReverseOptions) : Json :=
  .object [("bind_host", .string o.bindHost), ("port", .ofNat o.port.toNat),
    ("host_key_path", .ofString? o.hostKeyPath),
    ("auth_rejection_time", o.authRejectionTime.toJson), ("forward_queue", .ofNat o.forwardQueue)]

/-- The record of the options of checks. -/
def ConncheckOptions.toJson (o : ConncheckOptions) : Json :=
  .object [("interval", o.interval.toJson), ("dial_timeout", o.dialTimeout.toJson),
    ("read_wait", o.readWait.toJson), ("max_read", .ofNat o.maxRead)]

/-- The record of the options of the manager. -/
def ManagerOptions.toJson (o : ManagerOptions) : Json :=
  .object [("refresh_interval", o.refreshInterval.toJson),
    ("restart_interval", o.restartInterval.toJson), ("stop_timeout", o.stopTimeout.toJson),
    ("conncheck", o.conncheck.elim .null (·.toJson))]

end SshTunnels
