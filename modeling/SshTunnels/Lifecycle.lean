import SshTunnels.Stats
import SshTunnels.Tunnel.Error

/-!
# Lifecycles

What a tunnel reports about itself while it runs, and how a report becomes an event of the
statistics. Every such event carries the identity of its tunnel; a report about a session carries
the identity of the session as well.
-/

namespace SshTunnels

/-- A report of a running tunnel: it starts, makes its boot steps, opens, serves sessions, closes
and stops; or something fails. -/
inductive LifecycleReport where
  | start
  | bootEvent (event : String) (tags : Tags)
  | bootError (error : TunnelError)
  | opened
  | sessionEvent (session : Uuid) (event : String) (tags : Tags)
  | sessionError (session : Uuid) (error : TunnelError)
  | error (error : TunnelError)
  | closed
  | stop
  deriving DecidableEq, Repr

namespace LifecycleReport

/-- The title of the event. -/
def title : LifecycleReport → String
  | .start => "tunnel.start"
  | .bootEvent event _ => "tunnel.boot." ++ event
  | .bootError _ => "tunnel.boot_error"
  | .opened => "tunnel.open"
  | .sessionEvent _ event _ => "tunnel.session." ++ event
  | .sessionError .. => "tunnel.session_error"
  | .error _ => "tunnel.error"
  | .closed => "tunnel.close"
  | .stop => "tunnel.stop"

/-- The text of the event: the error, if it reports one. -/
def text : LifecycleReport → String
  | .bootError e | .sessionError _ e | .error e => e.message
  | _ => ""

/-- The tags of the report itself. -/
def tags : LifecycleReport → Tags
  | .bootEvent _ tags => tags
  | .sessionEvent session _ tags => tags.insert "session_id" session.text
  | .sessionError session _ => .ofList [("session_id", session.text)]
  | _ => .empty

end LifecycleReport

/-- Where the reports of one tunnel go: to the statistics, with the tunnel's identity. -/
structure Lifecycle where
  stats : StatsHandle
  deriving DecidableEq, Repr

namespace Lifecycle

/-- The lifecycle of a tunnel, whose events carry the handle's tags as well. -/
def forTunnel (stats : StatsHandle) (id : Uuid) (kind : TunnelKind) : Lifecycle :=
  ⟨stats.withTags (.ofList [("tunnel_id", id.text), ("tunnel_type", kind.name)])⟩

/-- The event of a report. -/
def record (l : Lifecycle) (r : LifecycleReport) : StatRecord :=
  l.stats.event r.title r.text r.tags

end Lifecycle
end SshTunnels
