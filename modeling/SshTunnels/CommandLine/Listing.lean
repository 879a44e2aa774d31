import SshTunnels.Json.Writer
import SshTunnels.Tunnel.Json

/-!
# Listings for people

A line per tunnel: its identifier, kind and state, where users connect, and where a standard tunnel
leads.
-/

namespace SshTunnels.TunnelConfig

/-- The line of a tunnel. -/
def line (c : TunnelConfig) : String :=
  let state := if c.enabled then "enabled" else "disabled"
  let start := s!"{c.id} {c.kind} {state} :{c.tunnelPort}"
  match c with
  | .standard t =>
    let user := t.sshUser.getD "-"
    start ++ s!" -> {user}@{t.sshHost}:{t.sshPort} -> {t.serviceHost}:{t.servicePort}"
  | .reverse _ => start

/-- The lines of tunnels. -/
def lines (cs : List TunnelConfig) : List String :=
  cs.map line

/-- Tunnels as the text of a JSON array, by lines. -/
def jsonLines (cs : List TunnelConfig) : List String :=
  (Json.array (cs.map (·.toJson))).writePretty.splitOn "\n"

end SshTunnels.TunnelConfig
