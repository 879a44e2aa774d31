import SshTunnels.CommandLine.Usage
import SshTunnels.Tunnel.Error

/-!
# Errors of the program

What makes the program fail, in words. How a wrong command line is explained is not fixed here, but
for a command that only has subcommands and is given none: then the help of that command is the
explanation.
-/

namespace SshTunnels

/-- Why the program fails. -/
inductive ProgramError where
  | usage (fault : UsageFault)
  | store (error : StoreError)
  | ssh (error : SshError)
  | tunnel (error : TunnelError)
  | noTunnel (id : Uuid)
  | unreadable (path : String)
  deriving DecidableEq, Repr

/-- What a command that only has subcommands is for. -/
def aboutGroup : String → String
  | "tunnels" => "Manage desired tunnels"
  | "keys" => "Manage tunnel key material"
  | _ => elided

/-- The failure in words. -/
def ProgramError.message : ProgramError → String
  | .usage (.displayHelpForMissing command) => aboutGroup command
  | .usage _ => "error: " ++ elided
  | .store e => e.message
  | .ssh e => e.message
  | .tunnel e => e.message
  | .noTunnel id => s!"tunnel {id} not found"
  | .unreadable path => "failed to read " ++ path

end SshTunnels
