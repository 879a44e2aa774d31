import SshTunnels.Reverse.Forward
import SshTunnels.Reverse.Registry

/-!
# The SSH server for agents
-/

namespace SshTunnels.Reverse

/-- The server for people to read. -/
def serverText (address : String) (tunnels : Nat) : String :=
  s!"ReverseServer \x7b bind_address: {Text.quoted address}, tunnels: {tunnels} \x7d"

end SshTunnels.Reverse
