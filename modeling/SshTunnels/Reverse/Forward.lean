import SshTunnels.Text.Quoted
import SshTunnels.Tunnel.Error

/-!
# Forward requests

An agent asks for the users of a port. The request stays good until it is closed: its connection
ends, the agent takes it back, or the tunnel's registration ends. Users never get through a closed
request, and the agent hears nothing of them.
-/

namespace SshTunnels

/-- An agent's request to be given the users of a port. -/
structure ForwardRequest where
  tunnel : Uuid
  bindAddress : String
  bindPort : UInt16
  peer : Option String
  isClosed : Bool := false
  deriving DecidableEq, Repr

namespace ForwardRequest

/-- The request, over. -/
def close (r : ForwardRequest) : ForwardRequest :=
  { r with isClosed := true }

/-- Opens a channel to the agent, unless the request is over. -/
def dial (r : ForwardRequest) (agent : Unit → Except TunnelError α) : Except TunnelError α :=
  if r.isClosed then .error (.forward "agent connection closed") else agent ()

/-- The request for people to read. -/
def text (r : ForwardRequest) : String :=
  let peer := r.peer.elim "None" fun p => s!"Some({p})"
  s!"ForwardRequest \x7b tunnel_id: {r.tunnel}, bind_address: {Text.quoted r.bindAddress}, " ++
    s!"bind_port: {r.bindPort}, peer: {peer}, closed: {r.isClosed} \x7d"

end ForwardRequest
end SshTunnels
