import SshTunnels.IoError
import SshTunnels.Text.Digits

/-!
# The network

What a machine's network lets it do. Addresses that begin with 127 are the machine itself, as is its
name for itself, and the address of zeros stands for all of its addresses. A network that is down
lets programs listen, and lets nobody connect.
-/

namespace SshTunnels

/-- Whether connections can be made. -/
inductive Network where
  | up
  | down
  deriving DecidableEq, Repr

namespace Network

/-- The four numbers of a dotted address. -/
def octets? (host : String) : Option (List Nat) :=
  let parts := (host.splitOn ".").map fun p =>
    if p.length ≤ 3 && !p.isEmpty && p.all Char.isDigit then p.toNat? else none
  match parts.mapM id with
  | some ns => if ns.length = 4 && ns.all (· < 256) then some ns else none
  | none => none

/-- The address is one of the machine's own. -/
def isLoopback (host : String) : Bool :=
  host == "localhost" || (octets? host).any fun ns => ns.head? == some 127

/-- Why nobody gets a connection, if nobody does. -/
def dialFault? (n : Network) (host : String) (isListening : Bool) : Option OsCode :=
  match n with
  | .down => some .networkUnreachable
  | .up =>
    if !isLoopback host then some .networkUnreachable
    else if isListening then none
    else some .connectionRefused

/-- Why a program cannot listen, if it cannot. -/
def bindFault? (host : String) (isTaken : Bool) : Option OsCode :=
  if !(isLoopback host || octets? host == some [0, 0, 0, 0]) then some .cannotAssignAddress
  else if isTaken then some .addressInUse
  else none

end Network
end SshTunnels
