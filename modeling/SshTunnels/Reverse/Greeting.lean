import SshTunnels.Bytes

/-!
# Greetings

What the SSH server makes of the first bytes of a connection. It skips lines until one names version
2 of the protocol, and gives up on a line that does not end in time. After that line come packets,
each led by its length in four bytes; a packet cannot be longer than a bound, and the first one has
to be a proposal of algorithms.
-/

namespace SshTunnels.Greeting

/-- The server's own name begins like this. -/
def banner : String := "SSH-2.0-"

/-- The bytes in which a line has to end. -/
def lineBound : Nat := 256

/-- The greatest length of a packet. -/
def packetBound : Nat := 256 * 1024

/-- A line names a version that the server speaks. -/
def isVersion (line : Bytes) : Bool :=
  let start := line.take 8
  start == Bytes.ofString banner || start == Bytes.ofString "SSH-1.99"

/-- The first packet is too long, or complete and no proposal. -/
def refusesPacket (packet : Bytes) : Bool :=
  let length := Bytes.toNat (packet.take 4)
  4 ≤ packet.length &&
    (packetBound < length || (length + 4 ≤ packet.length && packet[5]? != some 20))

/-- The server hangs up on a peer that says this and then waits. -/
def refuses (data : Bytes) : (fuel : Nat) → Bool
  | 0 => false
  | fuel + 1 =>
    let (line, rest) := data.span (· != 10)
    match rest with
    | [] => lineBound ≤ data.length
    | _ :: rest =>
      if lineBound ≤ line.length then true
      else if isVersion line then refusesPacket rest
      else refuses (data.drop lineBound) fuel

/-- The server hangs up on a peer that says this and then waits. -/
def isRefused (data : Bytes) : Bool :=
  refuses data (data.length + 1)

end SshTunnels.Greeting
