import SshTunnels.Time.Span

/-!
# Options

The settings of the server and their defaults.
-/

namespace SshTunnels

/-- The user that tunnels sign in as when they name none. -/
def defaultUser : String := "tunnelbridge"

/-- The port that agents connect to. -/
def defaultServerPort : UInt16 := 2222

/-- How standard tunnels connect and how tunnels listen. -/
structure TunnelOptions where
  bindHost : String := "127.0.0.1"
  defaultUser : String := SshTunnels.defaultUser
  dialTimeout : Span := .ofSeconds 15
  keepaliveInterval : Span := .ofSeconds 60
  keepaliveTimeout : Span := .ofSeconds 15
  statsInterval : Span := .ofSeconds 1
  deriving DecidableEq, Repr

/-- How agents connect. -/
structure ReverseOptions where
  bindHost : String := "0.0.0.0"
  port : UInt16 := defaultServerPort
  hostKeyPath : Option String := none
  authRejectionTime : Span := .ofMillis 250
  forwardQueue : Nat := 8
  deriving DecidableEq, Repr

/-- How tunnels are checked. -/
structure ConncheckOptions where
  interval : Span := .ofSeconds 30
  dialTimeout : Span := .ofSeconds 5
  readWait : Span := .ofSeconds 1
  maxRead : Nat := 256
  deriving DecidableEq, Repr

/-- How the set of tunnels is kept up. -/
structure ManagerOptions where
  refreshInterval : Span := .ofSeconds 1
  restartInterval : Span := .ofSeconds 15
  stopTimeout : Span := .ofSeconds 5
  conncheck : Option ConncheckOptions := none
  deriving DecidableEq, Repr

/-- The key exchanges that both sides of a connection offer, in order. The last four are no
exchanges but announce extensions. -/
def keyExchanges : List String :=
  ["curve25519-sha256", "curve25519-sha256@libssh.org", "diffie-hellman-group-exchange-sha256",
    "diffie-hellman-group18-sha512", "diffie-hellman-group17-sha512",
    "diffie-hellman-group16-sha512", "diffie-hellman-group15-sha512",
    "diffie-hellman-group14-sha256", "ext-info-c", "ext-info-s",
    "kex-strict-c-v00@openssh.com", "kex-strict-s-v00@openssh.com"]

/-- The host key algorithms, in order. -/
def hostKeyAlgorithms : List String :=
  ["ssh-ed25519", "ecdsa-sha2-nistp256", "ecdsa-sha2-nistp384", "ecdsa-sha2-nistp521",
    "rsa-sha2-512", "rsa-sha2-256", "ssh-rsa"]

/-- The ciphers, in order. -/
def ciphers : List String :=
  ["chacha20-poly1305@openssh.com", "aes256-gcm@openssh.com", "aes256-ctr", "aes192-ctr",
    "aes128-ctr"]

/-- The message authentication codes, in order. -/
def macs : List String :=
  ["hmac-sha2-512-etm@openssh.com", "hmac-sha2-256-etm@openssh.com", "hmac-sha2-512",
    "hmac-sha2-256", "hmac-sha1-etm@openssh.com", "hmac-sha1"]

end SshTunnels
