import SshTunnels.Report.Fields
import SshTunnels.Tunnel.Error

/-!
# Errors from records

Errors that a record spells out, constructor by constructor.
-/

namespace SshTunnels

open Fields

/-- The kind of failure that a record names. -/
def IoKind.ofRecord (j : Json) : IoKind := (IoKind.ofName? (str j "kind")).getD .other

/-- An error of a kind, perhaps with a text of its own. -/
def IoError.ofRecord (j : Json) : IoError :=
  (str? j "text").elim (.plain (.ofRecord j)) (.custom (.ofRecord j))

/-- A row's fault. -/
def RowError.ofRecord (j : Json) : RowError :=
  match str j "type" with
  | "UnknownTunnelKind" => .unknownTunnelKind (str j "text")
  | "UnknownKeyKind" => .unknownKeyKind (str j "text")
  | "MissingField" => .missingField (kindOf j "kind") (idOf j "id") (str j "field")
  | _ => .portOutOfRange (str j "field") (num j "value" 0)

/-- An error of the SSH layer. -/
def SshError.ofRecord (j : Json) : SshError :=
  let text := str j "text"
  let io := IoError.ofRecord (sub j "io")
  match str j "ssh" with
  | "Io" => .io io
  | "BindFailed" => .bindFailed text io
  | "ConnectionFailed" => .connectionFailed text io
  | "InvalidPrivate" => .invalidKey .privateKey (.malformed text)
  | "InvalidPublic" => .invalidKey .publicKey (.malformed text)
  | "KeyGeneration" => .keyGeneration text
  | "Empty" => .emptyValue text
  | _ => .other text

/-- An error of the store. -/
def StoreError.ofRecord (j : Json) : StoreError :=
  let text := str j "text"
  let io := IoError.ofRecord (sub j "io")
  match str j "db" with
  | "Io" => .io io
  | "TunnelNotFound" => .tunnelNotFound (idOf j "id")
  | "KeyNotFound" => .keyNotFound (idOf j "id")
  | "InvalidRow" => .invalidRow (idOf j "id") (.ofRecord (sub j "source"))
  | "InvalidPath" => .invalidPath text
  | "DirectoryCreationFailed" => .directoryCreationFailed text io
  | "FileCreationFailed" => .fileCreationFailed text io
  | _ => .taskPanicked text

namespace TunnelError

/-- An error that no other error caused. -/
def plainOfRecord (j : Json) : TunnelError :=
  let text := str j "text"
  let io := IoError.ofRecord (sub j "io")
  let span : Span := ⟨(num j "secs" 0 * 1000000000 + num j "nanos" 0).toNat⟩
  match str j "variant" with
  | "Io" => .io io
  | "Listener" => .listener io
  | "Bind" => .bind text io
  | "Timeout" => .timeout text span
  | "AuthFailed" => .authFailed (str j "user") (str j "address")
  | "NoKeys" => .noKeys (kindOf j "kind") (idOf j "id")
  | "KeyNotFound" => .keyNotFound (idOf j "id")
  | "Keepalive" => .keepalive text
  | "Forward" => .forward text
  | "List" => .list text
  | "Discovery" => .discovery text
  | "PortConflict" => .portConflict (portOf j "port") (idOf j "id")
  | "Stale" => .stale span
  | "Panicked" => .panicked
  | _ => .other text

/-- An error of a tunnel; `depth` bounds how far causes are followed. -/
def ofRecordWithin : (depth : Nat) → Json → TunnelError
  | 0, _ => .panicked
  | depth + 1, j =>
    if (j.get? "ssh").isSome then .sshCore (.ofRecord j)
    else if (j.get? "db").isSome then .store (.ofRecord j)
    else match str j "variant" with
      | "Boot" => .atBoot (str j "event") (ofRecordWithin depth (sub j "source"))
      | "NestedBoot" => .boot (str j "event") (ofRecordWithin depth (sub j "source"))
      | _ => plainOfRecord j

/-- An error of a tunnel. -/
def ofRecord (j : Json) : TunnelError :=
  ofRecordWithin j.write.length j

end TunnelError
end SshTunnels
