import SshTunnels.CommandLine.Arguments
import SshTunnels.Report.Options

/-!
# Commands as records
-/

namespace SshTunnels

/-- The record of a command. -/
def ServerCommand.toJson (c : ServerCommand) : Json :=
  let id (id : Uuid) : Json := .string id.text
  let port (p : UInt16) : Json := .ofNat p.toNat
  let (name, fields) : String × List (String × Json) := match c with
    | .run => ("run", [])
    | .check i => ("check", [("id", id i)])
    | .addStandard p h sp u vh vp d => ("add-standard", [("port", port p), ("ssh_host", .string h),
        ("ssh_port", port sp), ("ssh_user", .ofString? u), ("service_host", .string vh),
        ("service_port", port vp), ("disabled", .bool d)])
    | .addReverse p d => ("add-reverse", [("port", port p), ("disabled", .bool d)])
    | .list b => ("list", [("json", .bool b)])
    | .enable i => ("enable", [("id", id i)])
    | .disable i => ("disable", [("id", id i)])
    | .delete i => ("delete", [("id", id i)])
    | .generate t a => ("generate", [("tunnel", id t), ("algorithm", .string a.name)])
    | .authorize t f => ("authorize", [("tunnel", id t), ("file", .string f)])
  .object (("cmd", .string name) :: fields)

/-- The record of everything that the program is told. -/
def ServerArguments.toJson (a : ServerArguments) : Json :=
  .object [("db", .ofString? a.db), ("log_level", .string a.logLevel),
    ("run", .object [("tunnel", a.tunnel.toJson), ("reverse", a.reverse.toJson),
      ("manager", a.manager.toJson), ("discovery_host", .string a.discoveryHost)]),
    ("command", a.command.elim .null (·.toJson))]

end SshTunnels
