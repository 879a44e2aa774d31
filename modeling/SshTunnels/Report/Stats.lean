import SshTunnels.Json.Basic
import SshTunnels.Stats
import SshTunnels.Text.Shortest
import SshTunnels.Tunnel.Details

/-!
# Statistics as records
-/

namespace SshTunnels

/-- The tags as members. -/
def Tags.toJson (t : Tags) : Json :=
  .object (t.entries.map fun (k, v) => (k, .string v))

/-- The record of a measurement or an event. -/
def StatRecord.toJson : StatRecord → Json
  | .count name value tags =>
    .object [("count", .string name), ("value", .ofInt value), ("tags", tags.toJson)]
  | .gauge name value tags =>
    .object [("gauge", .string name), ("value", .string (Text.floatText value)),
      ("tags", tags.toJson)]
  | .event title text tags =>
    .object [("event", .string title), ("text", .string text), ("tags", tags.toJson)]

/-- The record of a tunnel's details for people: whether there was a check, not when. -/
def TunnelDetails.summary (t : TunnelDetails) : Json :=
  .object [("host", .string t.host), ("port", .ofNat t.port.toNat),
    ("health", .string t.health.name), ("display", .string t.health.label),
    ("reason", .ofString? t.reason), ("checked", .bool t.checkedAt.isSome)]

end SshTunnels
