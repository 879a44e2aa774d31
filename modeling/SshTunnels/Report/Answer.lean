import SshTunnels.Lifecycle
import SshTunnels.Report.Stats

/-!
# Answers

Records of what came of a request: a value under `ok`, or the kind of an error with its text. The
text is left out where it says nothing that is ours to say.
-/

namespace SshTunnels

namespace Report

/-- The record of a value. -/
def ok (value : Json) : Json := .object [("ok", value)]

/-- The record of an error. -/
def failure (kind : String) (message : Option String) : Json :=
  .object (("error", .string kind) :: (message.map fun m => ("message", .string m)).toList)

end Report

/-- A row's fault as a record. -/
def RowError.toJson (e : RowError) : Json :=
  Report.failure e.name (some e.message)

/-- An error of the SSH layer as a record. -/
def SshError.toJson (e : SshError) : Json :=
  Report.failure ("SshCore." ++ e.name) (some e.message)

/-- The text of a store error, if it says more than the kind. -/
def StoreError.ownMessage? (e : StoreError) : Option String :=
  match e with
  | .query _ | .connectionFailed _ | .migrationFailed | .taskPanicked _ => none
  | e => some e.message

/-- A store error as a record; a failed query tells its code. -/
def StoreError.toJson (e : StoreError) : Json :=
  match e with
  | .query fault => .object [("error", .string "Db.Query"),
      ("code", .ofString? (fault.map fun f => toString f.code))]
  | e => Report.failure ("Db." ++ e.name) e.ownMessage?

namespace TunnelError

/-- The kind of an error, with the layer it comes from. -/
def kindName : TunnelError → String
  | .sshCore e => "SshCore." ++ e.name
  | .store e => "Db." ++ e.name
  | e => e.name

/-- The text of an error, if it says more than the kind. -/
def ownMessage? (e : TunnelError) : Option String :=
  match e with
  | .ssh _ | .boot _ (.ssh _) => none
  | .boot _ (.store source) => source.ownMessage?.map fun _ => e.message
  | e => some e.message

/-- A tunnel's error as a record; a boot error tells the kind of its cause. -/
def toJson (e : TunnelError) : Json :=
  match e with
  | .store e => e.toJson
  | .boot _ source => .object ([("error", .string "Boot"), ("source", .string source.kindName)] ++
      (e.ownMessage?.map fun m => ("message", .string m)).toList)
  | e => Report.failure e.kindName e.ownMessage?

end TunnelError

namespace Report

/-- The record of an outcome. -/
def outcome (value : α → Json) : Except TunnelError α → Json
  | .ok a => ok (value a)
  | .error e => e.toJson

end Report

/-- A report as a record: the event without the identity of its session. -/
def LifecycleReport.toJson (r : LifecycleReport) : Json :=
  let name := ("event", Json.string (r.title.drop "tunnel.".length).toString)
  match r with
  | .bootEvent _ tags | .sessionEvent _ _ tags => .object [name, ("tags", tags.toJson)]
  | .bootError e | .sessionError _ e | .error e => .object [name, ("err", e.toJson)]
  | _ => .object [name]

end SshTunnels
