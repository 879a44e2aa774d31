import SshTunnels.CommandLine.Program
import SshTunnels.Report.Answer
import SshTunnels.Report.Fields
import SshTunnels.Reverse.Greeting

/-!
# Rehearsals of the command line

Runs of the program, one after the other, in a scratch directory of their own. In a script and in
what it answers the directory, a free port and the identifiers that were printed go by placeholders,
and what is made at random is left out.
-/

namespace SshTunnels.Rehearsal

open Fields

/-- The scratch directory. -/
def scratch : String := "/scratch"

/-- The files of a fresh scratch directory. -/
def scratchFiles : FileSystem :=
  ({ cwd := scratch } : FileSystem).put ["scratch"] (.directory 0o755)

/-- A shell: the files, the free port, whether somebody listens there for one connection and says
something, the identifiers that were printed, and the number of runs. -/
structure Shell where
  files : FileSystem := scratchFiles
  environment : Environment
  network : Network
  port : UInt16
  isTaken : Bool := false
  listens : Option Bytes := none
  ids : List Uuid := []
  runs : Nat := 0

namespace Shell

/-- The placeholder of each identifier that was printed. -/
def placeholders (s : Shell) : List (String × String) :=
  [("<dir>", scratch), ("<port>", toString s.port)] ++
    s.ids.zipIdx.map fun (id, i) => (s!"<id{i + 1}>", id.text)

/-- A text with what its placeholders stand for. -/
def expand (s : Shell) (text : String) : String :=
  s.placeholders.foldl (fun t (name, value) => t.replace name value) text

/-- A text with placeholders for what they stand for. -/
def abbreviate (s : Shell) (text : String) : String :=
  s.placeholders.foldl (fun t (name, value) => t.replace value name) text

/-- What a dial meets: somebody who says something and hangs up, or nobody. -/
def endpoint (s : Shell) (host : String) (port : UInt16) : Endpoint :=
  let listener := s.listens.filter fun _ => port == s.port
  match s.network.dialFault? host listener.isSome with
  | some code => ⟨.failed ⟨0⟩ (.system code), []⟩
  | none => ⟨.connected ⟨0⟩, [(⟨0⟩, .bytes (listener.getD []).length), (⟨0⟩, .closed)]⟩

/-- The machine that the next run finds. -/
def machine (s : Shell) : Machine :=
  { files := s.files, environment := s.environment, now := ⟨s.runs + 1, 0⟩, random := s.runs + 1
    network := s.network
    isTaken := fun _ port => s.isTaken && port == s.port
    endpoint := s.endpoint }

/-- The first line of a text. -/
def firstLine (text : String) : String :=
  (text.splitOn "\n").headD ""

/-- How a run failed, in one line. The report of a panic begins with an empty one. -/
def errorLine : ProgramEnd → Option String
  | .failed e => some ("Error: " ++ firstLine e.message)
  | .panicked _ => some ""
  | .finished | .serving _ _ => none

/-- The exit code of a run; one that serves is interrupted. -/
def exitCode : ProgramEnd → Nat
  | .failed _ => 1
  | .panicked _ => 101
  | .finished | .serving _ _ => 0

/-- A line without the time that it tells or the key that it shows. -/
def withoutChance (line : String) : String :=
  if (line.trimAsciiStart.toString).startsWith "\"created_at\": \"" then
    "    \"created_at\": \"<time>\","
  else match line.splitOn " " with
    | [algorithm, _, comment] =>
      if algorithm.startsWith "ssh-" then s!"{algorithm} <key> {comment}" else line
    | _ => line

/-- Printed lines without times and keys. -/
def shown (lines : List String) : List String :=
  match lines.head?, lines.getLast? with
  | some first, some last =>
    if first.startsWith "-----BEGIN" then [first, "<key>", last] else lines.map withoutChance
  | _, _ => []

/-- Runs the program once. -/
def runOnce (s : Shell) (words : List String) : Shell × ProgramRun :=
  let run := Program.run s.machine (words.map s.expand)
  let printed := run.output.filterMap Uuid.ofString?
  let wasHeard := run.dialed.any fun (host, port) =>
    port == s.port && (s.network.dialFault? host true).isNone
  ({ s with
      files := run.files, runs := s.runs + 1
      listens := if wasHeard then none else s.listens
      ids := s.ids ++ printed.filter fun id => !s.ids.contains id }, run)

/-- Runs the program once and tells what it printed and how it ended. -/
def command (s : Shell) (words : List String) : Shell × Json :=
  let (s, run) := s.runOnce words
  let error := (errorLine run.ending).map s.abbreviate
  (s, .object [("code", .ofNat (exitCode run.ending)),
    ("stdout", .array ((shown run.output).map fun line => .string (s.abbreviate line))),
    ("stderr", .ofString? error)])

/-- The shell of a script. -/
def ofRecord (network : Network) (port : UInt16) (j : Json) : Shell :=
  let files := (members j "files").foldl (fun (fs : FileSystem) (name, contents) =>
    (fs.writeFile (fs.place name) (.bytes (bytesOf contents))).toOption.getD fs) scratchFiles
  let s : Shell := { files, environment := [], network, port }
  { s with
    environment := (members j "env").filterMap fun (k, v) => v.string?.map fun v => (k, s.expand v)
    isTaken := flag j "occupied"
    listens := (str? j "listen").map Bytes.ofString }

/-- Runs commands one after the other. -/
def rehearse (network : Network) (port : UInt16) (j : Json) : Json :=
  let commands := (items j "commands").map fun c => (c.array?.getD []).filterMap Json.string?
  let (_, told) := commands.foldl (fun (s, told) words =>
    let (s, answer) := s.command words
    (s, answer :: told)) (ofRecord network port j, [])
  Report.ok (.array told.reverse)

/-- Starts the server, looks at its greeting, and interrupts it. -/
def rehearseServer (network : Network) (port : UInt16) (j : Json) : Json :=
  let (s, run) := (ofRecord network port j).runOnce (texts j "args")
  let isThere (name : String) : Json :=
    .bool ((s.files.exists? (s.files.place name)).toOption.getD false)
  let banner := match run.ending with
    | .serving _ _ => some Greeting.banner
    | _ => none
  let error := (errorLine run.ending).map s.abbreviate
  Report.ok (.object [("banner", .ofString? (banner.filter fun _ =>
      (network.dialFault? "localhost" true).isNone)),
    ("code", .ofNat (exitCode run.ending)), ("stderr", .ofString? error),
    ("host_key", isThere "host_key"), ("db", isThere "state.db")])

end Shell
end SshTunnels.Rehearsal
