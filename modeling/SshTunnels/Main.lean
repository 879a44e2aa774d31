import SshTunnels.CommandLine.Program
import SshTunnels.Store.Snapshot
import Std.Time.DateTime.Timestamp

/-!
# The command line on a real machine

Brings the files that a run may touch into the machine that the run is given, and brings what the
run changes back. The machine's ports are free and nobody answers on them: the transport that serves
agents is not part of this program, so a run that would serve says where.
-/

namespace SshTunnels
namespace Disk

/-- The path of a place. -/
def path (place : Place) : String := "/" ++ "/".intercalate place

/-- What lies at a place of the disk. -/
def read (place : Place) : IO (Option FileNode) := do
  if ← ((← IO.currentDir) / path place).isDir then return some (.directory 0o755)
  try return some (.file privateMode (.ofBytes (← IO.FS.readBinFile (path place)).toList))
  catch _ => return none

/-- The files at these paths and the directories on the way there. -/
def load (paths : List String) : IO FileSystem := do
  let mut files : FileSystem := { cwd := toString (← IO.currentDir) }
  for file in paths do
    let mut here : Place := []
    for step in Path.steps (Path.absolute files.cwd file) do
      here := files.descend here step
      if let some node ← read here then files := files.put here node
  return files

/-- Makes what is new and writes what has changed; a file is for its owner alone. -/
def save (before after : FileSystem) : IO Unit := do
  for (place, node) in after.nodes.reverse do
    if before.nodes.lookup place != some node then
      match node with
      | .directory _ => IO.FS.createDirAll (path place)
      | .file _ contents =>
        IO.FS.writeBinFile (path place) (ByteArray.mk contents.toBytes.toArray)
        IO.setAccessRights (path place) { user := { read := true, write := true } }

end Disk

/-- The variables of the environment that are set. -/
def currentEnvironment : IO Environment :=
  Program.variableNames.filterMapM fun name => do
    return (← IO.getEnv name).map (name, ·)

/-- The time. -/
def currentTime : IO Timestamp := do
  let nanos := (← Std.Time.Timestamp.now).toNanosecondsSinceUnixEpoch.val
  return ⟨nanos / 1000000000, (nanos % 1000000000).toNat⟩

/-- Runs the program once. -/
def runHere (args : List String) : IO UInt32 := do
  let environment ← currentEnvironment
  let files ← Disk.load (Program.paths environment args)
  let run := Program.run
    { files, environment
      now := ← currentTime
      random := Bytes.toNat (← IO.getRandomBytes 32).toList
      network := .up
      isTaken := fun _ _ => false
      endpoint := fun host _ =>
        ⟨.failed ⟨0⟩ (.system ((Network.up.dialFault? host false).getD .connectionRefused)), []⟩ }
    args
  Disk.save files run.files
  for line in run.output do IO.println line
  match run.ending with
  | .finished => return 0
  | .failed e => IO.eprintln ("Error: " ++ e.message); return 1
  | .panicked message => IO.eprintln message; return 101
  | .serving host port => IO.eprintln s!"ready to serve at {host}:{port}"; return 0

end SshTunnels

/-- The command line. -/
def main (args : List String) : IO UInt32 :=
  SshTunnels.runHere args
