import SshTunnels.Text.Blank

/-!
# Verbosity

How much is logged. Logging is set up once, from a default level and a filter of the environment
that counts over it; later the level moves one step at a time between its ends.
-/

namespace SshTunnels

/-- The levels, from the tersest to the most talkative. -/
inductive LogLevel where
  | error
  | warn
  | info
  | debug
  | trace
  deriving DecidableEq, Repr

namespace LogLevel

/-- The level's name. -/
def name : LogLevel → String
  | .error => "error"
  | .warn => "warn"
  | .info => "info"
  | .debug => "debug"
  | .trace => "trace"

/-- The level that a text names, in any case, with blanks around it; `warning` is another name. -/
def ofText? (text : String) : Option LogLevel :=
  match String.ofList ((Text.trim text.toList).map Char.toLower) with
  | "error" => some .error
  | "warn" => some .warn
  | "warning" => some .warn
  | "info" => some .info
  | "debug" => some .debug
  | "trace" => some .trace
  | _ => none

/-- The place of the level, counted from the tersest. -/
def rank : LogLevel → Nat
  | .error => 0
  | .warn => 1
  | .info => 2
  | .debug => 3
  | .trace => 4

/-- One step more. -/
def louder : LogLevel → LogLevel
  | .error => .warn
  | .warn => .info
  | .info => .debug
  | .debug => .trace
  | .trace => .trace

/-- One step less. -/
def quieter : LogLevel → LogLevel
  | .error => .error
  | .warn => .error
  | .info => .warn
  | .debug => .info
  | .trace => .debug

end LogLevel

/-- The state of logging: the level that the steps count from, the greatest level that the installed
filter lets through, and the greatest level that was in force when filters were last gathered. -/
structure Verbosity where
  level : LogLevel
  filter : Option LogLevel
  max : Option LogLevel
  deriving DecidableEq, Repr

namespace Verbosity

/-- The level that a filter's word stands for, in any case, or its number; zero and `off` let
nothing through. -/
def filterLevel? (word : List Char) : Option (Option LogLevel) :=
  match String.ofList (word.map Char.toLower) with
  | "off" | "0" => some none
  | "error" | "1" => some (some .error)
  | "warn" | "2" => some (some .warn)
  | "info" | "3" => some (some .info)
  | "debug" | "4" => some (some .debug)
  | "trace" | "5" => some (some .trace)
  | _ => none

/-- The greater of two levels. -/
def maxLevel : Option LogLevel → Option LogLevel → Option LogLevel
  | none, b => b
  | a, none => a
  | some a, some b => some (if a.rank ≤ b.rank then b else a)

/-- The greatest level that one part of a filter lets through: a level, a target with its level, or
a target alone, which lets everything through. -/
def filterPart? (part : List Char) : Option (Option LogLevel) :=
  match filterLevel? part with
  | some level => some level
  | none =>
    let target := part.takeWhile (· != '=')
    let isTarget := target ≠ [] ∧ target.all fun c => c.isAlphanum || "_:-".toList.contains c
    if ¬ isTarget then none
    else
      match part.drop target.length with
      | [] => some (some .trace)
      | _ :: word => filterLevel? word

/-- The greatest level that a filter lets through; an empty filter lets errors through. The answer
`none` is that the text is no filter. -/
def filter? (text : String) : Option (Option LogLevel) :=
  match (Text.splitOn ',' text.toList).filter (· ≠ []) with
  | [] => some (some .error)
  | parts => parts.foldlM (fun greatest part => (filterPart? part).map (maxLevel greatest)) none

/-- The greatest level of the filter to set up: that of the environment, if it is one, counts over
the default level. -/
def filterFor (level : LogLevel) (environment : Option String) : Option LogLevel :=
  (environment.bind filter?).getD (some level)

/-- Sets up logging. -/
def init (defaultLevel : String) (environment : Option String) : Verbosity :=
  let level := (LogLevel.ofText? defaultLevel).getD .info
  let filter := filterFor level environment
  ⟨level, filter, filter⟩

/-- Setting up logging again installs nothing, but the filter that was offered is gathered with the
installed one until the next step. -/
def initAgain (defaultLevel : String) (environment : Option String) (v : Verbosity) : Verbosity :=
  let offered := filterFor ((LogLevel.ofText? defaultLevel).getD .info) environment
  { v with max := maxLevel v.filter offered }

/-- Moves the level, which sets the filter. -/
def adjust (step : LogLevel → LogLevel) (v : Verbosity) : Verbosity :=
  ⟨step v.level, some (step v.level), some (step v.level)⟩

end Verbosity
end SshTunnels
