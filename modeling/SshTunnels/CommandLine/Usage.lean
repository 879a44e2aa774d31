import SshTunnels.Text.Digits
import SshTunnels.Uuid

/-!
# Command lines

How a command line is read. A command has options, which are written `--name value` or
`--name=value`, flags without a value, positional arguments, and subcommands that have their own. An
option that is not on the command line takes its value from the environment.

The value of an option is looked at when the next argument has been recognised, or at the end of
its command. So an unknown argument is reported before a bad value in front of it, and whatever is
wrong with a subcommand before a bad value in front of that.
-/

namespace SshTunnels

/-- Why a command line is no order to the program, or why it asks for help instead. -/
inductive UsageFault where
  | unknownArgument
  | invalidValue
  | valueValidation
  | missingRequiredArgument
  | argumentConflict
  | invalidSubcommand
  | tooManyValues
  | missingSubcommand
  | displayHelp
  | displayHelpForMissing (command : String)
  | displayVersion
  deriving DecidableEq, Repr

/-- The name of the fault. -/
def UsageFault.name : UsageFault → String
  | .unknownArgument => "UnknownArgument"
  | .invalidValue => "InvalidValue"
  | .valueValidation => "ValueValidation"
  | .missingRequiredArgument => "MissingRequiredArgument"
  | .argumentConflict => "ArgumentConflict"
  | .invalidSubcommand => "InvalidSubcommand"
  | .tooManyValues => "TooManyValues"
  | .missingSubcommand => "MissingSubcommand"
  | .displayHelp => "DisplayHelp"
  | .displayHelpForMissing _ => "DisplayHelpOnMissingArgumentOrSubcommand"
  | .displayVersion => "DisplayVersion"

/-- What the value of an argument has to be. -/
inductive ValueKind where
  | text
  | path
  | port
  | seconds
  | uuid
  | choice (words : List String)
  deriving DecidableEq, Repr

/-- A port between 0 and 65535. -/
def portOfText? (text : String) : Option UInt16 :=
  ((Text.integer? text).filter fun n => 0 ≤ n && n ≤ 65535).map fun n => UInt16.ofNat n.toNat

/-- A number of seconds below two to the 64th. -/
def secondsOfText? (text : String) : Option Nat :=
  (Text.natural? text).filter (· < UInt64.size)

/-- What is wrong with a value. -/
def ValueKind.fault? : ValueKind → String → Option UsageFault
  | .text, _ => none
  | .path, value => if value.isEmpty then some .invalidValue else none
  | .port, value => if (portOfText? value).isSome then none else some .valueValidation
  | .seconds, value => if (secondsOfText? value).isSome then none else some .valueValidation
  | .uuid, value => if (Uuid.ofString? value).isSome then none else some .valueValidation
  | .choice words, value => if words.contains value then none else some .invalidValue

/-- An option or a flag. The value of a flag is whether it is given. -/
structure OptionSpec where
  name : String
  kind : ValueKind := .text
  isFlag : Bool := false
  env : Option String := none
  isRequired : Bool := false
  deriving DecidableEq, Repr

/-- A command: its options, its positional arguments, which are all required, and its
subcommands. -/
inductive CommandSpec where
  | mk (name : String) (options : List OptionSpec) (positionals : List (String × ValueKind))
      (needsSubcommand hasVersion : Bool) (subcommands : List CommandSpec)

namespace CommandSpec

def name : CommandSpec → String
  | mk name .. => name

def options : CommandSpec → List OptionSpec
  | mk _ options .. => options

def positionals : CommandSpec → List (String × ValueKind)
  | mk _ _ positionals .. => positionals

def needsSubcommand : CommandSpec → Bool
  | mk _ _ _ needs .. => needs

def hasVersion : CommandSpec → Bool
  | mk _ _ _ _ version _ => version

def subcommands : CommandSpec → List CommandSpec
  | mk _ _ _ _ _ subcommands => subcommands

/-- The subcommand of a name. -/
def subcommand? (c : CommandSpec) (name : String) : Option CommandSpec :=
  c.subcommands.find? (·.name == name)

/-- The command that a list of names leads to from here. -/
def descend? : CommandSpec → List String → Option CommandSpec
  | c, [] => some c
  | c, name :: rest => (c.subcommand? name).bind fun sub => descend? sub rest

end CommandSpec

/-- Where a value comes from; the command line is stronger than the environment. -/
inductive ValueSource where
  | environment
  | commandLine
  deriving DecidableEq, Repr

/-- The values that one command was given, and its subcommand with its own. -/
inductive ParsedCommand where
  | mk (name : String) (values : List (String × String × ValueSource))
      (subcommand : Option ParsedCommand)

/-- An argument whose value has still to be looked at; an option may still wait for its value. -/
structure PendingArgument where
  name : String
  kind : ValueKind
  isOption : Bool
  value : Option String

/-- A command that is being read. -/
structure CommandReader where
  spec : CommandSpec
  values : List (String × String × ValueSource) := []
  pending : Option PendingArgument := none
  positional : Nat := 0
  isEscaped : Bool := false

namespace CommandReader

/-- Keeps a value, unless there is one already or it is a bad one. -/
def keep (r : CommandReader) (name value : String) (kind : ValueKind) (source : ValueSource) :
    Except UsageFault CommandReader :=
  if r.values.any (·.1 == name) then .error .argumentConflict
  else match kind.fault? value with
    | some fault => .error fault
    | none => .ok { r with values := r.values ++ [(name, value, source)] }

/-- Looks at the value that was read last. -/
def settle (r : CommandReader) : Except UsageFault CommandReader :=
  match r.pending with
  | none => .ok r
  | some p =>
    match p.value with
    | none => .error .invalidValue
    | some value => keep { r with pending := none } p.name value p.kind .commandLine

/-- What reading one argument leads to. -/
inductive Progress where
  | further (reader : CommandReader)
  | subcommand (spec : CommandSpec)
  | help

/-- Reads `--name` or `--name=value`. -/
def readLong (r : CommandReader) (name : String) (value : Option String) :
    Except UsageFault Progress :=
  if name = "help" ∨ (name = "version" ∧ r.spec.hasVersion) then
    if value.isSome then .error .tooManyValues
    else do
      let _ ← r.settle
      .error (if name = "help" then .displayHelp else .displayVersion)
  else match r.spec.options.find? (·.name == name) with
    | none => .error .unknownArgument
    | some o =>
      if o.isFlag then
        if value.isSome then .error .tooManyValues
        else do return .further (← (← r.settle).keep name "true" o.kind .commandLine)
      else do
        let r ← r.settle
        let r := { r with pending := some ⟨name, o.kind, true, value⟩ }
        if value.isSome then return .further (← r.settle) else return .further r

/-- Reads `-x`, of which there are few. -/
def readShort (r : CommandReader) (letter : Char) : Except UsageFault Progress :=
  if letter = 'h' ∨ (letter = 'V' ∧ r.spec.hasVersion) then do
    let _ ← r.settle
    .error (if letter = 'h' then .displayHelp else .displayVersion)
  else .error .unknownArgument

/-- Reads a word that is no option. -/
def readPositional (r : CommandReader) (word : String) : Except UsageFault Progress :=
  match r.spec.positionals[r.positional]? with
  | some (name, kind) => do
    let r ← r.settle
    return .further { r with
      pending := some ⟨name, kind, false, some word⟩, positional := r.positional + 1 }
  | none =>
    let namesCommand :=
      (r.spec.subcommand? word).isSome || (word == "help" && !r.spec.subcommands.isEmpty)
    if r.isEscaped && namesCommand then .error .unknownArgument
    else .error (if r.spec.subcommands.isEmpty then .unknownArgument else .invalidSubcommand)

/-- Reads a word that may stand for itself. -/
def readPlain (r : CommandReader) (word : String) : Except UsageFault Progress :=
  match r.pending with
  | some p =>
    if p.isOption ∧ p.value.isNone then
      .ok (.further { r with pending := some { p with value := some word } })
    else r.readPositional word
  | none => r.readPositional word

/-- An option is waiting for its value. -/
def isWaiting (r : CommandReader) : Bool :=
  r.pending.any fun p => p.isOption && p.value.isNone

/-- Reads one argument. -/
def read (r : CommandReader) (word : String) : Except UsageFault Progress :=
  if r.isEscaped then r.readPositional word
  else match if r.isWaiting then none else r.spec.subcommand? word with
    | some sub => .ok (.subcommand sub)
    | none =>
      if !r.isWaiting && word == "help" && !r.spec.subcommands.isEmpty then .ok .help
      else match word.toList with
        | ['-', '-'] => .ok (.further { r with isEscaped := true })
        | '-' :: '-' :: rest =>
          let name := rest.takeWhile (· != '=')
          let value := match rest.drop name.length with
            | _ :: value => some (String.ofList value)
            | [] => none
          r.readLong (String.ofList name) value
        | '-' :: letter :: _ => r.readShort letter
        | _ => r.readPlain word

/-- Takes from the environment what the command line leaves open. -/
def addEnvironment (r : CommandReader) (env : List (String × String)) :
    Except UsageFault CommandReader :=
  r.spec.options.foldlM (fun r o =>
    match o.env.bind fun name => env.lookup name with
    | none => .ok r
    | some value => if r.values.any (·.1 == o.name) then .ok r
        else r.keep o.name value (if o.isFlag then .choice ["true", "false"] else o.kind)
          .environment) r

/-- Ends a command: its last value, the environment, and what must not be missing. -/
def finish (r : CommandReader) (env : List (String × String)) (sub : Option ParsedCommand) :
    Except UsageFault ParsedCommand := do
  let r ← r.settle
  let r ← r.addEnvironment env
  if r.spec.needsSubcommand && sub.isNone then
    .error (if r.values.isEmpty then .displayHelpForMissing r.spec.name else .missingSubcommand)
  let required := (r.spec.options.filter (·.isRequired)).map (·.name) ++
    r.spec.positionals.map (·.1)
  if required.any fun name => !r.values.any (·.1 == name) then .error .missingRequiredArgument
  return .mk r.spec.name r.values sub

/-- Reads the arguments of a command. -/
def run (env : List (String × String)) : List String → CommandReader →
    Except UsageFault ParsedCommand
  | [], r => r.finish env none
  | word :: rest, r => do
    match ← r.read word with
    | .further r => run env rest r
    | .subcommand spec => do
      let sub ← run env rest { spec }
      r.finish env (some sub)
    | .help =>
      let names := if rest.head? = some "help" then [] else rest
      .error (if (r.spec.descend? names).isSome then .displayHelp else .invalidSubcommand)

end CommandReader

namespace ParsedCommand

def values : ParsedCommand → List (String × String × ValueSource)
  | mk _ values _ => values

def subcommand? : ParsedCommand → Option ParsedCommand
  | mk _ _ sub => sub

def name : ParsedCommand → String
  | mk name .. => name

/-- The value of an argument. -/
def get? (p : ParsedCommand) (name : String) : Option String :=
  (p.values.lookup name).map (·.1)

/-- The flag is given. -/
def hasFlag (p : ParsedCommand) (name : String) : Bool :=
  p.get? name == some "true"

/-- The names of the subcommands, outermost first. -/
def path : ParsedCommand → List String
  | mk _ _ none => []
  | mk _ _ (some sub) => sub.name :: sub.path

/-- The innermost command. -/
def innermost : ParsedCommand → ParsedCommand
  | mk name values none => mk name values none
  | mk _ _ (some sub) => sub.innermost

/-- The value of an option that every level accepts: the innermost level's, unless an outer level's
comes from a stronger source. -/
def globalValue (option : String) : ParsedCommand → Option (String × ValueSource) →
    Option (String × ValueSource)
  | mk _ values sub, outer =>
    let here := match outer, values.lookup option with
      | outer, none => outer
      | some (v, .commandLine), some (_, .environment) => some (v, .commandLine)
      | _, some found => some found
    match sub with
    | none => here
    | some sub => sub.globalValue option here

end ParsedCommand
end SshTunnels
