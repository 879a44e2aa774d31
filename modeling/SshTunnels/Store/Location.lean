import SshTunnels.Files.Path
import SshTunnels.Text.Percent

/-!
# Where the database lies

A database is given as a URL or as the path of a file. A path is made into a URL, from which the
path is read back when the database is opened; so every byte of the path has to survive the way
there and back.
-/

namespace SshTunnels

/-- Variables of the environment. -/
abbrev Environment := List (String × String)

/-- What a database URL asks for. -/
structure DatabaseAddress where
  path : String
  inMemory : Bool := false
  readOnly : Bool := false
  create : Bool := false
  deriving DecidableEq, Repr

namespace DatabaseAddress

/-- The variable that names the database. -/
def environmentName : String := "TB_DB_URL"

/-- The value is a URL; any other value is a path. -/
def isUrl (value : String) : Bool :=
  "sqlite:".toList.isPrefixOf value.toList

/-- The URL of the file at a path. -/
def url (cwd path : String) : String :=
  let names := Path.components (Path.absolute cwd path)
  let text := names.map fun n => "/" ++ String.ofList (Text.percentEncode (Bytes.ofString n))
  "sqlite://" ++ if text.isEmpty then "/" else String.join text

/-- The text behind any number of these marks. -/
def dropMarks (mark : List Char) : (fuel : Nat) → List Char → List Char
  | 0, cs => cs
  | fuel + 1, cs =>
    if mark.isPrefixOf cs then dropMarks mark fuel (cs.drop mark.length) else cs

/-- A query's name or value: plus signs stand for blanks. -/
def queryText (cs : List Char) : String :=
  (Bytes.toString? (Text.percentDecode (cs.map fun c => if c = '+' then ' ' else c))).getD ""

/-- What a query's setting changes. -/
def applySetting (a : DatabaseAddress) (name value : String) : Option DatabaseAddress :=
  match name, value with
  | "mode", "ro" => some { a with readOnly := true }
  | "mode", "rw" => some a
  | "mode", "rwc" => some { a with create := true }
  | "mode", "memory" => some { a with inMemory := true }
  | "cache", "private" | "cache", "shared" => some a
  | "immutable", "true" | "immutable", "1" | "immutable", "false" | "immutable", "0" => some a
  | _, _ => none

/-- Reads the settings of a query. -/
def readSettings (a : DatabaseAddress) (query : List Char) : Option DatabaseAddress :=
  ((Text.splitOn '&' query).filter (· ≠ [])).foldlM (fun a setting =>
    let name := setting.takeWhile (· != '=')
    applySetting a (queryText name) (queryText (setting.drop (name.length + 1)))) a

/-- What a URL asks for. A database without a name lives in memory. -/
def ofUrl? (url : String) : Option DatabaseAddress := do
  let cs := url.toList
  let cs := dropMarks "sqlite://".toList cs.length cs
  let cs := dropMarks "sqlite:".toList cs.length cs
  let name := cs.takeWhile (· != '?')
  let path ← Bytes.toString? (Text.percentDecode name)
  readSettings { path, inMemory := path = ":memory:" || path = "" } (cs.drop (name.length + 1))

/-- The user's home directory. -/
def home (env : Environment) : String :=
  match env.lookup "HOME" with
  | some dir => if dir.isEmpty then "/root" else dir
  | none => "/root"

/-- A path below a directory. -/
def below (dir name : String) : String :=
  if dir.toList.getLast? = some '/' then dir ++ name else dir ++ "/" ++ name

/-- The path of the database when nothing names one. -/
def defaultPath (env : Environment) : String :=
  let states := match env.lookup "XDG_STATE_HOME" with
    | some dir => if Path.isAbsolute dir then dir else below (home env) ".local/state"
    | none => below (home env) ".local/state"
  below states "tunnelbridge/state.db"

/-- The value that names the database: the given one, else the environment's. -/
def named? (given : Option String) (env : Environment) : Option String :=
  given <|> env.lookup environmentName

/-- Where the database will lie, for people to read. -/
def display (given : Option String) (env : Environment) : String :=
  (named? given env).getD (defaultPath env)

end DatabaseAddress
end SshTunnels
