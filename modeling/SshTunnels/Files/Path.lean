import SshTunnels.Text.Blank

/-!
# Paths

The text of a path, seen from a working directory: the names from the root down. Repeated slashes
and single dots name nothing, except that a slash or a dot at the end asks for a directory. Where
two dots lead depends on the directories that are there (see `FileSystem.place`), unless a path is
read as a text alone.
-/

namespace SshTunnels

/-- A place: the names from the root down. -/
abbrev Place := List String

namespace Path

/-- The path starts at the root. -/
def isAbsolute (path : String) : Bool :=
  path.toList.head? == some '/'

/-- The path as seen from a working directory. -/
def absolute (cwd path : String) : String :=
  if isAbsolute path then path else cwd ++ "/" ++ path

/-- A piece between slashes that names nothing. -/
def isIdle (piece : String) : Bool :=
  piece == "" || piece == "."

/-- The pieces between the slashes. -/
def pieces (path : String) : List String :=
  (Text.splitOn '/' path.toList).map String.ofList

/-- The names between the slashes, without empty ones and single dots. -/
def components (path : String) : List String :=
  (pieces path).filter fun piece => !isIdle piece

/-- The steps to take along an absolute path: its names, and what stands behind the last slash. -/
def steps (path : String) : List String :=
  (pieces path).dropLast.filter (fun piece => !isIdle piece) ++ (pieces path).getLast?.toList

/-- The place that the text of an absolute path names: two dots take back the name before them,
whether or not a directory has it. -/
def place (path : String) : Place :=
  (components path).foldl (fun place c => if c = ".." then place.dropLast else place ++ [c]) []

/-- A path from its end on, without the slashes and the single dots that it ends with. -/
def dropIdle : List Char → List Char
  | '/' :: upward => dropIdle upward
  | '.' :: '/' :: upward => dropIdle upward
  | upward => upward

/-- The path of the directory that holds the path's last name: empty if that is the working
directory, and none for the root and for the empty path. -/
def parent? (path : String) : Option String :=
  let bare := dropIdle path.toList.reverse
  if bare = [] then none
  else
    let upper := bare.dropWhile (· != '/')
    let parent := dropIdle upper
    some (if parent = [] ∧ upper ≠ [] then "/" else String.ofList parent.reverse)

example : (["/a/b/", "/a/b/.", "a/./b", "./b", "..", "/b", "/."].map parent?) =
    [some "/a", some "/a", some "a", some ".", some "", some "/", none] := by decide

end Path
end SshTunnels
