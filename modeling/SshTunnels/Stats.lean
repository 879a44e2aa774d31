import SshTunnels.Text.Quoted
import SshTunnels.Uuid

/-!
# Statistics

Counters, gauges and events. A handle carries a prefix for metric names and tags for every record;
deriving a handle never changes the one it comes from. Records are kept in the order they are made.
-/

namespace SshTunnels

/-- Tags by key, in the order of their keys, each key once. -/
structure Tags where
  entries : List (String × String)
  deriving DecidableEq, Repr

namespace Tags

/-- No tags. -/
def empty : Tags := ⟨[]⟩

instance : Inhabited Tags := ⟨empty⟩

/-- The entries with a key's value set. -/
def insertEntry (key value : String) : List (String × String) → List (String × String)
  | [] => [(key, value)]
  | (k, v) :: rest =>
    if key < k then (key, value) :: (k, v) :: rest
    else if key = k then (key, value) :: rest
    else (k, v) :: insertEntry key value rest

/-- The tags with a key's value set. -/
def insert (tags : Tags) (key value : String) : Tags :=
  ⟨insertEntry key value tags.entries⟩

/-- The tags of a list; the last value of a key counts. -/
def ofList (entries : List (String × String)) : Tags :=
  entries.foldl (fun tags e => tags.insert e.1 e.2) empty

/-- Both sets of tags; where they disagree the second counts. -/
def merge (tags extra : Tags) : Tags :=
  extra.entries.foldl (fun tags e => tags.insert e.1 e.2) tags

/-- The value of a key. -/
def get? (tags : Tags) (key : String) : Option String :=
  tags.entries.lookup key

/-- The tags without a key. -/
def erase (tags : Tags) (key : String) : Tags :=
  ⟨tags.entries.filter (·.1 != key)⟩

/-- The tags in braces, keys and values quoted. -/
def text (tags : Tags) : String :=
  "\x7b" ++
    ", ".intercalate (tags.entries.map fun (k, v) => Text.quoted k ++ ": " ++ Text.quoted v) ++
    "\x7d"

end Tags

/-- One thing that was measured or that happened. -/
inductive StatRecord where
  | count (name : String) (value : Int) (tags : Tags)
  | gauge (name : String) (value : Float) (tags : Tags)
  | event (title : String) (text : String) (tags : Tags)
  deriving Repr

namespace StatRecord

/-- The sum of all counts of a name. -/
def total (records : List StatRecord) (name : String) : Int :=
  records.foldl (fun sum record => match record with
    | .count n value _ => if n = name then sum + value else sum
    | _ => sum) 0

/-- The last value of a gauge. -/
def lastGauge? (records : List StatRecord) (name : String) : Option Float :=
  records.reverse.findSome? fun
    | .gauge n value _ => if n = name then some value else none
    | _ => none

/-- The titles of the events. -/
def eventTitles (records : List StatRecord) : List String :=
  records.filterMap fun
    | .event title _ _ => some title
    | _ => none

end StatRecord

/-- A prefix for metric names and tags for every record. -/
structure StatsHandle where
  scope : String
  tags : Tags
  deriving DecidableEq, Repr

namespace StatsHandle

/-- The handle to start with: no prefix, no tags. -/
def root : StatsHandle := ⟨"", .empty⟩

instance : Inhabited StatsHandle := ⟨root⟩

/-- A name behind the prefix, if there is one. -/
def qualify (h : StatsHandle) (name : String) : String :=
  if h.scope.isEmpty then name else h.scope ++ "." ++ name

/-- The handle with a further segment in its prefix. -/
def withScope (h : StatsHandle) (segment : String) : StatsHandle :=
  { h with scope := h.qualify segment }

/-- The handle with further tags. -/
def withTags (h : StatsHandle) (extra : Tags) : StatsHandle :=
  { h with tags := h.tags.merge extra }

/-- A count. -/
def count (h : StatsHandle) (name : String) (value : Int) : StatRecord :=
  .count (h.qualify name) value h.tags

/-- A gauge. -/
def gauge (h : StatsHandle) (name : String) (value : Float) : StatRecord :=
  .gauge (h.qualify name) value h.tags

/-- An event; its title has no prefix, and its own tags count over the handle's. -/
def event (h : StatsHandle) (title text : String) (extra : Tags) : StatRecord :=
  .event title text (h.tags.merge extra)

/-- The handle for people to read. -/
def text (h : StatsHandle) : String :=
  "Stats \x7b prefix: " ++ Text.quoted h.scope ++ ", tags: " ++ h.tags.text ++ " \x7d"

end StatsHandle
end SshTunnels
