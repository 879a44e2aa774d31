import Mathlib.Data.List.TakeWhile
import SshTunnels.Proofs.Key.Wire
import SshTunnels.Proofs.Text.Percent
import SshTunnels.Proofs.Text.Pieces
import SshTunnels.Store.Location

/-!
# Addresses of database files

The URL that is made of a path asks for the absolute path that has the same names, and for nothing
else: it has no settings, whatever characters the path has (`ofUrl?_url`).
-/

namespace SshTunnels

theorem Bytes.ofString_empty : Bytes.ofString "" = [] := by
  rw [Bytes.ofString_eq]
  rfl

theorem Bytes.ofString_append (a b : String) :
    Bytes.ofString (a ++ b) = Bytes.ofString a ++ Bytes.ofString b := by
  rw [Bytes.ofString_eq, Bytes.ofString_eq, Bytes.ofString_eq, String.toByteArray_append,
    ByteArray.data_append, Array.toList_append]

namespace Path

/-- The absolute path with these names. -/
def ofNames (names : List String) : String :=
  if names.isEmpty then "/" else String.join (names.map ("/" ++ ·))

/-- It can be the name of something: it holds no slash, and it is neither empty nor a single dot. -/
def IsName (name : String) : Prop :=
  '/' ∉ name.toList ∧ isIdle name = false

variable {name : String} {names : List String}

theorem isName_of_mem_components {path : String} (h : name ∈ components path) : IsName name := by
  obtain ⟨hpiece, hidle⟩ := List.mem_filter.mp h
  obtain ⟨cs, hcs, rfl⟩ := List.mem_map.mp hpiece
  refine ⟨?_, by simpa using hidle⟩
  rw [String.toList_ofList]
  exact Text.not_mem_of_mem_splitOn hcs

theorem toList_join_slashed (names : List String) :
    (String.join (names.map ("/" ++ ·))).toList = names.flatMap fun n => '/' :: n.toList := by
  rw [String.toList_join, List.flatMap_map]
  exact List.flatMap_congr fun n _ => String.toList_append

theorem isAbsolute_ofNames (names : List String) : isAbsolute (ofNames names) = true := by
  cases names with
  | nil => rfl
  | cons name names =>
    rw [ofNames, List.isEmpty_cons, if_neg Bool.false_ne_true, isAbsolute, toList_join_slashed]
    rfl

theorem pieces_ofNames (h : ∀ n ∈ names, IsName n) (hne : names ≠ []) :
    pieces (ofNames names) = "" :: names := by
  have hempty : names.isEmpty = false := by simpa using hne
  have hslashed : names.flatMap (fun n => '/' :: n.toList) =
      (names.map String.toList).flatMap ('/' :: ·) := (List.flatMap_map ..).symm
  rw [pieces, ofNames, hempty, if_neg Bool.false_ne_true, toList_join_slashed, hslashed,
    Text.splitOn_flatMap (by
      intro p hp
      obtain ⟨n, hn, rfl⟩ := List.mem_map.mp hp
      exact (h n hn).1),
    List.map_cons, List.map_map]
  refine congrArg₂ List.cons rfl ?_
  exact (List.map_congr_left fun n _ => String.ofList_toList).trans (List.map_id names)

/-- The names of a path are those that it was made of. -/
theorem components_ofNames (h : ∀ n ∈ names, IsName n) : components (ofNames names) = names := by
  by_cases hne : names = []
  · subst hne
    decide
  · rw [components, pieces_ofNames h hne, List.filter_cons_of_neg (by decide),
      List.filter_eq_self.mpr]
    intro n hn
    rw [(h n hn).2]
    rfl

end Path

namespace DatabaseAddress

/-! ## Reading a URL -/

theorem dropMarks_of_not_prefix {mark cs : List Char} (h : mark.isPrefixOf cs = false)
    (fuel : Nat) : dropMarks mark fuel cs = cs := by
  cases fuel with
  | zero => rfl
  | succ fuel => rw [dropMarks, if_neg (by simp [h])]

theorem dropMarks_append (mark cs : List Char) (fuel : Nat) :
    dropMarks mark (fuel + 1) (mark ++ cs) = dropMarks mark fuel cs := by
  rw [dropMarks, if_pos (by simp), List.drop_left]

/-- Names as they stand in a URL, with a slash before each. -/
def encodeNames (names : List String) : List Char :=
  if names.isEmpty then ['/']
  else names.flatMap fun n => '/' :: Text.percentEncode (Bytes.ofString n)

variable {names : List String}

theorem toList_url (cwd path : String) : (url cwd path).toList =
    "sqlite://".toList ++ encodeNames (Path.components (Path.absolute cwd path)) := by
  have hempty (names : List String) (f : String → String) :
      (names.map f).isEmpty = names.isEmpty := by cases names <;> rfl
  rw [url, String.toList_append, encodeNames, hempty]
  split
  · rfl
  · rw [String.toList_join, List.flatMap_map]
    congr 1
    refine List.flatMap_congr fun n _ => ?_
    rw [String.toList_append, String.toList_ofList, String.toList_ofList]
    rfl

theorem head?_encodeNames (names : List String) : (encodeNames names).head? = some '/' := by
  cases names <;> rfl

theorem not_mem_encodeNames (names : List String) : '?' ∉ encodeNames names := by
  rw [encodeNames]
  split
  · decide
  · intro h
    obtain ⟨n, -, hn⟩ := List.mem_flatMap.mp h
    rcases List.mem_cons.mp hn with heq | hmem
    · exact absurd heq (by decide)
    · exact (Text.ne_of_mem_percentEncode hmem).2 rfl

/-- The bytes that the names stand for are those of the path. -/
theorem percentDecode_encodeNames (names : List String) :
    Text.percentDecode (encodeNames names) = Bytes.ofString (Path.ofNames names) := by
  have hslashed (names : List String) : Text.percentDecode
      (names.flatMap fun n => '/' :: Text.percentEncode (Bytes.ofString n)) =
        Bytes.ofString (String.join (names.map ("/" ++ ·))) := by
    induction names with
    | nil => rw [List.flatMap_nil, Text.percentDecode_nil, List.map_nil, String.join_nil,
        Bytes.ofString_empty]
    | cons n names ih =>
      rw [List.flatMap_cons, List.cons_append, Text.percentDecode_cons (by decide),
        Text.percentDecode_percentEncode, ih, List.map_cons, String.join_cons,
        Bytes.ofString_append, Bytes.ofString_append, List.append_assoc]
      rfl
  rw [encodeNames, Path.ofNames]
  split
  · rw [Text.percentDecode_cons (by decide), Text.percentDecode_nil, List.append_nil]
    exact congrArg Bytes.ofString (by decide)
  · exact hslashed names

/-- A path that starts at the root is not the name of a database in memory. -/
theorem ne_memory {path : String} (h : Path.isAbsolute path = true) :
    path ≠ ":memory:" ∧ path ≠ "" := by
  constructor
  · rintro rfl
    exact absurd h (by decide)
  · rintro rfl
    exact absurd h (by decide)

/-- The URL of a path asks for the absolute path with the same names, and for nothing else. -/
theorem ofUrl?_url (cwd path : String) : ofUrl? (url cwd path) =
    some { path := Path.ofNames (Path.components (Path.absolute cwd path)) } := by
  generalize hnames : Path.components (Path.absolute cwd path) = names
  have hmarks (mark : List Char) (hmark : mark.head? = some 's') (fuel : Nat) :
      dropMarks mark fuel (encodeNames names) = encodeNames names := by
    refine dropMarks_of_not_prefix (Bool.eq_false_iff.mpr fun h => ?_) fuel
    obtain ⟨rest, heq⟩ := List.isPrefixOf_iff_prefix.mp h
    have hhead := head?_encodeNames names
    rw [← heq, List.head?_append, hmark] at hhead
    cases hhead
  have hquery : (encodeNames names).takeWhile (· != '?') = encodeNames names := by
    refine List.takeWhile_eq_self_iff.mpr fun c hc => ?_
    rw [bne_iff_ne]
    rintro rfl
    exact not_mem_encodeNames names hc
  have hlength : (url cwd path).toList.length = (8 + (encodeNames names).length) + 1 := by
    rw [toList_url, hnames, List.length_append]
    exact Nat.add_right_comm 8 1 _
  obtain ⟨hmemory, hempty⟩ := ne_memory (Path.isAbsolute_ofNames names)
  rw [ofUrl?]
  simp only [hlength]
  rw [toList_url, hnames, dropMarks_append, hmarks _ rfl, hmarks _ rfl, hquery,
    percentDecode_encodeNames, Bytes.toString?_ofString, Option.bind_eq_bind, Option.bind_some,
    List.drop_of_length_le (Nat.le_succ _)]
  simp [readSettings, Text.splitOn, Text.splitOn.go, hmemory, hempty]

end DatabaseAddress
end SshTunnels
