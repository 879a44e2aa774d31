import Mathlib.Logic.Relation
import SshTunnels.Proofs.Files.Places
import SshTunnels.Proofs.Store.Addresses

/-!
# The file that the URL of a path asks for

The URL of a path asks for the file that the path names (`url_asksForFile`). On the way slashes and
single dots that name nothing are taken out of the absolute path (`Tidies`), and nothing else is. So
the path that comes back leads wherever the first one leads, and meets the same faults. Only if the
first one ends with a slash or a lone dot it can fail alone, since that asks for a directory.
-/

namespace SshTunnels

namespace Path

open Relation (ReflTransGen)

/-- A slash or a dot that names nothing is taken out of a path. -/
inductive Tidies : List Char → List Char → Prop where
  /-- Of two slashes beside each other one goes. -/
  | slash (before after : List Char) :
      Tidies (before ++ '/' :: '/' :: after) (before ++ '/' :: after)
  /-- A dot between two slashes goes with one of them. -/
  | dot (before after : List Char) :
      Tidies (before ++ '/' :: '.' :: '/' :: after) (before ++ '/' :: after)
  /-- A dot behind the last slash goes. -/
  | lastDot (before : List Char) : Tidies (before ++ ['/', '.']) (before ++ ['/'])
  /-- A slash at the end goes, unless it is the root. -/
  | lastSlash {before : List Char} : before ≠ [] → Tidies (before ++ ['/']) before

/-- The end of the path asks for a directory. -/
def AsksForDirectory (path : String) : Prop :=
  ∃ piece, (pieces path).getLast? = some piece ∧ isIdle piece = true

/-- Seen from this working directory, the other path names the same file. -/
structure SameFile (cwd path other : String) : Prop where
  /-- The other path starts at the root. -/
  isAbsolute : isAbsolute other = true
  /-- It is the absolute path but for slashes and single dots that name nothing. -/
  tidies : ReflTransGen Tidies (absolute cwd path).toList other.toList
  /-- Wherever the path leads, the other one leads, taken step by step or read as a text alone. -/
  leads {fs : FileSystem} {found : Option FileNode} : fs.cwd = cwd →
    fs.find (fs.place path) = .ok found →
      fs.place other = fs.place path ∧ Path.place other = fs.place path
  /-- The same is in the way of both, unless the path asks for a directory. -/
  leads_file {fs : FileSystem} : fs.cwd = cwd → ¬ AsksForDirectory (absolute cwd path) →
    fs.place other = fs.place path

variable {cwd path piece : String} {names : List String}

theorem isAbsolute_absolute (h : isAbsolute cwd = true) (path : String) :
    isAbsolute (absolute cwd path) = true := by
  rw [absolute]
  split
  · assumption
  · rw [isAbsolute, beq_iff_eq] at h ⊢
    rw [String.toList_append, String.toList_append, List.head?_append, List.head?_append, h]
    rfl

/-! ## Spelling -/

/-- Names with a slash before each. -/
def slashed (names : List String) : List Char :=
  names.flatMap fun n => '/' :: n.toList

theorem slashed_cons (name : String) (names : List String) :
    slashed (name :: names) = '/' :: (name.toList ++ slashed names) :=
  List.flatMap_cons

/-- An absolute path is its pieces, without the empty one before its first slash. -/
theorem exists_pieces (h : isAbsolute path = true) :
    ∃ behind, pieces path = "" :: behind ∧ behind ≠ [] ∧ path.toList = slashed behind := by
  rw [isAbsolute, beq_iff_eq, List.head?_eq_some_iff] at h
  obtain ⟨rest, hpath⟩ := h
  refine ⟨(Text.splitOn '/' rest).map String.ofList, ?_, ?_, ?_⟩
  · rw [pieces, hpath]
    rfl
  · intro hnil
    have hslash := Text.flatMap_splitOn '/' rest
    rw [List.map_eq_nil_iff.mp hnil] at hslash
    cases hslash
  · rw [slashed, List.flatMap_map, hpath, ← Text.flatMap_splitOn]
    exact List.flatMap_congr fun p _ => by rw [String.toList_ofList]

/-- A piece that names nothing goes if others follow. -/
theorem tidies_of_isIdle (hidle : isIdle piece = true) (before : List Char) (hne : names ≠ []) :
    Tidies (before ++ slashed (piece :: names)) (before ++ slashed names) := by
  obtain ⟨name, rest, rfl⟩ := List.exists_cons_of_ne_nil hne
  rw [slashed_cons, slashed_cons]
  rw [isIdle, Bool.or_eq_true, beq_iff_eq, beq_iff_eq] at hidle
  rcases hidle with rfl | rfl
  · exact .slash before _
  · exact .dot before _

/-- Of a last piece that names nothing the slash is left. -/
theorem tidies_last_of_isIdle (hidle : isIdle piece = true) (before : List Char) :
    ReflTransGen Tidies (before ++ slashed [piece]) (before ++ ['/']) := by
  rw [isIdle, Bool.or_eq_true, beq_iff_eq, beq_iff_eq] at hidle
  rcases hidle with rfl | rfl
  · exact .refl
  · exact .single (.lastDot before)

/-- Behind other text no piece is left that names nothing. -/
theorem tidies_behind (before : List Char) (hbefore : before ≠ []) (names : List String) :
    ReflTransGen Tidies (before ++ slashed names)
      (before ++ slashed (names.filter fun n => !isIdle n)) := by
  induction names generalizing before with
  | nil => exact .refl
  | cons name names ih =>
    cases hidle : isIdle name with
    | false =>
      rw [List.filter_cons_of_pos (by rw [hidle]; rfl), slashed_cons, slashed_cons]
      simpa only [List.append_assoc, List.cons_append] using
        ih (before ++ '/' :: name.toList) (by simp)
    | true =>
      rw [List.filter_cons_of_neg (by rw [hidle]; decide)]
      by_cases hnames : names = []
      · subst hnames
        refine (tidies_last_of_isIdle hidle before).trans (.single ?_)
        rw [List.filter_nil, slashed, List.flatMap_nil, List.append_nil]
        exact .lastSlash hbefore
      · exact (ih before hbefore).head (tidies_of_isIdle hidle before hnames)

theorem toList_ofNames (names : List String) :
    (ofNames names).toList = if names = [] then ['/'] else slashed names := by
  cases names with
  | nil => rfl
  | cons name names => exact toList_join_slashed (name :: names)

/-- An absolute path without what names nothing is that of the names that are left. -/
theorem tidies_ofNames (hne : names ≠ []) : ReflTransGen Tidies (slashed names)
    (ofNames (names.filter fun n => !isIdle n)).toList := by
  induction names with
  | nil => exact absurd rfl hne
  | cons name names ih =>
    cases hidle : isIdle name with
    | false =>
      rw [List.filter_cons_of_pos (by rw [hidle]; rfl), toList_ofNames,
        if_neg (List.cons_ne_nil _ _), slashed_cons, slashed_cons]
      exact tidies_behind ('/' :: name.toList) (List.cons_ne_nil _ _) names
    | true =>
      rw [List.filter_cons_of_neg (by rw [hidle]; decide)]
      by_cases hnames : names = []
      · subst hnames
        exact tidies_last_of_isIdle hidle []
      · exact (ih hnames).head (tidies_of_isIdle hidle [] hnames)

/-- The absolute path of the same names is spelled as the path is. -/
theorem tidies_components (h : isAbsolute path = true) :
    ReflTransGen Tidies path.toList (ofNames (components path)).toList := by
  obtain ⟨behind, hpieces, hne, hpath⟩ := exists_pieces h
  rw [components, hpieces, List.filter_cons_of_neg (by decide), hpath]
  exact tidies_ofNames hne

/-! ## Steps -/

theorem steps_ofNames (h : ∀ n ∈ names, IsName n) (hne : names ≠ []) :
    steps (ofNames names) = names := by
  obtain ⟨init, last, rfl⟩ : ∃ init last, names = init ++ [last] :=
    ⟨_, _, (List.dropLast_append_getLast hne).symm⟩
  have hinit : init.filter (fun n => !isIdle n) = init :=
    List.filter_eq_self.mpr fun n hn => by rw [(h n (List.mem_append_left _ hn)).2]; rfl
  rw [steps, pieces_ofNames h hne, ← List.cons_append, List.dropLast_concat, List.getLast?_concat,
    List.filter_cons_of_neg (by decide), hinit]
  rfl

/-- The steps of a path that does not ask for a directory are its names. -/
theorem steps_eq_components (h : ¬ AsksForDirectory path) : steps path = components path := by
  rw [FileSystem.components_eq, steps, List.filter_append, List.filter_filter]
  simp only [Bool.and_self]
  congr 1
  cases hlast : (pieces path).getLast? with
  | none => rfl
  | some piece =>
    refine (List.filter_eq_self.mpr fun p hp => ?_).symm
    cases hidle : isIdle piece with
    | true => exact absurd ⟨piece, hlast, hidle⟩ h
    | false =>
      rw [List.mem_singleton.mp hp, hidle]
      rfl

end Path

namespace FileSystem

variable {fs : FileSystem} {here there : Place} {steps names : List String}

/-- Steps that name nothing can be left out. -/
theorem Leads.filter_idle (h : fs.Leads here steps there) :
    fs.Leads here (steps.filter fun step => !Path.isIdle step) there := by
  induction h with
  | done => exact .done
  | up hs _ ih => exact .up hs ih
  | dot _ _ ih => exact ih
  | slash _ _ ih => exact ih
  | @name _ _ step _ hn _ ih =>
    have hidle : Path.isIdle step = false := by
      obtain ⟨hslash, hdot, -⟩ : step ≠ "" ∧ step ≠ "." ∧ step ≠ ".." := by
        simpa [Path.IsSpecial] using hn
      simp [Path.isIdle, hslash, hdot]
    rw [List.filter_cons_of_pos (by rw [hidle]; rfl)]
    exact .name hn ih

/-- The path of these names leads where the names lead. -/
theorem place_ofNames (fs : FileSystem) (h : ∀ n ∈ names, Path.IsName n) :
    fs.place (Path.ofNames names) = fs.walk names := by
  rw [place, Path.absolute, if_pos (Path.isAbsolute_ofNames names)]
  by_cases hne : names = []
  · subst hne
    rfl
  · rw [Path.steps_ofNames h hne]

end FileSystem

namespace Path

/-- The absolute path with the names of a path names the same file. -/
theorem sameFile_components {cwd : String} (h : isAbsolute cwd = true) (path : String) :
    SameFile cwd path (ofNames (components (absolute cwd path))) where
  isAbsolute := isAbsolute_ofNames _
  tidies := tidies_components (isAbsolute_absolute h path)
  leads := by
    rintro fs found rfl hfind
    have hnames : ∀ n ∈ components (absolute fs.cwd path), IsName n :=
      fun n hn => isName_of_mem_components hn
    have hlead := FileSystem.leads_of_open (FileSystem.find_eq_ok_iff.mp hfind).1
    rw [fs.place_ofNames hnames, place, components_ofNames hnames,
      FileSystem.components_eq]
    exact ⟨hlead.filter_idle.foldl_eq, hlead.text_eq⟩
  leads_file := by
    rintro fs rfl hfile
    rw [fs.place_ofNames fun n hn => isName_of_mem_components hn, FileSystem.place,
      steps_eq_components hfile]

end Path

namespace DatabaseAddress

/-- The URL of a path asks for the file that the path names, and has no settings. -/
theorem url_asksForFile {cwd : String} (h : Path.isAbsolute cwd = true) (path : String) :
    ∃ recovered, ofUrl? (url cwd path) = some { path := recovered } ∧
      Path.SameFile cwd path recovered :=
  ⟨_, ofUrl?_url cwd path, Path.sameFile_components h path⟩

/-- Blanks, escapes, marks of a URL, and pieces that name nothing. -/
theorem odd_url_asksForFile :
    let path := "./a b//..//100%25?mode=ro#1\\ü/./state.db"
    let recovered := "/srv/t b/a b/../100%25?mode=ro#1\\ü/state.db"
    Path.isAbsolute "/srv/t b" = true ∧
      ofUrl? (url "/srv/t b" path) = some { path := recovered } ∧
      Path.SameFile "/srv/t b" path recovered := by
  intro path recovered
  have habsolute : Path.isAbsolute "/srv/t b" = true := by decide
  obtain ⟨_, hurl, hsame⟩ := url_asksForFile habsolute path
  have hrecovered : Path.ofNames (Path.components (Path.absolute "/srv/t b" path)) = recovered := by
    decide +kernel
  cases hurl.symm.trans (ofUrl?_url _ path)
  rw [hrecovered] at hurl hsame
  exact ⟨habsolute, hurl, hsame⟩

end DatabaseAddress
end SshTunnels
