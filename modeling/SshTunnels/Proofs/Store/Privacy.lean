import SshTunnels.Proofs.Files.Growth
import SshTunnels.Proofs.Store.Addresses
import SshTunnels.Store.Opening

/-!
# Who may read a database file

A database file is opened by its path in steps, and between any two of them other processes make
files and directories and write into files (`FileSystem.Grows`). However they act, the opened file
is the one at the path and no step changes what a file holds. It is for its owner alone, and called
new only if the opening made it, exactly if nothing lay at the path when the file was to be made
there (`privately_opened_iff`). A file that came after the look, or that the look missed because a
directory on the way was made after it, is called new and keeps its permission bits.
-/

namespace SshTunnels

namespace FileSystem

variable {fs fs' fs'' : FileSystem} {place : Place} {node : FileNode} {path : String}
  {mode : Nat} {contents : FileContents}

/-- A umask that leaves the owner's bits alone leaves a private file its permission bits. -/
theorem allowed_privateMode (h : fs.umask &&& 0o700 = 0) : fs.allowed privateMode = privateMode := by
  refine allowed_eq (by decide) ?_
  have hpart : privateMode = 0o700 &&& 0o600 := by decide
  rw [hpart, ← Nat.and_assoc, h, Nat.zero_and]

/-- The owner alone may read and write the file at a path. -/
def IsPrivate (fs : FileSystem) (path : String) : Prop :=
  ∃ mode contents, fs.node? (fs.place path) = some (.file mode contents) ∧
    mode % 0o1000 = privateMode

theorem IsPrivate.grows (h : fs.IsPrivate path) (hf : fs.Finds path) (hg : Grows fs fs') :
    fs'.IsPrivate path := by
  obtain ⟨mode, contents, hnode, hmode⟩ := h
  obtain ⟨contents', hnode'⟩ := hg.file hnode
  exact ⟨mode, contents', by rw [hf.place_eq hg, hnode'], hmode⟩

end FileSystem

namespace Opening

open FileSystem

variable {fs fs' fs₀ : FileSystem} {o o₀ : Opening} {path : String} {place : Place}
  {past : List (FileSystem × Opening)} {m : FileSystem × Opening} {opened : OpenedStore}
  {fresh : Bool}

/-! ## Steps and what others do between them -/

/-- An opening and the acts of others, in any order. Of the steps of the opening it is noted which
they were and on what files they were taken, the latest first. -/
inductive Run (fs₀ : FileSystem) (o₀ : Opening) :
    List (FileSystem × Opening) → FileSystem → Opening → Prop where
  | start : Run fs₀ o₀ [] fs₀ o₀
  /-- Others act. -/
  | others {past : List (FileSystem × Opening)} {fs fs' : FileSystem} {o : Opening} :
      Run fs₀ o₀ past fs o → fs.Grows fs' → Run fs₀ o₀ past fs' o
  /-- A step is taken. -/
  | step {past : List (FileSystem × Opening)} {fs : FileSystem} {o : Opening} :
      Run fs₀ o₀ past fs o → Run fs₀ o₀ ((fs, o) :: past) (o.next fs).1 (o.next fs).2

/-- The step makes a file at a place where there was nothing. -/
def MakesFile (place : Place) (m : FileSystem × Opening) : Prop :=
  m.1.node? place = none ∧ ∃ mode contents, (m.2.next m.1).1.node? place = some (.file mode contents)

/-- The step changes the contents of no file. -/
def KeepsContents (m : FileSystem × Opening) : Prop :=
  ∀ place mode contents, m.1.node? place = some (.file mode contents) →
    ∃ mode', (m.2.next m.1).1.node? place = some (.file mode' contents)

/-- The path at which a file is to be made next. -/
def target? : Opening → Option String
  | .creating path => some path
  | _ => none

/-- When the file was to be made, something lay at its place already. -/
def Overtaken (path : String) (past : List (FileSystem × Opening)) : Prop :=
  ∃ m ∈ past, m.2.target? = some path ∧ m.1.node? (m.1.place path) ≠ none

instance (path : String) (past : List (FileSystem × Opening)) : Decidable (Overtaken path past) :=
  inferInstanceAs (Decidable (∃ m ∈ past, _ ∧ _))

theorem overtaken_cons : Overtaken path (m :: past) ↔
    m.2.target? = some path ∧ m.1.node? (m.1.place path) ≠ none ∨ Overtaken path past :=
  List.exists_mem_cons_iff _ _ _

/-- The steps so far made no file, and none was to make one. -/
def Quiet (past : List (FileSystem × Opening)) : Prop :=
  ∀ m ∈ past, m.2.target? = none ∧ ∀ place, ¬ MakesFile place m

theorem not_makesFile_of_eq (h : (o.next fs).1 = fs) (place : Place) : ¬ MakesFile place (fs, o) := by
  rintro ⟨hnone, mode, contents, hnode⟩
  rw [h, hnone] at hnode
  cases hnode

theorem not_makesFile_of_noNewFiles (h : NoNewFiles fs (o.next fs).1) (place : Place) :
    ¬ MakesFile place (fs, o) := by
  rintro ⟨hnone, mode, contents, hnode⟩
  cases hnone.symm.trans (h _ _ _ hnode)

theorem keepsContents_of_extends (h : Extends fs (o.next fs).1) : KeepsContents (fs, o) :=
  fun _ mode _ hnode => ⟨mode, h.node hnode⟩

theorem Quiet.cons (hq : Quiet past) (htarget : o.target? = none)
    (hmakes : ∀ place, ¬ MakesFile place (fs, o)) : Quiet ((fs, o) :: past) :=
  List.forall_mem_cons.mpr ⟨⟨htarget, hmakes⟩, hq⟩

theorem Quiet.not_overtaken (hq : Quiet past) (path : String) : ¬ Overtaken path past := by
  rintro ⟨m, hmem, htarget, -⟩
  cases (hq m hmem).1.symm.trans htarget

/-! ## Where the file comes from -/

/-- Where the file at the path comes from, and whether it is called new for that. -/
inductive Origin (path : String) (past : List (FileSystem × Opening)) (fs : FileSystem) :
    Bool → Prop where
  /-- The look found it. -/
  | seen : Quiet past → fs.Finds path → Origin path past fs false
  /-- The opening made it. -/
  | made : (∃ m ∈ past, MakesFile (fs.place path) m) → ¬ Overtaken path past → fs.Finds path →
      fs.IsPrivate path → Origin path past fs true
  /-- It was there when the opening was to make it. -/
  | overtaken : Overtaken path past → (∀ m ∈ past, ∀ place, ¬ MakesFile place m) →
      fs.Finds path → Origin path past fs true

namespace Origin

theorem finds (h : Origin path past fs fresh) : fs.Finds path := by
  cases h with
  | seen _ hf => exact hf
  | made _ _ hf _ => exact hf
  | overtaken _ _ hf => exact hf

theorem grows (h : Origin path past fs fresh) (hg : Grows fs fs') : Origin path past fs' fresh := by
  cases h with
  | seen hq hf => exact .seen hq (hf.grows hg)
  | made hm ho hf hp =>
    refine .made ?_ ho (hf.grows hg) (hp.grows hf hg)
    rwa [hf.place_eq hg]
  | overtaken ho hm hf => exact .overtaken ho hm (hf.grows hg)

/-- A later step that makes nothing changes nothing about that. -/
theorem cons (h : Origin path past fs fresh) {before : FileSystem} (htarget : o.target? = none)
    (hmakes : ∀ place, ¬ MakesFile place (before, o)) :
    Origin path ((before, o) :: past) fs fresh := by
  have hsame : Overtaken path ((before, o) :: past) ↔ Overtaken path past := by
    rw [overtaken_cons, htarget]
    exact or_iff_right nofun
  cases h with
  | seen hq hf => exact .seen (hq.cons htarget hmakes) hf
  | made hm ho hf hp =>
    obtain ⟨m, hmem, hm⟩ := hm
    exact .made ⟨m, List.mem_cons_of_mem _ hmem, hm⟩ (hsame.not.mpr ho) hf hp
  | overtaken ho hm hf =>
    exact .overtaken (hsame.mpr ho) (List.forall_mem_cons.mpr ⟨hmakes, hm⟩) hf

end Origin

/-- The opened database is the file at the path. -/
structure Holds (path : String) (fs : FileSystem) (opened : OpenedStore) : Prop where
  isAt : opened.path = some path
  home : ∃ writable, opened.home = .file (fs.place path) writable
  file : ∃ mode contents, fs.node? (fs.place path) = some (.file mode contents)

theorem Holds.grows (h : Holds path fs opened) (hf : fs.Finds path) (hg : Grows fs fs') :
    Holds path fs' opened := by
  obtain ⟨hpath, hhome, mode, contents, hnode⟩ := h
  obtain ⟨contents', hnode'⟩ := hg.file hnode
  rw [← hf.place_eq hg] at hhome hnode'
  exact ⟨hpath, hhome, mode, contents', hnode'⟩

/-- What is known of an opening of the path, step by step. -/
inductive Course (path : String) (past : List (FileSystem × Opening)) (fs : FileSystem) :
    Opening → Prop where
  | looking : Quiet past → Course path past fs (.looking path)
  | makingDirectory {existed : Bool} : Quiet past → (existed = true → fs.Finds path) →
      Course path past fs (.makingDirectory path existed)
  | creating : Quiet past → Course path past fs (.creating path)
  | connecting {fresh : Bool} : Origin path past fs fresh →
      Course path past fs (.connecting (DatabaseAddress.url fs.cwd path) (some path) fresh)
  | securing {opened : OpenedStore} : Origin path past fs opened.fresh → opened.fresh = false →
      Holds path fs opened → Course path past fs (.securing opened)
  | failed {e : StoreError} : Course path past fs (.done (.error e))
  | opened {opened : OpenedStore} : Origin path past fs opened.fresh →
      (opened.fresh = false → fs.IsPrivate path) → Holds path fs opened →
      Course path past fs (.done (.ok opened))

theorem Course.grows (h : Course path past fs o) (hg : Grows fs fs') : Course path past fs' o := by
  cases h with
  | looking hq => exact .looking hq
  | makingDirectory hq hf => exact .makingDirectory hq fun he => (hf he).grows hg
  | creating hq => exact .creating hq
  | connecting ho =>
    rw [← hg.cwd]
    exact .connecting (ho.grows hg)
  | securing ho hfresh hh => exact .securing (ho.grows hg) hfresh (hh.grows ho.finds hg)
  | failed => exact .failed
  | opened ho hp hh =>
    exact .opened (ho.grows hg) (fun hfresh => (hp hfresh).grows ho.finds hg)
      (hh.grows ho.finds hg)

/-! ## What a step does -/

/-- The URL of a path leads to the file that is found there, and to connect changes no files. -/
theorem connect_url {fs' : FileSystem} {home : DatabaseHome} (hf : fs.Finds path)
    (h : connect fs (DatabaseAddress.url fs.cwd path) = some (fs', home)) :
    fs' = fs ∧ (∃ writable, home = .file (fs.place path) writable) ∧
      ∃ mode contents, fs.node? (fs.place path) = some (.file mode contents) := by
  obtain ⟨node, hfind⟩ := hf
  have hnames : ∀ n ∈ Path.components (Path.absolute fs.cwd path), Path.IsName n :=
    fun _ => Path.isName_of_mem_components
  -- the path of a URL is read as a text, which leads elsewhere only if something is in the way
  have hplace : Path.place (Path.absolute fs.cwd
      (Path.ofNames (Path.components (Path.absolute fs.cwd path)))) = fs.place path := by
    rw [place_eq_of_open hfind, Path.absolute, if_pos (Path.isAbsolute_ofNames _), Path.place,
      Path.components_ofNames hnames]
    rfl
  rw [connect, DatabaseAddress.ofUrl?_url, Option.bind_eq_bind, Option.bind_some,
    if_neg Bool.false_ne_true, connectFile] at h
  simp only [hplace, hfind] at h
  cases node with
  | directory mode => cases h
  | file mode contents =>
    split at h
    · next heq => cases heq
    · next heq => cases heq
    · next heq => cases heq
    · split at h
      · cases h
        exact ⟨rfl, ⟨_, rfl⟩, mode, contents, node?_of_find hfind⟩
      · cases h

/-- To secure a file makes it private and changes nothing else. -/
structure Secures (path : String) (fs fs' : FileSystem) : Prop where
  cwd : fs'.cwd = fs.cwd
  umask : fs'.umask = fs.umask
  elsewhere : ∀ place, place ≠ fs.place path → fs'.node? place = fs.node? place
  here : ∃ mode mode' contents, fs.node? (fs.place path) = some (.file mode contents) ∧
    fs'.node? (fs.place path) = some (.file mode' contents) ∧ mode' % 0o1000 = privateMode

theorem secures_secure {contents : FileContents} {mode : Nat} (hf : fs.Finds path)
    (hnode : fs.node? (fs.place path) = some (.file mode contents)) :
    Secures path fs (secure fs path) := by
  obtain ⟨node, hfind⟩ := hf
  cases (node?_of_find hfind).symm.trans hnode
  unfold secure
  rw [hfind]
  dsimp only
  split
  · next hprivate => exact ⟨rfl, rfl, fun _ _ => rfl, mode, mode, contents, hnode, hnode, hprivate⟩
  · have hset : fs.setMode (fs.place path) privateMode =
        .ok (fs.put (fs.place path) (.file privateMode contents)) := by
      rw [setMode, hfind]
      rfl
    rw [hset]
    exact ⟨rfl, rfl, fun _ hne => node?_put_of_ne hne, mode, privateMode, contents, hnode,
      node?_put_self (ne_root_of_node? (.inr ⟨mode, contents, hnode⟩)), rfl⟩

namespace Secures

theorem keepsDirectories (h : Secures path fs fs') : KeepsDirectories fs fs' := by
  obtain ⟨mode, mode', contents, hnode, -, -⟩ := h.here
  refine ⟨h.cwd, fun {other _} hd => ?_⟩
  rw [h.elsewhere other, hd]
  intro heq
  rw [heq, hnode] at hd
  cases hd

theorem place_eq (h : Secures path fs fs') (hf : fs.Finds path) :
    fs'.place path = fs.place path := by
  obtain ⟨node, hfind⟩ := hf
  exact h.keepsDirectories.place_eq hfind

theorem finds (h : Secures path fs fs') (hf : fs.Finds path) : fs'.Finds path := by
  have hplace := h.place_eq hf
  obtain ⟨node, hfind⟩ := hf
  obtain ⟨mode, mode', contents, -, hnode, -⟩ := h.here
  exact ⟨_, by rw [hplace, h.keepsDirectories.find_eq hfind, hnode]⟩

theorem isPrivate (h : Secures path fs fs') (hf : fs.Finds path) : fs'.IsPrivate path := by
  obtain ⟨mode, mode', contents, -, hnode, hmode⟩ := h.here
  exact ⟨mode', contents, by rw [h.place_eq hf, hnode], hmode⟩

theorem holds (h : Secures path fs fs') (hf : fs.Finds path) (hh : Holds path fs opened) :
    Holds path fs' opened := by
  obtain ⟨mode, mode', contents, -, hnode, -⟩ := h.here
  exact ⟨hh.isAt, by rw [h.place_eq hf]; exact hh.home, mode', contents,
    by rw [h.place_eq hf, hnode]⟩

theorem not_makesFile (h : Secures path fs (o.next fs).1) (place : Place) :
    ¬ MakesFile place (fs, o) := by
  obtain ⟨mode, mode', contents, hnode, -, -⟩ := h.here
  rintro ⟨hnone, mode₁, contents₁, hmade⟩
  rw [h.elsewhere place] at hmade
  · cases hnone.symm.trans hmade
  · intro heq
    rw [heq, hnode] at hnone
    cases hnone

theorem keepsContents (h : Secures path fs (o.next fs).1) : KeepsContents (fs, o) := by
  obtain ⟨mode, mode', contents, hold, hnew, -⟩ := h.here
  intro place mode₁ contents₁ hnode
  by_cases heq : place = fs.place path
  · rw [heq] at hnode ⊢
    cases hold.symm.trans hnode
    exact ⟨mode', hnew⟩
  · exact ⟨mode₁, (h.elsewhere place heq).trans hnode⟩

end Secures

variable {existed : Bool}

theorem next_looking (fs : FileSystem) (path : String) : ∃ existed,
    next fs (.looking path) = (fs, .makingDirectory path existed) ∧
      (existed = true → fs.Finds path) := by
  refine ⟨_, rfl, fun hexisted => ?_⟩
  cases hlook : fs.exists? (fs.place path) with
  | error code =>
    rw [hlook] at hexisted
    cases hexisted
  | ok found =>
    rw [hlook, Bool.and_eq_true] at hexisted
    exact finds_of_exists (hexisted.1 ▸ hlook)

theorem next_makingDirectory (fs : FileSystem) (path : String) (existed : Bool) :
    Extends fs (next fs (.makingDirectory path existed)).1 ∧
      NoNewFiles fs (next fs (.makingDirectory path existed)).1 ∧
      ((∃ e, (next fs (.makingDirectory path existed)).2 = .done (.error e)) ∨
        (next fs (.makingDirectory path existed)).2 =
          if existed then .connecting (DatabaseAddress.url
            (next fs (.makingDirectory path existed)).1.cwd path) (some path) false
          else .creating path) := by
  have hmade := extends_makeParent fs path
  simp only [next]
  split
  · next heq =>
    rw [heq] at hmade
    exact ⟨hmade.1, hmade.2, .inl ⟨_, rfl⟩⟩
  · next heq =>
    rw [heq] at hmade
    refine ⟨?_, ?_, .inr ?_⟩ <;> cases existed
    · exact hmade.1
    · exact hmade.1
    · exact hmade.2
    · exact hmade.2
    · rfl
    · rfl

/-- The file is made, or something lies at its place, or the opening fails. -/
theorem next_creating (fs : FileSystem) (path : String) :
    (∃ e, next fs (.creating path) = (fs, .done (.error e))) ∨
    (∃ fs', fs.createFile (fs.place path) privateMode = .ok fs' ∧ next fs (.creating path) =
      (fs', .connecting (DatabaseAddress.url fs.cwd path) (some path) true)) ∨
    (fs.Finds path ∧ next fs (.creating path) =
      (fs, .connecting (DatabaseAddress.url fs.cwd path) (some path) true)) := by
  simp only [next]
  split
  · exact .inl ⟨_, rfl⟩
  · split
    · next hmade => exact .inr (.inl ⟨_, hmade, rfl⟩)
    · next hmade => exact .inr (.inr ⟨createFile_eq_fileExists hmade, rfl⟩)
    · exact .inl ⟨_, rfl⟩

/-! ## One step -/

/-- A step on the course of an opening of the path keeps to the course and to the contents of
files. -/
structure Keeps (path : String) (past : List (FileSystem × Opening)) (fs : FileSystem)
    (o : Opening) : Prop where
  course : Course path ((fs, o) :: past) (o.next fs).1 (o.next fs).2
  contents : KeepsContents (fs, o)
  umask : (o.next fs).1.umask = fs.umask

theorem keeps_of_extends (hextends : Extends fs (o.next fs).1)
    (hcourse : Course path ((fs, o) :: past) (o.next fs).1 (o.next fs).2) :
    Keeps path past fs o :=
  ⟨hcourse, keepsContents_of_extends hextends, hextends.umask⟩

theorem Quiet.keeps_looking (hq : Quiet past) : Keeps path past fs (.looking path) := by
  obtain ⟨existed, hnext, hfinds⟩ := next_looking fs path
  have hquiet := hq.cons (o := .looking path) rfl
    (not_makesFile_of_eq (by rw [hnext]))
  refine keeps_of_extends ?_ ?_
  · rw [hnext]
    exact .refl fs
  · rw [hnext]
    exact .makingDirectory hquiet hfinds

theorem Quiet.keeps_makingDirectory (hq : Quiet past) (hf : existed = true → fs.Finds path) :
    Keeps path past fs (.makingDirectory path existed) := by
  obtain ⟨hextends, hfiles, hresult⟩ := next_makingDirectory fs path existed
  have hquiet := hq.cons (o := .makingDirectory path existed) rfl
    (not_makesFile_of_noNewFiles hfiles)
  refine keeps_of_extends hextends ?_
  rcases hresult with ⟨e, heq⟩ | heq
  · rw [heq]
    exact .failed
  · rw [heq]
    cases existed with
    | true => exact .connecting (.seen hquiet ((hf rfl).grows hextends.grows))
    | false => exact .creating hquiet

theorem Quiet.overtaken_cons_iff (hq : Quiet past) :
    Overtaken path ((fs, .creating path) :: past) ↔ fs.node? (fs.place path) ≠ none := by
  rw [overtaken_cons, or_iff_left (hq.not_overtaken path)]
  exact and_iff_right rfl

/-- A file that has just been made is private. -/
theorem Quiet.origin_made (hq : Quiet past) (humask : fs.umask &&& 0o700 = 0)
    (hmade : fs.createFile (fs.place path) privateMode = .ok (next fs (.creating path)).1) :
    Extends fs (next fs (.creating path)).1 ∧
      Origin path ((fs, .creating path) :: past) (next fs (.creating path)).1 true := by
  obtain ⟨hfind, heq⟩ := createFile_eq_ok hmade
  have hnone := node?_of_find hfind
  have hextends : Extends fs (next fs (.creating path)).1 := by
    rw [heq]
    exact .put hnone _
  have hplace := hextends.grows.keepsDirectories.place_eq hfind
  have hfound : (next fs (.creating path)).1.find ((next fs (.creating path)).1.place path) =
      .ok (some (.file (fs.allowed privateMode) (.bytes []))) := by
    rw [heq]
    exact find_place_put hfind nofun _
  have hnode := node?_of_find hfound
  refine ⟨hextends, .made ⟨_, List.mem_cons_self, ?_, _, _, hnode⟩ ?_ ⟨_, hfound⟩ ⟨_, _, hnode, ?_⟩⟩
  · rw [hplace]
    exact hnone
  · exact hq.overtaken_cons_iff.not.mpr (not_not_intro hnone)
  · rw [allowed_privateMode humask]
    rfl

/-- If something lies at the path, no file is made. -/
theorem Quiet.origin_overtaken (hq : Quiet past) (hfinds : fs.Finds path)
    (hsame : (next fs (.creating path)).1 = fs) :
    Origin path ((fs, .creating path) :: past) fs true := by
  refine .overtaken (hq.overtaken_cons_iff.mpr ?_) (List.forall_mem_cons.mpr ⟨?_, ?_⟩) hfinds
  · obtain ⟨node, hfind⟩ := hfinds
    rw [node?_of_find hfind]
    exact Option.some_ne_none node
  · exact not_makesFile_of_eq hsame
  · exact fun m hmem => (hq m hmem).2

theorem Quiet.keeps_creating (hq : Quiet past) (humask : fs.umask &&& 0o700 = 0) :
    Keeps path past fs (.creating path) := by
  rcases next_creating fs path with ⟨e, hnext⟩ | ⟨fs', hmade, hnext⟩ | ⟨hfinds, hnext⟩
  · refine keeps_of_extends (by rw [hnext]; exact .refl fs) ?_
    rw [hnext]
    exact .failed
  · obtain ⟨hextends, horigin⟩ := hq.origin_made humask (by rw [hnext]; exact hmade)
    refine keeps_of_extends hextends ?_
    rw [hnext] at hextends horigin ⊢
    rw [← hextends.cwd]
    exact .connecting horigin
  · refine keeps_of_extends (by rw [hnext]; exact .refl fs) ?_
    have horigin := hq.origin_overtaken hfinds (by rw [hnext])
    rw [hnext]
    exact .connecting horigin

theorem Origin.keeps_connecting (ho : Origin path past fs fresh) :
    Keeps path past fs (.connecting (DatabaseAddress.url fs.cwd path) (some path) fresh) := by
  cases hconnect : connect fs (DatabaseAddress.url fs.cwd path) with
  | none =>
    have hnext : next fs (.connecting (DatabaseAddress.url fs.cwd path) (some path) fresh) =
        (fs, .done (.error (.connectionFailed (DatabaseAddress.url fs.cwd path)))) := by
      simp only [next, hconnect]
    refine keeps_of_extends (by rw [hnext]; exact .refl fs) ?_
    rw [hnext]
    exact .failed
  | some connected =>
    obtain ⟨fs', home⟩ := connected
    obtain ⟨rfl, hhome, hfile⟩ := connect_url ho.finds hconnect
    have hnext : next fs' (.connecting (DatabaseAddress.url fs'.cwd path) (some path) fresh) =
        (fs', if (some path).isSome && !fresh then
            .securing ⟨DatabaseAddress.url fs'.cwd path, some path, fresh, home⟩
          else .done (.ok ⟨DatabaseAddress.url fs'.cwd path, some path, fresh, home⟩)) := by
      simp only [next, hconnect]
    have ho' := ho.cons (o := .connecting (DatabaseAddress.url fs'.cwd path) (some path) fresh)
      rfl (not_makesFile_of_eq (by rw [hnext]))
    have hholds : Holds path fs'
        ⟨DatabaseAddress.url fs'.cwd path, some path, fresh, home⟩ := ⟨rfl, hhome, hfile⟩
    refine keeps_of_extends (by rw [hnext]; exact .refl fs') ?_
    rw [hnext]
    cases fresh with
    | false => exact .securing ho' rfl hholds
    | true => exact .opened ho' nofun hholds

theorem Origin.keeps_securing (ho : Origin path past fs opened.fresh)
    (hfresh : opened.fresh = false) (hh : Holds path fs opened) :
    Keeps path past fs (.securing opened) := by
  obtain ⟨mode, contents, hnode⟩ := hh.file
  have hfinds := ho.finds
  have hnext : next fs (.securing opened) = (secure fs path, .done (.ok opened)) := by
    simp only [next, hh.isAt, Option.elim_some]
  have hfiles : (next fs (.securing opened)).1 = secure fs path := by rw [hnext]
  have hdone : (next fs (.securing opened)).2 = .done (.ok opened) := by rw [hnext]
  have hsecures : Secures path fs (next fs (.securing opened)).1 := by
    rw [hfiles]
    exact secures_secure hfinds hnode
  refine ⟨?_, hsecures.keepsContents, hsecures.umask⟩
  have hmakes := hsecures.not_makesFile
  rw [hdone]
  refine .opened ?_ (fun _ => hsecures.isPrivate hfinds) (hsecures.holds hfinds hh)
  rw [hfresh] at ho ⊢
  cases ho with
  | seen hq _ => exact .seen (hq.cons rfl hmakes) (hsecures.finds hfinds)

theorem Course.keeps (h : Course path past fs o) (humask : fs.umask &&& 0o700 = 0) :
    Keeps path past fs o := by
  cases h with
  | looking hq => exact hq.keeps_looking
  | makingDirectory hq hf => exact hq.keeps_makingDirectory hf
  | creating hq => exact hq.keeps_creating humask
  | connecting ho => exact ho.keeps_connecting
  | securing ho hfresh hh => exact ho.keeps_securing hfresh hh
  | failed => exact keeps_of_extends (.refl fs) .failed
  | opened ho hp hh =>
    exact keeps_of_extends (.refl fs)
      (.opened (ho.cons rfl (not_makesFile_of_eq rfl)) hp hh)

/-! ## Whole openings -/

/-- Whatever others do between the steps, an opening of a path keeps to its course. -/
theorem Run.keeps (hr : Run fs₀ (.looking path) past fs o) (humask : fs₀.umask &&& 0o700 = 0) :
    Course path past fs o ∧ (∀ m ∈ past, KeepsContents m) ∧ fs.umask = fs₀.umask := by
  induction hr with
  | start => exact ⟨.looking (List.forall_mem_nil _), List.forall_mem_nil _, rfl⟩
  | others _ hg ih =>
    obtain ⟨hcourse, hkeeps, hsame⟩ := ih
    exact ⟨hcourse.grows hg, hkeeps, hg.umask.trans hsame⟩
  | @step past fs o _ ih =>
    obtain ⟨hcourse, hkeeps, hsame⟩ := ih
    -- nobody changes the umask, so what is assumed of it at first holds at every step
    obtain ⟨hcourse', hcontents, humask'⟩ := hcourse.keeps (by rw [hsame]; exact humask)
    exact ⟨hcourse', List.forall_mem_cons.mpr ⟨hcontents, hkeeps⟩, humask'.trans hsame⟩

/-- The steps that are played, each on the files as the act before it leaves them, the latest
first. -/
def moments : List (FileSystem → FileSystem) → FileSystem × Opening → List (FileSystem × Opening)
  | [], _ => []
  | others :: rest, (fs, o) => moments rest (o.next (others fs)) ++ [(others fs, o)]

/-- Steps that are played are a run, if what others do between them lets files only grow. -/
theorem Run.played (hr : Run fs₀ o₀ past fs o) {acts : List (FileSystem → FileSystem)}
    (hgrows : ∀ act ∈ acts, ∀ fs, Grows fs (act fs)) :
    Run fs₀ o₀ (moments acts (fs, o) ++ past) (play acts (fs, o)).1 (play acts (fs, o)).2 := by
  induction acts generalizing past fs o with
  | nil => exact hr
  | cons act acts ih =>
    obtain ⟨hact, hacts⟩ := List.forall_mem_cons.mp hgrows
    have hrest := ih (hr.others (hact fs)).step hacts
    rwa [moments, List.append_assoc, List.singleton_append]

theorem eq_done_of_result? {result : Except StoreError OpenedStore} (h : o.result? = some result) :
    o = .done result := by
  cases o with
  | done result' => exact congrArg Opening.done (Option.some.inj h)
  | _ => cases h

/-- To open the database of a path undisturbed is a run. -/
theorem exists_run_of_run {env : Environment} (hpath : DatabaseAddress.isUrl path = false)
    (h : run fs₀ (some path) env = (fs, .ok opened)) :
    ∃ past, Run fs₀ (.looking path) past fs (.done (.ok opened)) := by
  have hnamed : DatabaseAddress.named? (some path) env = some path := rfl
  have hstart : start path = .looking path := by
    rw [start, hpath]
    rfl
  simp only [run, hnamed, Option.isSome_some, if_true, Option.getD_some, hstart] at h
  have hidle : ∀ act ∈ List.replicate steps id, ∀ fs, Grows fs (act fs) := fun act hact fs => by
    rw [List.eq_of_mem_replicate hact]
    exact (Extends.refl fs).grows
  have hbegun : Run fs₀ (.looking path) [] fs₀ (.looking path) := .start
  have hr := hbegun.played hidle
  obtain ⟨hfiles, hresult⟩ := Prod.mk.inj h
  have hdone : (play (List.replicate steps id) (fs₀, .looking path)).2 = .done (.ok opened) := by
    cases hlast : (play (List.replicate steps id) (fs₀, .looking path)).2.result? with
    | none =>
      rw [hlast] at hresult
      cases hresult
    | some result =>
      rw [hlast] at hresult
      exact eq_done_of_result? (hlast.trans (congrArg some hresult))
  rw [hfiles, hdone] at hr
  exact ⟨_, hr⟩

/-- The opened file is private, and it is called new only if the opening made it. -/
def Safe (path : String) (past : List (FileSystem × Opening)) (fs : FileSystem)
    (opened : OpenedStore) : Prop :=
  fs.IsPrivate path ∧ (opened.fresh = true → ∃ m ∈ past, MakesFile (fs.place path) m)

theorem Origin.safe_iff (ho : Origin path past fs opened.fresh)
    (hp : opened.fresh = false → fs.IsPrivate path) :
    Safe path past fs opened ↔ ¬ Overtaken path past := by
  unfold Safe
  generalize opened.fresh = fresh at ho hp
  cases ho with
  | seen hq _ => exact ⟨fun _ => hq.not_overtaken path, fun _ => ⟨hp rfl, nofun⟩⟩
  | made hm hnot _ hprivate => exact ⟨fun _ => hnot, fun _ => ⟨hprivate, fun _ => hm⟩⟩
  | overtaken hover hmakes _ =>
    refine ⟨fun ⟨_, hmade⟩ => ?_, fun hnot => absurd hover hnot⟩
    obtain ⟨m, hmem, hm⟩ := hmade rfl
    exact absurd hm (hmakes m hmem _)

/-- Whatever others make between the steps, and whatever they write: the opened database is the file
at the path, and no step has changed what a file holds. The file is private, and called new only if
the opening made it, exactly if nothing lay at its place when it was to be made. -/
theorem privately_opened_iff (humask : fs₀.umask &&& 0o700 = 0)
    (hr : Run fs₀ (.looking path) past fs (.done (.ok opened))) :
    Holds path fs opened ∧ (∀ m ∈ past, KeepsContents m) ∧
      (Safe path past fs opened ↔ ¬ Overtaken path past) := by
  obtain ⟨hcourse, hkeeps, -⟩ := hr.keeps humask
  cases hcourse with
  | opened ho hp hh => exact ⟨hh, hkeeps, ho.safe_iff hp⟩

/-- Others make an empty file that all may read, unless something lies there. -/
def makeOpenFile (place : Place) (fs : FileSystem) : FileSystem :=
  (fs.createFile place 0o644).toOption.getD fs

theorem grows_makeOpenFile (place : Place) (fs : FileSystem) : Grows fs (makeOpenFile place fs) := by
  unfold makeOpenFile
  cases hmade : fs.createFile place 0o644 with
  | error code => exact (Extends.refl fs).grows
  | ok fs' =>
    obtain ⟨hfind, rfl⟩ := createFile_eq_ok hmade
    exact (Extends.put (node?_of_find hfind) _).grows

/-- Others make a file next to the database before every step of its opening. -/
theorem privately_opened_beside_others :
    let acts := List.replicate 5 (makeOpenFile ["log"])
    let past := moments acts ({}, .looking "/s.db")
    let fs := (play acts ({}, .looking "/s.db")).1
    let opened : OpenedStore := ⟨"sqlite:///s.db", some "/s.db", true, .file ["s.db"] true⟩
    Run {} (.looking "/s.db") past fs (.done (.ok opened)) ∧
      Holds "/s.db" fs opened ∧ (∀ m ∈ past, KeepsContents m) ∧ Safe "/s.db" past fs opened := by
  intro acts past fs opened
  have hgrows : ∀ act ∈ acts, ∀ fs, Grows fs (act fs) := fun act hact fs => by
    rw [List.eq_of_mem_replicate hact]
    exact grows_makeOpenFile ["log"] fs
  have hplayed : Run {} (.looking "/s.db") (past ++ []) fs (play acts ({}, .looking "/s.db")).2 :=
    Run.start.played hgrows
  have hdone : (play acts ({}, .looking "/s.db")).2 = .done (.ok opened) :=
    eq_done_of_result? (by decide +kernel)
  rw [List.append_nil, hdone] at hplayed
  have hopened := privately_opened_iff (by decide) hplayed
  exact ⟨hplayed, hopened.1, hopened.2.1, hopened.2.2.mpr (by decide +kernel)⟩

/-- A file that all may read is there before the opening, but the path leads to it through a
directory that is only made by the opening: it is called new and stays as it is. So does a file that
others make after the look. -/
theorem older_file_called_new :
    let file := FileNode.file 0o644 (.bytes [])
    let missed := run ⟨[(["state.db"], file)], "/", 0o022⟩ (some "/a/../state.db") []
    let raced := play [id, id, makeOpenFile ["state.db"], id, id] ({}, .looking "/state.db")
    missed.2.toOption.map (·.fresh) = some true ∧ missed.1.node? ["state.db"] = some file ∧
      raced.2.result?.bind (·.toOption.map (·.fresh)) = some true ∧
      raced.1.node? ["state.db"] = some file := by
  decide +kernel

end Opening
end SshTunnels
