import SshTunnels.Proofs.Files.Places

/-!
# Files that only grow

What other processes do to the files while one of ours is at work: they make files and directories,
and write into files (`Grows`). What a path leads to then stays where it is (`Finds.place_eq`). The
directories that are made for a path are new, and no files (`extends_makeParent`).
-/

namespace SshTunnels.FileSystem

variable {fs fs' fs'' : FileSystem} {place : Place} {node : FileNode} {path : String}

/-- What others do: they make files and directories, and write into files. All that was there stays,
with its permission bits. -/
structure Grows (fs fs' : FileSystem) : Prop where
  cwd : fs'.cwd = fs.cwd
  umask : fs'.umask = fs.umask
  directory : ∀ {place mode}, fs.node? place = some (.directory mode) →
    fs'.node? place = some (.directory mode)
  file : ∀ {place mode contents}, fs.node? place = some (.file mode contents) →
    ∃ contents', fs'.node? place = some (.file mode contents')

/-- All that was there stays as it is. -/
structure Extends (fs fs' : FileSystem) : Prop where
  cwd : fs'.cwd = fs.cwd
  umask : fs'.umask = fs.umask
  node : ∀ {place node}, fs.node? place = some node → fs'.node? place = some node

/-- Every file was there before, as it is. -/
def NoNewFiles (fs fs' : FileSystem) : Prop :=
  ∀ place mode contents, fs'.node? place = some (.file mode contents) →
    fs.node? place = some (.file mode contents)

namespace Extends

theorem refl (fs : FileSystem) : Extends fs fs := ⟨rfl, rfl, id⟩

theorem trans (h : Extends fs fs') (h' : Extends fs' fs'') : Extends fs fs'' :=
  ⟨h'.cwd.trans h.cwd, h'.umask.trans h.umask, fun hn => h'.node (h.node hn)⟩

theorem put (h : fs.node? place = none) (node : FileNode) : Extends fs (fs.put place node) := by
  refine ⟨rfl, rfl, fun {other old} hold => ?_⟩
  rw [node?_put_of_ne, hold]
  rintro rfl
  cases h.symm.trans hold

theorem grows (h : Extends fs fs') : Grows fs fs' :=
  ⟨h.cwd, h.umask, h.node, fun hf => ⟨_, h.node hf⟩⟩

end Extends

namespace Grows

theorem keepsDirectories (h : Grows fs fs') : KeepsDirectories fs fs' := ⟨h.cwd, h.directory⟩

end Grows

/-- The directories that are made for a path are new, and no files. -/
theorem extends_makeParent (fs : FileSystem) (path : String) :
    Extends fs (fs.makeParent path).1 ∧ NoNewFiles fs (fs.makeParent path).1 := by
  refine makeParent_induct (R := fun fs fs' => Extends fs fs' ∧ NoNewFiles fs fs')
    (fun fs => ⟨.refl fs, fun _ _ _ => id⟩) (fun hab hbc => ?_) (fun h => ?_) fs path
  · exact ⟨hab.1.trans hbc.1, fun place mode contents h => hab.2 _ _ _ (hbc.2 _ _ _ h)⟩
  · obtain ⟨hfind, rfl⟩ := add_eq_ok h
    refine ⟨.put (node?_of_find hfind) _, fun place mode contents hnode => ?_⟩
    rw [node?_put] at hnode
    split at hnode
    · cases hnode
    · exact hnode

/-! ## What is found -/

/-- Something is found at a path. -/
def Finds (fs : FileSystem) (path : String) : Prop :=
  ∃ node, fs.find (fs.place path) = .ok (some node)

theorem Finds.place_eq (h : fs.Finds path) (hg : Grows fs fs') : fs'.place path = fs.place path := by
  obtain ⟨node, hfind⟩ := h
  exact hg.keepsDirectories.place_eq hfind

theorem Finds.grows (h : fs.Finds path) (hg : Grows fs fs') : fs'.Finds path := by
  have hplace := h.place_eq hg
  obtain ⟨node, hfind⟩ := h
  rw [Finds, hplace, hg.keepsDirectories.find_eq hfind]
  cases node with
  | directory mode => exact ⟨_, by rw [hg.directory (node?_of_find hfind)]⟩
  | file mode contents =>
    obtain ⟨contents', hnode⟩ := hg.file (node?_of_find hfind)
    exact ⟨_, by rw [hnode]⟩

/-- What is found by a look is found. -/
theorem finds_of_exists (h : fs.exists? (fs.place path) = .ok true) : fs.Finds path := by
  unfold exists? at h
  split at h
  · next node hfind =>
    cases node with
    | none => cases Except.ok.inj h
    | some node => exact ⟨node, hfind⟩
  · cases Except.ok.inj h
  · cases h

end SshTunnels.FileSystem
