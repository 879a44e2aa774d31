import SshTunnels.Proofs.Files.Nodes

/-!
# Where paths lead

If nothing is in the way to the place that a path names, every step of the path was taken in a
directory (`leads_walk`). Then the path names the same place as long as the directories stay
(`Leads.of_keepsDirectories`), and it is the place that its text alone gives
(`place_eq_of_open`).
-/

namespace SshTunnels

/-- The step names nothing, or leads up. -/
def Path.IsSpecial (step : String) : Prop :=
  step = "" ∨ step = "." ∨ step = ".."

namespace FileSystem

variable {fs fs' : FileSystem} {here there : Place} {step : String} {steps : List String}
  {node : FileNode} {found : Option FileNode} {path : String} {mode : Nat}

/-! ## Directories that stay -/

/-- The working directory is the same, and every directory is still there, with its permission
bits. -/
structure KeepsDirectories (fs fs' : FileSystem) : Prop where
  cwd : fs'.cwd = fs.cwd
  directory : ∀ {place mode}, fs.node? place = some (.directory mode) →
    fs'.node? place = some (.directory mode)

namespace KeepsDirectories

theorem refl (fs : FileSystem) : KeepsDirectories fs fs := ⟨rfl, id⟩

theorem trans {fs'' : FileSystem} (h : KeepsDirectories fs fs') (h' : KeepsDirectories fs' fs'') :
    KeepsDirectories fs fs'' :=
  ⟨h'.cwd.trans h.cwd, fun hd => h'.directory (h.directory hd)⟩

theorem put (h : ∀ mode, fs.node? there ≠ some (.directory mode)) (node : FileNode) :
    KeepsDirectories fs (fs.put there node) := by
  refine ⟨rfl, fun {place mode} hd => ?_⟩
  rw [node?_put_of_ne, hd]
  rintro rfl
  exact h mode hd

theorem wayFault?_eq_none (h : KeepsDirectories fs fs') (hway : fs.wayFault? here = none) :
    fs'.wayFault? here = none := by
  rw [wayFault?_eq_none_iff] at hway ⊢
  intro n hn
  obtain ⟨mode, hnode, hsearch⟩ := hway n hn
  exact ⟨mode, h.directory hnode, hsearch⟩

theorem find_eq (h : KeepsDirectories fs fs') (hfind : fs.find here = .ok found) :
    fs'.find here = .ok (fs'.node? here) :=
  find_eq_ok_iff.mpr ⟨h.wayFault?_eq_none (find_eq_ok_iff.mp hfind).1, rfl⟩

theorem isDirectory (h : KeepsDirectories fs fs') (hd : fs.isDirectory here = true) :
    fs'.isDirectory here = true := by
  unfold FileSystem.isDirectory at hd ⊢
  split at hd
  · next node hfind =>
    cases node with
    | directory mode => rw [h.find_eq hfind, h.directory (node?_of_find hfind)]; rfl
    | file => cases hd
  · cases hd

theorem isSearchable (h : KeepsDirectories fs fs') (hs : fs.isSearchable here = true) :
    fs'.isSearchable here = true := by
  unfold FileSystem.isSearchable at hs ⊢
  split at hs
  · next mode hfind =>
    rw [h.find_eq hfind, h.directory (node?_of_find hfind)]
    exact hs
  · cases hs

end KeepsDirectories

/-! ## Faults on the way -/

theorem wayFault?_append_of_fault (h : fs.wayFault? here ≠ none) (step : String) :
    fs.wayFault? (here ++ [step]) ≠ none := by
  rw [Ne, wayFault?_eq_none_iff] at h ⊢
  intro hall
  refine h fun n hn => ?_
  have hstep := hall n (by rw [List.length_append]; omega)
  rwa [List.take_append_of_le_length (Nat.le_of_lt hn)] at hstep

/-- Below a place that is no directory open to search there is no way. -/
theorem wayFault?_append_of_not_searchable (h : fs.isSearchable here = false) (step : String) :
    fs.wayFault? (here ++ [step]) ≠ none := by
  by_cases hway : fs.wayFault? here = none
  · rw [Ne, wayFault?_eq_none_iff]
    intro hall
    obtain ⟨mode, hnode, hsearch⟩ := hall here.length (by simp)
    rw [List.take_left] at hnode
    unfold isSearchable at h
    rw [find_eq_ok_iff.mpr ⟨hway, hnode⟩] at h
    exact Bool.false_ne_true (h.symm.trans hsearch)
  · exact wayFault?_append_of_fault hway step

theorem not_searchable_of_fault (h : fs.wayFault? here ≠ none) : fs.isSearchable here = false := by
  unfold isSearchable
  split
  · next hfind => exact absurd (find_eq_ok_iff.mp hfind).1 h
  · rfl

theorem not_directory_of_fault (h : fs.wayFault? here ≠ none) : fs.isDirectory here = false := by
  unfold isDirectory
  split
  · next hfind => exact absurd (find_eq_ok_iff.mp hfind).1 h
  · rfl

theorem not_searchable_of_not_directory (h : fs.isDirectory here = false) :
    fs.isSearchable here = false := by
  unfold isDirectory at h
  unfold isSearchable
  split
  · next hfind =>
    rw [hfind] at h
    cases h
  · rfl

/-- Behind a fault no step leads back. -/
theorem wayFault?_foldl_of_fault (h : fs.wayFault? here ≠ none) (steps : List String) :
    fs.wayFault? (steps.foldl fs.descend here) ≠ none := by
  induction steps generalizing here with
  | nil => exact h
  | cons step steps ih =>
    have hkept : fs.descend here step = here ++ [step] := by
      simp [descend, not_searchable_of_fault h, not_directory_of_fault h]
    rw [List.foldl_cons, hkept]
    exact ih (wayFault?_append_of_fault h step)

/-! ## Steps that are taken -/

/-- The steps lead from one place to another, each taken in a directory. -/
inductive Leads (fs : FileSystem) : Place → List String → Place → Prop where
  /-- The end is reached. -/
  | done {here : Place} : Leads fs here [] here
  /-- Two dots lead up. -/
  | up {here there : Place} {steps : List String} : fs.isSearchable here = true →
      Leads fs here.dropLast steps there → Leads fs here (".." :: steps) there
  /-- A dot stays. -/
  | dot {here there : Place} {steps : List String} : fs.isSearchable here = true →
      Leads fs here steps there → Leads fs here ("." :: steps) there
  /-- Nothing behind a slash stays. -/
  | slash {here there : Place} {steps : List String} : fs.isDirectory here = true →
      Leads fs here steps there → Leads fs here ("" :: steps) there
  /-- A name leads down. -/
  | name {here there : Place} {step : String} {steps : List String} : ¬ Path.IsSpecial step →
      Leads fs (here ++ [step]) steps there → Leads fs here (step :: steps) there

theorem descend_of_name (h : ¬ Path.IsSpecial step) : fs.descend here step = here ++ [step] := by
  obtain ⟨hslash, hdot, hup⟩ : step ≠ "" ∧ step ≠ "." ∧ step ≠ ".." := by
    simpa [Path.IsSpecial] using h
  simp [descend, hslash, hdot, hup]

namespace Leads

theorem foldl_eq (h : fs.Leads here steps there) : steps.foldl fs.descend here = there := by
  induction h with
  | done => rfl
  | up hs _ ih => simpa [descend, hs] using ih
  | dot hs _ ih => simpa [descend, hs] using ih
  | slash hd _ ih => simpa [descend, hd] using ih
  | name hn _ ih => rwa [List.foldl_cons, descend_of_name hn]

/-- As long as the directories stay, the steps lead to the same place. -/
theorem of_keepsDirectories (h : fs.Leads here steps there) (hk : KeepsDirectories fs fs') :
    fs'.Leads here steps there := by
  induction h with
  | done => exact .done
  | up hs _ ih => exact .up (hk.isSearchable hs) ih
  | dot hs _ ih => exact .dot (hk.isSearchable hs) ih
  | slash hd _ ih => exact .slash (hk.isDirectory hd) ih
  | name hn _ ih => exact .name hn ih

/-- The place that the steps lead to is the one that they name as a text. -/
theorem text_eq (h : fs.Leads here steps there) :
    (steps.filter fun step => !Path.isIdle step).foldl
      (fun place c => if c = ".." then place.dropLast else place ++ [c]) here = there := by
  induction h with
  | done => rfl
  | up _ _ ih => simpa [Path.isIdle] using ih
  | dot _ _ ih => simpa [Path.isIdle] using ih
  | slash _ _ ih => simpa [Path.isIdle] using ih
  | @name _ _ step _ hn _ ih =>
    obtain ⟨hslash, hdot, hup⟩ : step ≠ "" ∧ step ≠ "." ∧ step ≠ ".." := by
      simpa [Path.IsSpecial] using hn
    simpa [Path.isIdle, hslash, hdot, hup] using ih

end Leads

/-- If nothing is in the way to where the steps lead, each was taken in a directory. -/
theorem leads_of_open (h : fs.wayFault? (steps.foldl fs.descend here) = none) :
    fs.Leads here steps (steps.foldl fs.descend here) := by
  induction steps generalizing here with
  | nil => exact .done
  | cons step steps ih =>
    rw [List.foldl_cons] at h ⊢
    have hrest := ih h
    -- a step that is kept where no directory is would leave a fault behind
    have hkept (hs : fs.isSearchable here = false) : fs.descend here step ≠ here ++ [step] := by
      intro heq
      rw [heq] at h
      exact wayFault?_foldl_of_fault (wayFault?_append_of_not_searchable hs step) steps h
    by_cases hn : Path.IsSpecial step
    · rcases hn with rfl | rfl | rfl
      · cases hd : fs.isDirectory here with
        | true =>
          refine .slash hd ?_
          simpa [descend, hd] using hrest
        | false =>
          exact absurd (by simp [descend, hd])
            (hkept (not_searchable_of_not_directory hd))
      · cases hs : fs.isSearchable here with
        | true =>
          refine .dot hs ?_
          simpa [descend, hs] using hrest
        | false => exact absurd (by simp [descend, hs]) (hkept hs)
      · cases hs : fs.isSearchable here with
        | true =>
          refine .up hs ?_
          simpa [descend, hs] using hrest
        | false => exact absurd (by simp [descend, hs]) (hkept hs)
    · rw [descend_of_name hn] at hrest ⊢
      exact .name hn hrest

/-! ## Paths -/

/-- A path to whose place nothing is in the way names this place as long as the directories
stay. -/
theorem KeepsDirectories.place_eq (hk : KeepsDirectories fs fs')
    (hfind : fs.find (fs.place path) = .ok found) : fs'.place path = fs.place path := by
  have hlead := leads_of_open (find_eq_ok_iff.mp hfind).1
  rw [place, hk.cwd]
  exact (hlead.of_keepsDirectories hk).foldl_eq

/-- What is put at a path where no directory was is found there. -/
theorem find_place_put (hfind : fs.find (fs.place path) = .ok found)
    (hfile : ∀ mode, found ≠ some (.directory mode)) (node : FileNode) :
    (fs.put (fs.place path) node).find ((fs.put (fs.place path) node).place path) =
      .ok (some node) := by
  have hnode := node?_of_find hfind
  have hroot : fs.place path ≠ [] := by
    intro hroot
    rw [hroot] at hnode
    exact hfile _ hnode.symm
  have hkeeps := KeepsDirectories.put (fun mode => hnode ▸ hfile mode) node
  rw [hkeeps.place_eq hfind, hkeeps.find_eq hfind, node?_put_self hroot]

/-- A file that has been written at a path is found there. -/
theorem find_of_writeFile {contents : FileContents}
    (h : fs.writeFile (fs.place path) contents = .ok fs') : fs'.find (fs'.place path) =
      .ok (some (.file (fs.modeWritten (fs.place path)) contents)) := by
  obtain ⟨hold, rfl⟩ := writeFile_eq_ok h
  rcases hold with hfind | ⟨mode, old, hfind⟩
  · exact find_place_put hfind nofun _
  · exact find_place_put hfind nofun _

theorem components_eq (path : String) :
    Path.components path = (Path.steps path).filter fun step => !Path.isIdle step := by
  rw [Path.components, Path.steps, List.filter_append, List.filter_filter]
  simp only [Bool.and_self]
  rw [← List.filter_append]
  congr 1
  cases hlast : (Path.pieces path).getLast? with
  | none => rw [List.getLast?_eq_none_iff.mp hlast]; rfl
  | some piece => exact (List.dropLast_append_getLast? piece hlast).symm

/-- A path to whose place nothing is in the way names the place that its text gives. -/
theorem place_eq_of_open (hfind : fs.find (fs.place path) = .ok found) :
    fs.place path = Path.place (Path.absolute fs.cwd path) := by
  have hlead := leads_of_open (find_eq_ok_iff.mp hfind).1
  rw [Path.place, components_eq]
  exact hlead.text_eq.symm

end FileSystem
end SshTunnels
