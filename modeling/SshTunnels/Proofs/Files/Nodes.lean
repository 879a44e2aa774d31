import SshTunnels.Files.FileSystem
import SshTunnels.Proofs.Lookup

/-!
# What operations on files do

An operation that succeeds puts one node at one place, and it tells what lay there before
(`createFile_eq_ok`, `writeFile_eq_ok`, `setMode_eq_ok`). Directories are made by putting one after
the other, so what every directory made on the way keeps, `makeWay` keeps (`makeWay_induct`).
-/

namespace SshTunnels.FileSystem

variable {fs fs' : FileSystem} {place other : Place} {node : FileNode} {found : Option FileNode}
  {code : OsCode} {mode : Nat} {contents : FileContents} {bytes : Bytes}

/-! ## Nodes -/

@[simp] theorem cwd_put (fs : FileSystem) (place : Place) (node : FileNode) :
    (fs.put place node).cwd = fs.cwd := rfl

@[simp] theorem umask_put (fs : FileSystem) (place : Place) (node : FileNode) :
    (fs.put place node).umask = fs.umask := rfl

theorem node?_put (fs : FileSystem) (place other : Place) (node : FileNode) :
    (fs.put place node).node? other = if other ≠ [] ∧ other = place then some node
      else fs.node? other := by
  unfold node? put
  by_cases hroot : other = []
  · simp [hroot]
  · rw [lookup_cons_eq, lookup_filter_ne]
    by_cases heq : other = place
    · subst heq
      simp [hroot]
    · simp [hroot, heq]

theorem node?_put_of_ne (hne : other ≠ place) : (fs.put place node).node? other = fs.node? other := by
  rw [node?_put, if_neg fun h => hne h.2]

theorem node?_put_self (hroot : place ≠ []) : (fs.put place node).node? place = some node := by
  rw [node?_put, if_pos ⟨hroot, rfl⟩]

/-- At the root lies a directory. -/
theorem ne_root_of_node? (h : fs.node? place = none ∨ ∃ mode contents,
    fs.node? place = some (.file mode contents)) : place ≠ [] := by
  rintro rfl
  rcases h with h | ⟨_, _, h⟩ <;> cases h

/-! ## Permission bits -/

/-- A new file gets the bits asked for, but for those beyond the ninth and those of the umask. -/
theorem testBit_allowed (fs : FileSystem) (mode i : Nat) : (fs.allowed mode).testBit i =
    (mode.testBit i && (decide (i < 9) && !fs.umask.testBit i)) := by
  have hall : (0o777 : Nat).testBit i = decide (i < 9) := Nat.testBit_two_pow_sub_one 9 i
  rw [allowed, Nat.testBit_and, Nat.testBit_xor, Nat.testBit_and, hall]
  cases decide (i < 9) <;> cases fs.umask.testBit i <;> rfl

theorem lt_of_testBit {bits i : Nat} (hbits : bits < 512) (h : bits.testBit i = true) : i < 9 := by
  have hpow : Nat.pow 2 i < Nat.pow 2 9 := Nat.lt_of_le_of_lt (Nat.ge_two_pow_of_testBit h) hbits
  exact (Nat.pow_lt_pow_iff_right (by decide)).mp hpow

/-- Bits that the umask leaves alone are all given. -/
theorem allowed_eq (hmode : mode < 512) (humask : fs.umask &&& mode = 0) :
    fs.allowed mode = mode := by
  refine Nat.eq_of_testBit_eq fun i => ?_
  have hclear := congrArg (·.testBit i) humask
  simp only [Nat.testBit_and, Nat.zero_testBit] at hclear
  rw [testBit_allowed]
  cases hbit : mode.testBit i with
  | false => rfl
  | true =>
    rw [hbit, Bool.and_true] at hclear
    simp [hclear, lt_of_testBit hmode hbit]

/-- A new file gets none of some bits exactly if the umask has those of them that are asked for. -/
theorem allowed_and_eq_zero_iff {bits : Nat} (hbits : bits < 512) :
    fs.allowed mode &&& bits = 0 ↔ fs.umask &&& (mode &&& bits) = mode &&& bits := by
  have hbit (i : Nat) : (fs.allowed mode &&& bits).testBit i = (0 : Nat).testBit i ↔
      (fs.umask &&& (mode &&& bits)).testBit i = (mode &&& bits).testBit i := by
    simp only [Nat.testBit_and, testBit_allowed, Nat.zero_testBit]
    cases hb : bits.testBit i with
    | false => simp
    | true => cases mode.testBit i <;> simp [lt_of_testBit hbits hb]
  exact ⟨fun h => Nat.eq_of_testBit_eq fun i => (hbit i).mp (by rw [h]),
    fun h => Nat.eq_of_testBit_eq fun i => (hbit i).mpr (by rw [h])⟩

/-! ## The way to a place -/

/-- Nothing is in the way exactly if every place above is a directory that is open to search. -/
theorem wayFault?_eq_none_iff : fs.wayFault? place = none ↔ ∀ n < place.length, ∃ mode,
    fs.node? (place.take n) = some (.directory mode) ∧
      (FileNode.directory mode).isSearchable = true := by
  rw [wayFault?, List.findSome?_eq_none_iff]
  refine forall_congr' fun n => ?_
  rw [List.mem_range]
  refine imp_congr_right fun _ => ?_
  cases fs.node? (place.take n) with
  | none => simp
  | some node => cases node <;> simp

theorem find_eq_ok_iff : fs.find place = .ok found ↔
    fs.wayFault? place = none ∧ fs.node? place = found := by
  unfold find
  cases fs.wayFault? place with
  | none => exact ⟨fun h => ⟨rfl, Except.ok.inj h⟩, fun h => congrArg _ h.2⟩
  | some code => exact ⟨nofun, nofun⟩

theorem node?_of_find (h : fs.find place = .ok found) : fs.node? place = found :=
  (find_eq_ok_iff.mp h).2

theorem wayFault?_ne_fileExists (fs : FileSystem) (place : Place) :
    fs.wayFault? place ≠ some .fileExists := by
  intro h
  obtain ⟨n, -, hn⟩ := List.exists_of_findSome?_eq_some h
  split at hn
  · cases hn
  · cases hn
  · split at hn <;> cases hn

/-! ## Operations that succeed -/

theorem add_eq_ok (h : fs.add place node = .ok fs') :
    fs.find place = .ok none ∧ fs' = fs.put place node := by
  unfold add at h
  split at h
  · cases h
  · cases h
  · next hfind =>
    split at h
    · split at h
      · exact ⟨hfind, (Except.ok.inj h).symm⟩
      · cases h
    · cases h

theorem add_eq_fileExists (h : fs.add place node = .error .fileExists) :
    ∃ old, fs.find place = .ok (some old) := by
  unfold add at h
  split at h
  · next code hfind =>
    cases h
    unfold find at hfind
    split at hfind
    · next hway =>
      cases hfind
      exact absurd hway (wayFault?_ne_fileExists fs place)
    · cases hfind
  · next old hfind => exact ⟨old, hfind⟩
  · split at h
    · split at h <;> cases h
    · cases h

theorem addFile_eq_ok (h : fs.addFile place node = .ok fs') :
    fs.find place = .ok none ∧ fs' = fs.put place node := by
  unfold addFile at h
  split at h
  · cases h
  · exact add_eq_ok h

theorem createFile_eq_ok (h : fs.createFile place mode = .ok fs') :
    fs.find place = .ok none ∧ fs' = fs.put place (.file (fs.allowed mode) (.bytes [])) :=
  addFile_eq_ok h

theorem createFile_eq_fileExists (h : fs.createFile place mode = .error .fileExists) :
    ∃ old, fs.find place = .ok (some old) := by
  unfold createFile addFile at h
  split at h
  · have hcode := Except.error.inj h
    cases hway : fs.wayFault? place.dropLast with
    | none =>
      rw [hway] at hcode
      cases hcode
    | some code =>
      rw [hway, Option.getD_some] at hcode
      exact absurd (hcode ▸ hway) (wayFault?_ne_fileExists fs _)
  · exact add_eq_fileExists h

/-- The permission bits of a file after it has been written: its own, or those of a new file. -/
def modeWritten (fs : FileSystem) (place : Place) : Nat :=
  match fs.node? place with
  | some node => node.mode
  | none => fs.allowed 0o666

theorem writeFile_eq_ok (h : fs.writeFile place contents = .ok fs') :
    (fs.find place = .ok none ∨ ∃ mode old, fs.find place = .ok (some (.file mode old))) ∧
      fs' = fs.put place (.file (fs.modeWritten place) contents) := by
  unfold writeFile at h
  split at h
  · cases h
  · next mode old hfind =>
    split at h
    · refine ⟨.inr ⟨mode, old, hfind⟩, ?_⟩
      rw [modeWritten, node?_of_find hfind]
      exact (Except.ok.inj h).symm
    · cases h
  · obtain ⟨hfind, heq⟩ := addFile_eq_ok h
    refine ⟨.inl hfind, ?_⟩
    rw [modeWritten, node?_of_find hfind, heq]
  · obtain ⟨hfind, heq⟩ := addFile_eq_ok h
    refine ⟨.inl hfind, ?_⟩
    rw [modeWritten, node?_of_find hfind, heq]

/-- Whether something can be made at a place does not depend on what is made. -/
theorem addFile_of_ok (h : fs.addFile place node = .ok fs') (node' : FileNode) :
    ∃ fs'', fs.addFile place node' = .ok fs'' := by
  unfold addFile add at h ⊢
  split at h
  · cases h
  · next hlast =>
    rw [if_neg hlast]
    split at h
    · cases h
    · cases h
    · split at h
      · split at h
        · next hwritable => exact ⟨_, if_pos hwritable⟩
        · cases h
      · cases h

/-- Whether a file can be written does not depend on what is written. -/
theorem writeFile_of_ok (h : fs.writeFile place contents = .ok fs') (contents' : FileContents) :
    ∃ fs'', fs.writeFile place contents' = .ok fs'' := by
  unfold writeFile at h ⊢
  split at h
  · cases h
  · split at h
    · next hwritable => exact ⟨_, if_pos hwritable⟩
    · cases h
  · exact addFile_of_ok h _
  · exact addFile_of_ok h _

theorem setMode_eq_ok (h : fs.setMode place mode = .ok fs') :
    ∃ node, fs.find place = .ok (some node) ∧ fs' = fs.put place (node.setMode mode) := by
  unfold setMode at h
  split at h
  · cases h
  · cases h
  · next node hfind => exact ⟨node, hfind, (Except.ok.inj h).symm⟩

theorem readFile_of_find (hfind : fs.find place = .ok (some (.file mode (.bytes bytes))))
    (hmode : mode.testBit 8 = true) : fs.readFile place = .ok bytes := by
  simp only [readFile, hfind, FileNode.isReadable, FileNode.mode, hmode, Bool.not_true,
    Bool.false_eq_true, if_false]

theorem exists_of_readFile (h : fs.readFile place = .ok bytes) : fs.exists? place = .ok true := by
  unfold readFile at h
  split at h
  · cases h
  · cases h
  · next hfind =>
    rw [exists?, hfind]
    rfl

/-! ## Directories -/

/-- What every directory that is made keeps, all directories made on a way keep. -/
theorem makeWay_induct {R : FileSystem → FileSystem → Prop} (hrefl : ∀ fs, R fs fs)
    (htrans : ∀ {a b c}, R a b → R b c → R a c)
    (hmake : ∀ {fs place fs'}, fs.makeDirectory place = .ok fs' → R fs fs')
    (fs : FileSystem) (upward : List String) : R fs (fs.makeWay upward).1 := by
  induction upward with
  | nil => exact hrefl fs
  | cons step upward ih =>
    unfold makeWay
    dsimp only
    split
    · -- the directory above is missing, and made first
      split
      · next fs₁ heq =>
        rw [heq] at ih
        split
        · next hmade => exact htrans ih (hmake hmade)
        · exact ih
      · next fs₁ code heq =>
        rw [heq] at ih
        exact ih
    · split
      · next hmade => exact hmake hmade
      · exact hrefl fs

theorem makeParent_induct {R : FileSystem → FileSystem → Prop} (hrefl : ∀ fs, R fs fs)
    (htrans : ∀ {a b c}, R a b → R b c → R a c)
    (hmake : ∀ {fs place fs'}, fs.makeDirectory place = .ok fs' → R fs fs')
    (fs : FileSystem) (path : String) : R fs (fs.makeParent path).1 := by
  unfold makeParent
  split
  · exact hrefl fs
  · exact hrefl fs
  · exact makeWay_induct hrefl htrans hmake fs _

end SshTunnels.FileSystem
