import SshTunnels.Proofs.Files.Growth
import SshTunnels.Reverse.HostKey

/-!
# The host key's file, moment by moment

A loading of the host key can be watched, or broken off, at any moment. Between its steps there is
more to see than the steps tell: the system may refuse any of them, directories are made one after
the other, and of a text the first bytes are in the file before the others (`Moment`). Wherever it
is broken off, a loading that finds a file leaves the files as they are, and one that finds none has
written into the one file at its path (`Moment.course`).
-/

namespace SshTunnels.HostKeyLoad

open FileSystem

variable {path : String} {fresh : GeneratedKeyPair} {fs₀ fs fs' : FileSystem} {load : HostKeyLoad}
  {bytes : Bytes} {code : OsCode}

/-! ## Moments -/

/-- The result of a loading that has ended. -/
def result? : HostKeyLoad → Option (Except HostKeyError PrivateKey)
  | .done result => some result
  | _ => none

/-- What a loading has written of its key: all of it, as soon as it turns to the permissions. -/
def written (before : Bytes) : HostKeyLoad → Bytes
  | .securing key => Bytes.ofString key.privateText
  | _ => before

/-- The moments of a loading: the files, where the loading stands, and what it has written so far. A
loading that is broken off in the midst of a step ends with a failure. -/
inductive Moment (path : String) (fresh : GeneratedKeyPair) (fs₀ : FileSystem) :
    FileSystem → HostKeyLoad → Bytes → Prop where
  | start : Moment path fresh fs₀ fs₀ .looking []
  /-- A step is taken. -/
  | step {fs : FileSystem} {load : HostKeyLoad} {bytes : Bytes} :
      Moment path fresh fs₀ fs load bytes →
      Moment path fresh fs₀ (load.next path fresh fs).1 (load.next path fresh fs).2
        ((load.next path fresh fs).2.written bytes)
  /-- The step is refused. -/
  | refused {fs : FileSystem} {load : HostKeyLoad} {bytes : Bytes} (code : OsCode) :
      Moment path fresh fs₀ fs load bytes → load.result? = none →
      Moment path fresh fs₀ fs (fail code) bytes
  /-- Directories have been made, and more are to be made. -/
  | onTheWay {fs : FileSystem} {key : GeneratedKeyPair} {bytes : Bytes} (upward : List String)
      (code : OsCode) : Moment path fresh fs₀ fs (.makingDirectory key) bytes →
      Moment path fresh fs₀ (fs.makeWay upward).1 (fail code) bytes
  /-- The first bytes of the text have been written. -/
  | inPart {fs fs' : FileSystem} {key : GeneratedKeyPair} {bytes : Bytes} (n : Nat)
      (code : OsCode) : Moment path fresh fs₀ fs (.writing key) bytes → path ≠ "" →
      fs.writeFile (fs.place path) (.bytes ((Bytes.ofString key.privateText).take n)) = .ok fs' →
      Moment path fresh fs₀ fs' (fail code) ((Bytes.ofString key.privateText).take n)

/-- What is seen of a loading step by step are moments of it. -/
theorem Moment.exists_of_mem_trace {steps : Nat} {m : FileSystem × HostKeyLoad}
    (h : Moment path fresh fs₀ fs load bytes) (hm : m ∈ trace path fresh steps (fs, load)) :
    ∃ bytes, Moment path fresh fs₀ m.1 m.2 bytes := by
  induction steps generalizing fs load bytes with
  | zero =>
    cases List.mem_singleton.mp hm
    exact ⟨bytes, h⟩
  | succ steps ih =>
    rcases List.mem_cons.mp hm with rfl | hm
    · exact ⟨bytes, h⟩
    · exact ih h.step hm

/-! ## What a loading has done by a moment -/

/-- The look finds something. -/
def Found (path : String) (fs : FileSystem) : Prop :=
  path ≠ "" ∧ fs.exists? (fs.place path) = .ok true

/-- The look finds that there is nothing. -/
def Missing (path : String) (fs : FileSystem) : Prop :=
  path = "" ∨ fs.exists? (fs.place path) = .ok false

theorem Missing.not_found (h : Missing path fs) : ¬ Found path fs := by
  rintro ⟨hne, htrue⟩
  rcases h with heq | hfalse
  · exact hne heq
  · rw [htrue] at hfalse
    cases hfalse

/-- These bytes have been written into the file at the path, which the look had not found. -/
structure Wrote (path : String) (fs₀ : FileSystem) (bytes : Bytes) (fs : FileSystem) : Prop where
  missing : Missing path fs₀
  named : path ≠ ""
  made : (fs₀.makeParent path).2 = none
  wrote : (fs₀.makeParent path).1.writeFile ((fs₀.makeParent path).1.place path) (.bytes bytes) =
    .ok fs

/-- The permission bits of the key's file from the writing on. -/
def modeWhileWriting (path : String) (fs : FileSystem) : Nat :=
  (fs.makeParent path).1.modeWritten ((fs.makeParent path).1.place path)

/-- The files after the permissions of others have been taken from the key's file. -/
def secured (path : String) (fs : FileSystem) (bytes : Bytes) : FileSystem :=
  fs.put (fs.place path) (.file privateMode (.bytes bytes))

namespace Wrote

/-- The file at the path is there, and holds what has been written. -/
theorem find_eq (h : Wrote path fs₀ bytes fs) : fs.find (fs.place path) =
    .ok (some (.file (modeWhileWriting path fs₀) (.bytes bytes))) :=
  find_of_writeFile h.wrote

theorem node?_eq (h : Wrote path fs₀ bytes fs) : fs.node? (fs.place path) =
    some (.file (modeWhileWriting path fs₀) (.bytes bytes)) :=
  node?_of_find h.find_eq

/-- The permissions of others can be taken away from the file. -/
theorem setMode_eq (h : Wrote path fs₀ bytes fs) :
    fs.setMode (fs.place path) privateMode = .ok (secured path fs bytes) := by
  rw [setMode, h.find_eq]
  rfl

/-- Then it is still at the path, and holds the same. -/
theorem find_secured (h : Wrote path fs₀ bytes fs) :
    (secured path fs bytes).find ((secured path fs bytes).place path) =
      .ok (some (.file privateMode (.bytes bytes))) :=
  find_place_put h.find_eq nofun _

end Wrote

/-- What a loading has done by a moment. -/
inductive Course (path : String) (fresh : GeneratedKeyPair) (fs₀ : FileSystem) :
    FileSystem → HostKeyLoad → Bytes → Prop where
  | looking : Course path fresh fs₀ fs₀ .looking []
  | reading : Found path fs₀ → Course path fresh fs₀ fs₀ .reading []
  | read {bytes : Bytes} : Found path fs₀ → fs₀.readFile (fs₀.place path) = .ok bytes →
      Course path fresh fs₀ fs₀ (finish (PrivateKey.load bytes)) []
  | makingDirectory : Missing path fs₀ → Course path fresh fs₀ fs₀ (.makingDirectory fresh) []
  | writing : Missing path fs₀ → (fs₀.makeParent path).2 = none →
      Course path fresh fs₀ (fs₀.makeParent path).1 (.writing fresh) []
  | failed {fs : FileSystem} (code : OsCode) : (Found path fs₀ → fs = fs₀) →
      Course path fresh fs₀ fs (fail code) []
  | securing {fs : FileSystem} : Wrote path fs₀ (Bytes.ofString fresh.privateText) fs →
      Course path fresh fs₀ fs (.securing fresh) (Bytes.ofString fresh.privateText)
  | unsecured {fs : FileSystem} {bytes : Bytes} (code : OsCode) : Wrote path fs₀ bytes fs →
      Course path fresh fs₀ fs (fail code) bytes
  | secured {fs : FileSystem} : Wrote path fs₀ (Bytes.ofString fresh.privateText) fs →
      Course path fresh fs₀ (HostKeyLoad.secured path fs (Bytes.ofString fresh.privateText))
        (finish (PrivateKey.loadText fresh.privateText.toList)) (Bytes.ofString fresh.privateText)

namespace Course

/-- If the look finds nothing, a failure may leave any files. -/
theorem failed_of_missing (hmissing : Missing path fs₀) (code : OsCode) :
    Course path fresh fs₀ fs (fail code) [] :=
  .failed code fun hfound => absurd hfound hmissing.not_found

/-- After the step the loading is still on its course. -/
def StaysOn (path : String) (fresh : GeneratedKeyPair) (fs₀ fs : FileSystem) (load : HostKeyLoad)
    (bytes : Bytes) : Prop :=
  Course path fresh fs₀ (load.next path fresh fs).1 (load.next path fresh fs).2
    ((load.next path fresh fs).2.written bytes)

theorem step_looking : StaysOn path fresh fs₀ fs₀ .looking [] := by
  unfold StaysOn next
  dsimp only
  split
  · next heq => exact .makingDirectory (.inl heq)
  · next hne =>
    split
    · next hlook => exact .reading ⟨hne, hlook⟩
    · next hlook => exact .makingDirectory (.inr hlook)
    · exact .failed _ fun _ => rfl

theorem step_reading (hfound : Found path fs₀) : StaysOn path fresh fs₀ fs₀ .reading [] := by
  unfold StaysOn next
  dsimp only
  split
  · next hread => exact .read hfound hread
  · exact .failed _ fun _ => rfl

theorem step_makingDirectory (hmissing : Missing path fs₀) :
    StaysOn path fresh fs₀ fs₀ (.makingDirectory fresh) [] := by
  unfold StaysOn next
  dsimp only
  split
  · next fs hmade =>
    have hwriting : Course path fresh fs₀ (fs₀.makeParent path).1 (.writing fresh) [] :=
      .writing hmissing (by rw [hmade])
    rwa [hmade] at hwriting
  · exact failed_of_missing hmissing _

theorem step_writing (hmissing : Missing path fs₀) (hmade : (fs₀.makeParent path).2 = none) :
    StaysOn path fresh fs₀ (fs₀.makeParent path).1 (.writing fresh) [] := by
  unfold StaysOn next
  dsimp only
  split
  · exact failed_of_missing hmissing _
  · next hne =>
    split
    · next hwrote => exact .securing ⟨hmissing, hne, hmade, hwrote⟩
    · exact failed_of_missing hmissing _

theorem step_securing (hwrote : Wrote path fs₀ (Bytes.ofString fresh.privateText) fs) :
    StaysOn path fresh fs₀ fs (.securing fresh) (Bytes.ofString fresh.privateText) := by
  unfold StaysOn next
  simp only [hwrote.setMode_eq]
  exact .secured hwrote

theorem staysOn (h : Course path fresh fs₀ fs load bytes) :
    StaysOn path fresh fs₀ fs load bytes := by
  cases h with
  | looking => exact step_looking
  | reading hfound => exact step_reading hfound
  | read hfound hread => exact Course.read hfound hread
  | makingDirectory hmissing => exact step_makingDirectory hmissing
  | writing hmissing hmade => exact step_writing hmissing hmade
  | failed code hsame => exact Course.failed code hsame
  | securing hwrote => exact step_securing hwrote
  | unsecured code hwrote => exact Course.unsecured code hwrote
  | secured hwrote => exact Course.secured hwrote

theorem refused (h : Course path fresh fs₀ fs load bytes) (hresult : load.result? = none)
    (code : OsCode) : Course path fresh fs₀ fs (fail code) bytes := by
  cases h with
  | looking => exact .failed code fun _ => rfl
  | reading => exact .failed code fun _ => rfl
  | makingDirectory => exact .failed code fun _ => rfl
  | writing hmissing => exact failed_of_missing hmissing code
  | securing hwrote => exact .unsecured code hwrote
  | read => cases hresult
  | failed => cases hresult
  | unsecured => cases hresult
  | secured => cases hresult

end Course

/-- Every moment of a loading lies on its course. -/
theorem Moment.course (h : Moment path fresh fs₀ fs load bytes) :
    Course path fresh fs₀ fs load bytes := by
  induction h with
  | start => exact .looking
  | step _ ih => exact ih.staysOn
  | refused code _ hresult ih => exact ih.refused hresult code
  | onTheWay upward code _ ih =>
    cases ih with
    | makingDirectory hmissing => exact .failed_of_missing hmissing code
  | inPart n code _ hne hwrote ih =>
    cases ih with
    | writing hmissing hmade => exact .unsecured code ⟨hmissing, hne, hmade, hwrote⟩

/-- A loading that finds a file changes no files. -/
theorem Moment.eq_of_found (h : Moment path fresh fs₀ fs load bytes) (hfound : Found path fs₀) :
    fs = fs₀ := by
  cases h.course with
  | looking => rfl
  | reading => rfl
  | read => rfl
  | makingDirectory => rfl
  | failed _ hsame => exact hsame hfound
  | writing hmissing => exact absurd hfound hmissing.not_found
  | securing hwrote => exact absurd hfound hwrote.missing.not_found
  | unsecured _ hwrote => exact absurd hfound hwrote.missing.not_found
  | secured hwrote => exact absurd hfound hwrote.missing.not_found

/-! ## The moment after the writing -/

theorem next_looking (hne : path ≠ "") (hmissing : Missing path fs) :
    next path fresh fs .looking = (fs, .makingDirectory fresh) := by
  unfold next
  simp only [if_neg hne, hmissing.resolve_left hne]

theorem next_makingDirectory (hmade : (fs.makeParent path).2 = none) :
    next path fresh fs (.makingDirectory fresh) = ((fs.makeParent path).1, .writing fresh) := by
  cases heq : fs.makeParent path with
  | mk made fault =>
    rw [heq] at hmade
    cases hmade
    unfold next
    simp only [heq]

/-- If the key can be written, there is a moment at which it has been. -/
theorem Wrote.moment (h : Wrote path fs₀ (Bytes.ofString fresh.privateText) fs) :
    Moment path fresh fs₀ fs (.securing fresh) (Bytes.ofString fresh.privateText) := by
  have hstart : Moment path fresh fs₀ fs₀ .looking [] := .start
  have hlooked := hstart.step
  rw [next_looking h.named h.missing] at hlooked
  have hmade := hlooked.step
  rw [next_makingDirectory h.made] at hmade
  have hwritten := hmade.step
  unfold next at hwritten
  simp only [if_neg h.named, h.wrote] at hwritten
  exact hwritten

/-- If some bytes can be written, others can be written as well. -/
theorem Wrote.exists (h : Wrote path fs₀ bytes fs) (bytes' : Bytes) :
    ∃ fs', Wrote path fs₀ bytes' fs' := by
  obtain ⟨fs', hwrote⟩ := writeFile_of_ok h.wrote (.bytes bytes')
  exact ⟨fs', h.missing, h.named, h.made, hwrote⟩

/-- In an empty tree a key's file can be made at the root, with the bits that the usual umask
leaves. -/
theorem exists_wrote_root (bytes : Bytes) : ∃ fs, Wrote "/host_key" {} bytes fs := by
  have hempty : Wrote "/host_key" {} [] ⟨[(["host_key"], .file 0o644 (.bytes []))], "/", 0o022⟩ :=
    ⟨.inr (by decide +kernel), by decide, by decide +kernel, by decide +kernel⟩
  exact hempty.exists bytes

theorem modeWhileWriting_root : modeWhileWriting "/host_key" {} = 0o644 := by
  decide +kernel

end SshTunnels.HostKeyLoad
