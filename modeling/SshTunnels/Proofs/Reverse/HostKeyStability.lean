import SshTunnels.Proofs.Key.NewKeys
import SshTunnels.Proofs.Reverse.HostKeyMoments

/-!
# The host key stays

Agents know the server by its host key, across restarts. Calls that load it from one path may be
broken off at any moment, or fail; nobody else writes. Once a call has returned a key, the file holds
this key, no later call writes, and each that the system lets through returns the same key
(`stable_of_calls`). A call that finds a file leaves it as it is, whatever the file holds, and one
that finds none leaves behind the key that it returns.
-/

namespace SshTunnels

/-- A key is loaded from the bytes of a text as it is from the text. -/
theorem PrivateKey.load_ofString (text : String) :
    load (Bytes.ofString text) = loadText text.toList := by
  rw [load, keyText, Bytes.toString?_ofString]
  rfl

namespace HostKeyLoad

open FileSystem

variable {path : String} {fresh : GeneratedKeyPair} {fs₀ fs fs' : FileSystem} {load : HostKeyLoad}
  {bytes : Bytes} {key : PrivateKey} {result : Except HostKeyError PrivateKey}
  {past : List (Option (Except HostKeyError PrivateKey))}

/-- The file at the path holds an encoding of the key. -/
structure Holds (path : String) (fs : FileSystem) (key : PrivateKey) : Prop where
  named : path ≠ ""
  encoded : ∃ bytes, fs.readFile (fs.place path) = .ok bytes ∧ PrivateKey.load bytes = .ok key

/-! ## Reading -/

theorem Holds.found (h : Holds path fs key) : Found path fs := by
  obtain ⟨bytes, hread, -⟩ := h.encoded
  exact ⟨h.named, exists_of_readFile hread⟩

theorem run_succ {steps : Nat} (h : load.result? = none) :
    run path fresh (steps + 1) (fs, load) = run path fresh steps (load.next path fresh fs) := by
  rw [run]
  rintro result rfl
  cases h

theorem run_done (path : String) (fresh : GeneratedKeyPair) (steps : Nat) (fs : FileSystem)
    (result : Except HostKeyError PrivateKey) :
    run path fresh steps (fs, .done result) = (fs, result) := by
  cases steps <;> rfl

/-- A file that is found is read, and its key is the result. -/
theorem hostKey_of_found (h : Found path fs) (fresh : GeneratedKeyPair) :
    hostKey fs (some path) fresh = (fs, match fs.readFile (fs.place path) with
      | .ok bytes => (PrivateKey.load bytes).mapError .key
      | .error code => .error (.io code)) := by
  obtain ⟨hne, hlook⟩ := h
  have hlooked : next path fresh fs .looking = (fs, .reading) := by
    unfold next
    simp only [if_neg hne, hlook]
  have hread : next path fresh fs .reading =
      (fs, match fs.readFile (fs.place path) with
        | .ok bytes => finish (PrivateKey.load bytes)
        | .error code => fail code) := by
    unfold next
    dsimp only
    cases fs.readFile (fs.place path) <;> rfl
  rw [hostKey, run_succ rfl, hlooked, run_succ rfl, hread]
  cases fs.readFile (fs.place path) with
  | ok bytes => exact run_done ..
  | error code => exact run_done ..

theorem Holds.hostKey_eq (h : Holds path fs key) (fresh : GeneratedKeyPair) :
    hostKey fs (some path) fresh = (fs, .ok key) := by
  obtain ⟨bytes, hread, hload⟩ := h.encoded
  rw [hostKey_of_found h.found, hread]
  simp only [hload]
  rfl

/-- To load a file that is found fails exactly if it cannot be read or holds no key. -/
theorem hostKey_fails_iff (h : Found path fs) (fresh : GeneratedKeyPair) :
    (∃ e, (hostKey fs (some path) fresh).2 = .error e) ↔
      (∃ code, fs.readFile (fs.place path) = .error code) ∨
        ∃ bytes e, fs.readFile (fs.place path) = .ok bytes ∧ PrivateKey.load bytes = .error e := by
  rw [hostKey_of_found h]
  cases fs.readFile (fs.place path) with
  | error code => exact ⟨fun _ => .inl ⟨code, rfl⟩, fun _ => ⟨.io code, rfl⟩⟩
  | ok bytes =>
    cases hload : PrivateKey.load bytes with
    | error e =>
      refine ⟨fun _ => .inr ⟨bytes, e, rfl, hload⟩, fun _ => ⟨.key e, ?_⟩⟩
      simp only [hload]
      rfl
    | ok key =>
      simp only [hload]
      constructor
      · rintro ⟨e, heq⟩
        cases heq
      · rintro (⟨code, heq⟩ | ⟨bytes', e, heq, herror⟩)
        · cases heq
        · cases heq
          cases hload.symm.trans herror

/-! ## One call -/

theorem eq_ok_of_finish {loaded : Except SshError PrivateKey}
    (h : (finish loaded).result? = some (.ok key)) : loaded = .ok key := by
  cases loaded with
  | error e => cases h
  | ok key' =>
    cases h
    rfl

/-- A file that has been written and secured holds the key that its text stands for. -/
theorem Wrote.holds_secured (h : Wrote path fs₀ (Bytes.ofString fresh.privateText) fs)
    (hload : PrivateKey.loadText fresh.privateText.toList = .ok key) :
    Holds path (secured path fs (Bytes.ofString fresh.privateText)) key :=
  ⟨h.named, _, readFile_of_find h.find_secured (by decide),
    (PrivateKey.load_ofString _).trans hload⟩

/-- A call that returns a key leaves it in the file. -/
theorem Moment.holds (h : Moment path fresh fs₀ fs load bytes)
    (hresult : load.result? = some (.ok key)) : Holds path fs key := by
  cases h.course with
  | looking => cases hresult
  | reading => cases hresult
  | makingDirectory => cases hresult
  | writing => cases hresult
  | securing => cases hresult
  | failed => cases hresult
  | unsecured => cases hresult
  | read hfound hread => exact ⟨hfound.1, _, hread, eq_ok_of_finish hresult⟩
  | secured hwrote => exact hwrote.holds_secured (eq_ok_of_finish hresult)

/-- A call that finds the key in the file returns it, unless the system fails it. -/
theorem Moment.result_of_holds (h : Moment path fresh fs₀ fs load bytes) (hholds : Holds path fs₀ key)
    (hresult : load.result? = some result) :
    result = .ok key ∨ ∃ code, result = .error (.io code) := by
  have hfound := hholds.found
  obtain ⟨bytes', hread', hload⟩ := hholds.encoded
  cases h.course with
  | looking => cases hresult
  | reading => cases hresult
  | makingDirectory => cases hresult
  | writing => cases hresult
  | securing => cases hresult
  | failed code =>
    cases hresult
    exact .inr ⟨code, rfl⟩
  | unsecured code =>
    cases hresult
    exact .inr ⟨code, rfl⟩
  | read _ hread =>
    cases hread.symm.trans hread'
    rw [hload] at hresult
    cases hresult
    exact .inl rfl
  | secured hwrote => exact absurd hfound hwrote.missing.not_found

/-- A run to the end is a moment, too. -/
theorem Moment.exists_run (h : Moment path fresh fs₀ fs load bytes) (steps : Nat) :
    ∃ bytes', Moment path fresh fs₀ (run path fresh steps (fs, load)).1
      (.done (run path fresh steps (fs, load)).2) bytes' := by
  induction steps generalizing fs load bytes with
  | zero =>
    cases load with
    | done result => exact ⟨bytes, h⟩
    | _ => exact ⟨bytes, h.refused .noSuchFile rfl⟩
  | succ steps ih =>
    cases hload : load.result? with
    | none =>
      rw [run_succ hload]
      exact ih h.step
    | some result =>
      cases load with
      | done result => exact ⟨bytes, h⟩
      | _ => cases hload

/-! ## All calls -/

/-- Calls one after another, by possibly many starts of the server, with a new key at hand each. Of
every call its result is noted, the latest first; a call that was broken off has none. -/
inductive Calls (path : String) (fs₀ : FileSystem) :
    List (Option (Except HostKeyError PrivateKey)) → FileSystem → Prop where
  | none : Calls path fs₀ [] fs₀
  | call {past : List (Option (Except HostKeyError PrivateKey))} {fs fs' : FileSystem}
      {fresh : GeneratedKeyPair} {load : HostKeyLoad} {bytes : Bytes} : Calls path fs₀ past fs →
      Moment path fresh fs fs' load bytes → Calls path fs₀ (load.result? :: past) fs'

/-- An undisturbed call is one of them. -/
theorem Calls.undisturbed (h : Calls path fs₀ past fs) (fresh : GeneratedKeyPair) :
    Calls path fs₀ (some (hostKey fs (some path) fresh).2 :: past)
      (hostKey fs (some path) fresh).1 := by
  have hstart : Moment path fresh fs fs .looking [] := .start
  obtain ⟨bytes, hend⟩ := hstart.exists_run 5
  unfold hostKey
  exact h.call hend

theorem Calls.holds (h : Calls path fs₀ past fs) (hmem : some (.ok key) ∈ past) :
    Holds path fs key := by
  induction h with
  | none => cases hmem
  | call _ hmoment ih =>
    rcases List.mem_cons.mp hmem with heq | hmem
    · exact hmoment.holds heq.symm
    · -- an older key: this call has found its file, and left it alone
      have hholds := ih hmem
      rwa [hmoment.eq_of_found hholds.found]

/-- What is known of the host key after calls. -/
structure Stable (path : String) (past : List (Option (Except HostKeyError PrivateKey)))
    (fs : FileSystem) : Prop where
  /-- A key that was returned is in the file. -/
  kept : ∀ key, some (.ok key) ∈ past → Holds path fs key
  /-- The next call returns it and writes nothing. -/
  returned : ∀ key, some (.ok key) ∈ past → ∀ fresh, hostKey fs (some path) fresh = (fs, .ok key)
  /-- If the next call is disturbed, it still writes nothing and returns no other key. -/
  noOther : ∀ key, some (.ok key) ∈ past → ∀ {fresh fs' load bytes},
    Moment path fresh fs fs' load bytes → fs' = fs ∧
      ∀ result, load.result? = some result → result = .ok key ∨ ∃ code, result = .error (.io code)
  /-- The next call leaves a file that it finds as it is. -/
  untouched : Found path fs → ∀ {fresh fs' load bytes},
    Moment path fresh fs fs' load bytes → fs' = fs
  /-- It fails exactly if this file cannot be read or holds no key. -/
  fails : Found path fs → ∀ fresh, (∃ e, (hostKey fs (some path) fresh).2 = .error e) ↔
    (∃ code, fs.readFile (fs.place path) = .error code) ∨
      ∃ bytes e, fs.readFile (fs.place path) = .ok bytes ∧ PrivateKey.load bytes = .error e
  /-- If it finds none and returns a key, this is the key that is in the file afterwards. -/
  made : ¬ Found path fs → ∀ {fresh fs' load bytes key},
    Moment path fresh fs fs' load bytes → load.result? = some (.ok key) → Holds path fs' key

/-- After any calls, on any files, the host key stays. -/
theorem stable_of_calls (h : Calls path fs₀ past fs) : Stable path past fs where
  kept _ hmem := h.holds hmem
  returned _ hmem fresh := (h.holds hmem).hostKey_eq fresh
  noOther _ hmem _ _ _ _ hmoment :=
    ⟨hmoment.eq_of_found (h.holds hmem).found,
      fun _ hresult => hmoment.result_of_holds (h.holds hmem) hresult⟩
  untouched hfound _ _ _ _ hmoment := hmoment.eq_of_found hfound
  fails hfound fresh := hostKey_fails_iff hfound fresh
  made _ _ _ _ _ _ hmoment hresult := hmoment.holds hresult

/-- The first start writes a key and then fails to change the permissions; the second one reads this
key, and it stays. -/
theorem stable_after_failed_start :
    let seed : Bytes := List.replicate 32 0
    let past := [some (.ok (PrivateKey.ofSeed seed "")), some (.error (.io .permissionDenied))]
    ∃ fs, Calls "/host_key" {} past fs ∧ Stable "/host_key" past fs := by
  intro seed past
  let fresh := GeneratedKeyPair.ofSeed seed 0 "tunnelbridge-host"
  obtain ⟨fs, hwrote⟩ := exists_wrote_root (Bytes.ofString fresh.privateText)
  have hholds : Holds "/host_key" fs (.ofSeed seed "") := by
    refine ⟨hwrote.named, _, readFile_of_find hwrote.find_eq ?_,
      GeneratedKeyPair.load_privateText List.length_replicate 0 "tunnelbridge-host"⟩
    rw [modeWhileWriting_root]
    decide
  have hcalls := (Calls.none.call (hwrote.moment.refused .permissionDenied rfl)).undisturbed fresh
  rw [hholds.hostKey_eq] at hcalls
  exact ⟨fs, hcalls, stable_of_calls hcalls⟩

end HostKeyLoad
end SshTunnels
