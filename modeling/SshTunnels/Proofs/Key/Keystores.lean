import SshTunnels.Key.Source
import SshTunnels.Proofs.Lookup
import SshTunnels.Proofs.Store.Changes
import SshTunnels.Proofs.Store.KeyTable

/-!
# Key stores

Keys are kept in memory or in the store. Asked the same, in any order, the two hold the same contents
at every moment, namely what was set last and not deleted since (`held?`), and they give the same
answers, but for one: to delete a key that is not there is done in memory and a fault in the store
(`inStep_of_run`).
-/

namespace SshTunnels

/-- What is asked of a key store. -/
inductive KeystoreCall where
  | get (key : Uuid)
  | set (now : Timestamp) (key : Uuid) (contents : Bytes)
  | delete (key : Uuid)

/-- What a key store answers. -/
inductive KeystoreAnswer where
  | found (result : Except TunnelError Bytes)
  | changed (result : Except TunnelError Unit)
  deriving DecidableEq

/-- A call to two key stores, with the answers. -/
structure KeystoreRecord where
  call : KeystoreCall
  inMemory : KeystoreAnswer
  inStore : KeystoreAnswer

/-- The key store in memory: what it answers to a call, and what the call makes of it. -/
def MemoryKeys.keystoreCall (m : MemoryKeys) : KeystoreCall → KeystoreAnswer × MemoryKeys
  | .get key => (.found (m.get key), m)
  | .set _ key contents => (.changed (.ok ()), m.set key contents)
  | .delete key => (.changed (.ok ()), m.delete key)

/-- The key store in the database: what it answers to a call, and what the call makes of it. -/
def Store.keystoreCall (s : Store) : KeystoreCall → KeystoreAnswer × Store
  | .get key => (.found (s.getKey key), s)
  | .set now key contents =>
    let (result, s) := s.setKey now key contents
    (.changed (result.mapError .store), s)
  | .delete key =>
    let (result, s) := s.deleteKey key
    (.changed (result.mapError .store), s)

namespace Keystores

/-- The contents that a key has after these calls, the latest first: what was set last, unless the key
was deleted since. -/
def held? (key : Uuid) : List KeystoreRecord → Option Bytes
  | [] => none
  | ⟨.get _, _, _⟩ :: h => held? key h
  | ⟨.set _ k contents, _, _⟩ :: h => if key = k then some contents else held? key h
  | ⟨.delete k, _, _⟩ :: h => if key = k then none else held? key h

/-- `Run h m s`: the calls of `h`, the latest first, were answered as it says and have brought an
empty key store in memory to `m` and an open store without keys to `s`. -/
inductive Run : List KeystoreRecord → MemoryKeys → Store → Prop where
  | start {s : Store} : s.isClosed = false → s.database.keys = [] → Run [] {} s
  | next {h : List KeystoreRecord} {m : MemoryKeys} {s : Store} (call : KeystoreCall) : Run h m s →
      Run (⟨call, (m.keystoreCall call).1, (s.keystoreCall call).1⟩ :: h) (m.keystoreCall call).2
        (s.keystoreCall call).2

variable {h : List KeystoreRecord} {m : MemoryKeys} {s : Store}

/-! ## What is held -/

theorem setKey_of_open (hs : s.isClosed = false) (now : Timestamp) (key : Uuid)
    (contents : Bytes) : s.setKey now key contents = (.ok (), { s with
      database := s.database.putKey now key (Store.kindOfContents contents) contents }) := by
  rw [Store.setKey, Store.write, Store.read_of_open hs]

theorem deleteKey_of_none (hs : s.isClosed = false) {key : Uuid}
    (hkey : s.database.key? key = none) :
    s.deleteKey key = (.error (.keyNotFound key), s) := by
  rw [Store.deleteKey, Store.write, Store.read_of_open hs, Database.deleteKey, hkey]

theorem deleteKey_of_some (hs : s.isClosed = false) {key : Uuid} {k : StoredKey}
    (hkey : s.database.key? key = some k) : s.deleteKey key = (.ok (), { s with
      database := { s.database with
        keys := s.database.keys.filter (·.id != key)
        authorizations := s.database.authorizations.filter (·.key != key) } }) := by
  rw [Store.deleteKey, Store.write, Store.read_of_open hs, Database.deleteKey, hkey]

/-- Both key stores hold what the calls say. -/
structure Holding (h : List KeystoreRecord) (m : MemoryKeys) (s : Store) : Prop where
  isOpen : s.isClosed = false
  inMemory : ∀ key, m.contents.lookup key = held? key h
  inStore : ∀ key, (s.database.key? key).map (·.contents) = held? key h

theorem Holding.set (hh : Holding h m s) (now : Timestamp) (key : Uuid) (contents : Bytes) :
    Holding (⟨.set now key contents, (m.keystoreCall (.set now key contents)).1,
        (s.keystoreCall (.set now key contents)).1⟩ :: h)
      (m.keystoreCall (.set now key contents)).2 (s.keystoreCall (.set now key contents)).2 := by
  simp only [Store.keystoreCall, setKey_of_open hh.isOpen]
  refine ⟨hh.isOpen, fun k => ?_, fun k => ?_⟩
  · simp only [MemoryKeys.keystoreCall, MemoryKeys.set, lookup_cons_eq,
      lookup_filter_ne, held?, hh.inMemory]
    split <;> rfl
  · rw [Database.key?_putKey, held?, ← hh.inStore]
    split <;> rfl

theorem Holding.delete (hh : Holding h m s) (key : Uuid) :
    Holding (⟨.delete key, (m.keystoreCall (.delete key)).1, (s.keystoreCall (.delete key)).1⟩ :: h)
      (m.keystoreCall (.delete key)).2 (s.keystoreCall (.delete key)).2 := by
  have hmemory : ∀ k, (m.delete key).contents.lookup k = if k = key then none else held? k h := by
    intro k
    rw [MemoryKeys.delete, lookup_filter_ne, hh.inMemory]
  cases hkey : s.database.key? key with
  | none =>
    simp only [Store.keystoreCall, deleteKey_of_none hh.isOpen hkey]
    refine ⟨hh.isOpen, hmemory, fun k => ?_⟩
    rw [held?, hh.inStore]
    split
    · next heq =>
      rw [heq, ← hh.inStore, hkey, Option.map_none]
    · rfl
  | some old =>
    simp only [Store.keystoreCall, deleteKey_of_some hh.isOpen hkey]
    refine ⟨hh.isOpen, hmemory, fun k => ?_⟩
    rw [Database.key?, Database.find?_filter_id, held?, ← hh.inStore]
    split <;> rfl

theorem Run.holding (hr : Run h m s) : Holding h m s := by
  induction hr with
  | start hopen hkeys =>
    refine ⟨hopen, fun key => rfl, fun key => ?_⟩
    rw [Database.key?, hkeys]
    rfl
  | next call _ ih =>
    cases call with
    | get key => exact ⟨ih.isOpen, ih.inMemory, ih.inStore⟩
    | set now key contents => exact ih.set now key contents
    | delete key => exact ih.delete key

/-! ## What is answered -/

theorem Holding.get (hh : Holding h m s) (key : Uuid) :
    m.get key = (held? key h).elim (.error (.keyNotFound key)) .ok := by
  rw [MemoryKeys.get, hh.inMemory]
  cases held? key h <;> rfl

theorem Holding.getKey (hh : Holding h m s) (key : Uuid) :
    s.getKey key = (held? key h).elim (.error (.keyNotFound key)) .ok := by
  rw [Store.getKey, Store.read_of_open hh.isOpen, hh.inStore]
  cases held? key h <;> rfl

/-- The store fails to delete a key that is not there. -/
theorem Holding.deleteKey (hh : Holding h m s) (key : Uuid) :
    (s.keystoreCall (.delete key)).1 = .changed
      (if (held? key h).isSome then .ok () else .error (.store (.keyNotFound key))) := by
  have hheld := hh.inStore key
  cases hkey : s.database.key? key with
  | none =>
    rw [hkey, Option.map_none] at hheld
    simp only [Store.keystoreCall, deleteKey_of_none hh.isOpen hkey, ← hheld]
    rfl
  | some old =>
    rw [hkey, Option.map_some] at hheld
    simp only [Store.keystoreCall, deleteKey_of_some hh.isOpen hkey, ← hheld]
    rfl

/-- The two key stores differ in the answer to one call only. -/
theorem Holding.answers_eq_iff (hh : Holding h m s) (call : KeystoreCall) :
    (m.keystoreCall call).1 = (s.keystoreCall call).1 ↔
      ∀ key, call = .delete key → (held? key h).isSome = true := by
  cases call with
  | get key =>
    refine iff_of_true ?_ nofun
    simp only [MemoryKeys.keystoreCall, Store.keystoreCall, hh.get, hh.getKey]
  | set now key contents =>
    refine iff_of_true ?_ nofun
    simp only [MemoryKeys.keystoreCall, Store.keystoreCall, setKey_of_open hh.isOpen]
    rfl
  | delete key =>
    rw [hh.deleteKey key, MemoryKeys.keystoreCall]
    constructor
    · rintro heq _ ⟨⟩
      by_contra hnone
      rw [if_neg hnone] at heq
      cases heq
    · intro hall
      rw [if_pos (hall key rfl)]

/-- Every call of a run was answered by what the calls before it had made of the key stores. -/
theorem Run.answered (hr : Run h m s) {later earlier : List KeystoreRecord} {r : KeystoreRecord}
    (heq : h = later ++ r :: earlier) : ∃ m' s', Run earlier m' s' ∧
      r.inMemory = (m'.keystoreCall r.call).1 ∧ r.inStore = (s'.keystoreCall r.call).1 := by
  induction hr generalizing later with
  | start _ _ => exact absurd heq.symm (List.append_ne_nil_of_right_ne_nil _ (List.cons_ne_nil _ _))
  | @next h m s call hrun ih =>
    cases later with
    | nil =>
      cases heq
      exact ⟨m, s, hrun, rfl, rfl⟩
    | cons _ later =>
      rw [List.cons_append, List.cons.injEq] at heq
      exact ih heq.2

/-! ## The law of the calls -/

/-- Two key stores that have had the calls of `h` are in step. -/
structure InStep (h : List KeystoreRecord) (m : MemoryKeys) (s : Store) : Prop where
  /-- They give the same contents of every key, or the same fault. -/
  same : ∀ key, m.get key = s.getKey key
  /-- The contents are those that were set last. -/
  held : ∀ key, m.get key = (held? key h).elim (.error (.keyNotFound key)) .ok
  /-- They gave the same answer to a call, unless it was to delete a key that was not there. -/
  answers : ∀ later r earlier, h = later ++ r :: earlier → (r.inMemory = r.inStore ↔
    ∀ key, r.call = .delete key → (held? key earlier).isSome = true)
  /-- That is done in memory and a fault in the store. -/
  differing : ∀ later r earlier key, h = later ++ r :: earlier → r.call = .delete key →
    held? key earlier = none → r.inMemory = .changed (.ok ()) ∧
      r.inStore = .changed (.error (.store (.keyNotFound key)))

/-- Two key stores that start without keys are in step after any calls. -/
theorem inStep_of_run (hr : Run h m s) : InStep h m s where
  same key := (hr.holding.get key).trans (hr.holding.getKey key).symm
  held := hr.holding.get
  answers later r earlier heq := by
    obtain ⟨m', s', hrun, hmemory, hstore⟩ := hr.answered heq
    rw [hmemory, hstore]
    exact hrun.holding.answers_eq_iff r.call
  differing later r earlier key heq hcall hnone := by
    obtain ⟨m', s', hrun, hmemory, hstore⟩ := hr.answered heq
    rw [hmemory, hstore, hcall, hrun.holding.deleteKey, hnone]
    exact ⟨rfl, rfl⟩

/-- A key without contents is set, set anew, read and deleted: both key stores find it empty. -/
theorem empty_key_held : ∃ h m s, Run h m s ∧ InStep h m s ∧
    held? (.ofNat 7) h = some [] ∧ s.getKey (.ofNat 7) = .ok [] := by
  have h₁ := (Run.start (s := {}) rfl rfl).next (.set ⟨0, 0⟩ (.ofNat 7) [1])
  have h₂ := h₁.next (.set ⟨60, 0⟩ (.ofNat 8) [2])
  have h₃ := h₂.next (.delete (.ofNat 8))
  have h₄ := h₃.next (.set ⟨120, 0⟩ (.ofNat 7) [])
  have hstep := inStep_of_run h₄
  refine ⟨_, _, _, h₄, hstep, by decide +kernel, ?_⟩
  rw [← hstep.same, hstep.held]
  decide +kernel

/-- A key that is not there is deleted: in memory that is done, in the store it fails. -/
theorem absent_key_deleted : ∃ h m s, Run h m s ∧ ∃ r ∈ h, r.call = .delete (.ofNat 7) ∧
    r.inMemory = .changed (.ok ()) ∧
    r.inStore = .changed (.error (.store (.keyNotFound (.ofNat 7)))) :=
  ⟨_, _, _, (Run.start (s := {}) rfl rfl).next (.delete (.ofNat 7)), _, List.mem_singleton_self _,
    rfl, rfl, rfl⟩

end Keystores
end SshTunnels
