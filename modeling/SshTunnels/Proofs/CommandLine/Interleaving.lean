import SshTunnels.Proofs.CommandLine.KeyStatements

/-!
# Commands that share a database

A command for tunnels is one statement on the database; a command for keys is several, and what the
other commands do may fall between them. Commands that only read are left out. Take one key command
away: the others then do what they
did, and the tables are what they were, less the rows of that command's key (`without_after`).
-/

namespace SshTunnels

/-- A key command with the identifier of its key, and its next statement. -/
structure KeyTask where
  command : KeyCommand
  key : Uuid
  phase : KeyCommandPhase := .lookingUp

namespace KeyTask

/-- What the command is to do, and under which key. -/
def errand (t : KeyTask) : KeyCommand × Uuid :=
  (t.command, t.key)

/-- The next statement is carried out. -/
def act (now : Timestamp) (db : Database) (t : KeyTask) : KeyTask × Database :=
  ({ t with phase := (t.command.step t.key now db t.phase).1 },
    (t.command.step t.key now db t.phase).2)

/-- The database refuses the next statement, so the command fails. -/
def refuse (e : StoreError) (db : Database) (t : KeyTask) : KeyTask × Database :=
  if t.phase.result?.isSome then (t, db) else ({ t with phase := .done (.error (.store e)) }, db)

end KeyTask

/-- What happens to a database that commands share: a command for tunnels, or the next statement of
the nth key command, which the database may refuse. -/
inductive CommandEvent where
  | add (config : TunnelConfig)
  | enable (tunnel : Uuid) (enabled : Bool)
  | delete (tunnel : Uuid)
  | act (n : Nat) (now : Timestamp)
  | refuse (n : Nat) (e : StoreError)

/-- The key command whose statement it is. -/
def CommandEvent.task? : CommandEvent → Option Nat
  | .act n _ | .refuse n _ => some n
  | _ => none

/-- A database and the key commands that share it. -/
structure CommandHost where
  database : Database := {}
  tasks : List KeyTask := []

namespace CommandHost

/-- A command for tunnels: it is done, or fails and changes nothing. -/
def changed (d : CommandHost) : Except StoreError Database → CommandHost
  | .ok database => { d with database }
  | .error _ => d

/-- A statement of the nth key command, if there is one. -/
def turn (d : CommandHost) (n : Nat) (f : Database → KeyTask → KeyTask × Database) : CommandHost :=
  match d.tasks[n]? with
  | none => d
  | some t => ⟨(f d.database t).2, d.tasks.set n (f d.database t).1⟩

/-- What an event makes of the host. -/
def step (d : CommandHost) : CommandEvent → CommandHost
  | .add config => d.changed (d.database.insertTunnel config)
  | .enable tunnel enabled => d.changed (d.database.setTunnelEnabled tunnel enabled)
  | .delete tunnel => d.changed (d.database.deleteTunnel tunnel)
  | .act n now => d.turn n (KeyTask.act now)
  | .refuse n e => d.turn n (KeyTask.refuse e)

/-- What events make of the host, the latest first. -/
def after (d : CommandHost) : List CommandEvent → CommandHost
  | [] => d
  | e :: h => (d.after h).step e

/-- What happens besides the statements of the nth key command. -/
def others (n : Nat) (h : List CommandEvent) : List CommandEvent :=
  h.filter (·.task? != some n)

/-- The second host is the first one without the nth key command: nothing is stored under its key,
and the other commands stand alike. -/
structure Without (n : Nat) (key : Uuid) (d d' : CommandHost) : Prop where
  database : d'.database = d.database.without key
  tasks : ∀ m, m ≠ n → d'.tasks[m]? = d.tasks[m]?

variable {d d' : CommandHost} {n m : Nat} {key : Uuid} {e : CommandEvent} {h : List CommandEvent}
  {t : KeyTask} {f : Database → KeyTask → KeyTask × Database}

/-! ## Commands stay what they are -/

theorem turn_some (ht : d.tasks[n]? = some t) :
    d.turn n f = ⟨(f d.database t).2, d.tasks.set n (f d.database t).1⟩ := by
  rw [turn, ht]

theorem turn_none (ht : d.tasks[n]? = none) : d.turn n f = d := by
  rw [turn, ht]

theorem tasks_turn_self (ht : d.tasks[n]? = some t) :
    (d.turn n f).tasks[n]? = some (f d.database t).1 := by
  rw [turn_some ht, List.getElem?_set_self']
  simp [ht]

theorem tasks_turn_of_ne (hne : m ≠ n) : (d.turn m f).tasks[n]? = d.tasks[n]? := by
  cases ht : d.tasks[m]? with
  | none => rw [turn_none ht]
  | some t => rw [turn_some ht, List.getElem?_set_ne hne]

@[simp] theorem tasks_changed (change : Except StoreError Database) :
    (d.changed change).tasks = d.tasks := by
  cases change <;> rfl

/-- What others do leaves a key command where it is. -/
theorem tasks_step_of_ne (he : e.task? ≠ some n) : (d.step e).tasks[n]? = d.tasks[n]? := by
  cases e with
  | add | enable | delete => exact congrArg (·[n]?) (tasks_changed _)
  | act | refuse => exact tasks_turn_of_ne fun heq => he (congrArg some heq)

/-- The next statement of a key command keeps its errand. -/
def Steady (f : Database → KeyTask → KeyTask × Database) : Prop :=
  ∀ db t, (f db t).1.errand = t.errand

theorem steady_act (now : Timestamp) : Steady (KeyTask.act now) :=
  fun _ _ => rfl

theorem steady_refuse (e : StoreError) : Steady (KeyTask.refuse e) := by
  intro db t
  rw [KeyTask.refuse]
  split <;> rfl

theorem errands_turn (hf : Steady f) :
    (d.turn n f).tasks.map (·.errand) = d.tasks.map (·.errand) := by
  cases ht : d.tasks[n]? with
  | none => rw [turn_none ht]
  | some t =>
    obtain ⟨hlt, rfl⟩ := List.getElem?_eq_some_iff.mp ht
    have hset : ((d.tasks.map KeyTask.errand).set n (d.tasks[n]).errand) = d.tasks.map (·.errand) := by
      rw [← List.getElem_map KeyTask.errand, List.set_getElem_self]
      simpa using hlt
    rw [turn_some ht, List.map_set, hf, hset]

theorem errands_after (d : CommandHost) (h : List CommandEvent) :
    (d.after h).tasks.map (·.errand) = d.tasks.map (·.errand) := by
  induction h with
  | nil => rfl
  | cons e h ih =>
    refine Eq.trans ?_ ih
    cases e with
    | add | enable | delete => exact congrArg _ (tasks_changed _)
    | act n now => exact errands_turn (steady_act now)
    | refuse n e => exact errands_turn (steady_refuse e)

/-- A key command keeps its errand, whatever happens. -/
theorem task_after (ht : d.tasks[n]? = some t) (h : List CommandEvent) :
    ∃ phase, (d.after h).tasks[n]? = some { t with phase } := by
  have hmap := congrArg (·[n]?) (d.errands_after h)
  simp only [List.getElem?_map, ht, Option.map_some, Option.map_eq_some_iff] at hmap
  obtain ⟨⟨command, key, phase⟩, ht', herrand⟩ := hmap
  cases herrand
  exact ⟨phase, ht'⟩

/-- The keys of the commands are not one another's. -/
theorem keys_ne (hn : (d.tasks.map (·.key)).Nodup) (ht : d.tasks[n]? = some t) (hne : m ≠ n)
    {t' : KeyTask} (ht' : (d.after h).tasks[m]? = some t') : t'.key ≠ t.key := by
  have hmap := congrArg (·[m]?) (d.errands_after h)
  simp only [List.getElem?_map, ht', Option.map_some] at hmap
  obtain ⟨t₀, ht₀, heq⟩ := Option.map_eq_some_iff.mp hmap.symm
  have hkey : t₀.key = t'.key := congrArg Prod.snd heq
  rw [← hkey]
  intro hsame
  have hm : m < (d.tasks.map (·.key)).length := by
    simpa using (List.getElem?_eq_some_iff.mp ht₀).1
  refine hne ((List.getElem?_inj hm hn).mp ?_)
  rw [List.getElem?_map, List.getElem?_map, ht₀, ht, Option.map_some, Option.map_some, hsame]

/-! ## A run without one key command -/

theorem Without.changed (hw : Without n key d d') {change change' : Except StoreError Database}
    (hc : change' = change.map (·.without key)) :
    Without n key (d.changed change) (d'.changed change') := by
  subst hc
  cases change with
  | error e => exact hw
  | ok db => exact ⟨rfl, hw.tasks⟩

/-- A statement of another command does to the tables without the key what it does to the tables. -/
theorem Without.turn (hw : Without n key d d') (hne : m ≠ n)
    (hf : ∀ t, d.tasks[m]? = some t → f (d.database.without key) t =
      ((f d.database t).1, (f d.database t).2.without key)) :
    Without n key (d.turn m f) (d'.turn m f) := by
  cases ht : d.tasks[m]? with
  | none =>
    rw [turn_none ht, turn_none ((hw.tasks m hne).trans ht)]
    exact hw
  | some t =>
    have ht' : d'.tasks[m]? = some t := (hw.tasks m hne).trans ht
    have hstep : f d'.database t = ((f d.database t).1, (f d.database t).2.without key) := by
      rw [hw.database, hf t ht]
    refine ⟨by rw [turn_some ht, turn_some ht', hstep], fun k hk => ?_⟩
    by_cases hkm : m = k
    · subst hkm
      rw [tasks_turn_self ht, tasks_turn_self ht', hstep]
    · rw [tasks_turn_of_ne hkm, tasks_turn_of_ne hkm, hw.tasks k hk]

/-- The command's own statement changes nothing but the rows of its key. -/
theorem Without.own (hw : Without n key d d')
    (hf : ∀ t, d.tasks[n]? = some t → (f d.database t).2.without key = d.database.without key) :
    Without n key (d.turn n f) d' := by
  refine ⟨?_, fun m hm => (hw.tasks m hm).trans (tasks_turn_of_ne (Ne.symm hm)).symm⟩
  cases ht : d.tasks[n]? with
  | none => rw [turn_none ht, hw.database]
  | some t => rw [turn_some ht, hf t ht, hw.database]

theorem snd_refuse (e : StoreError) (db : Database) (t : KeyTask) :
    (KeyTask.refuse e db t).2 = db := by
  rw [KeyTask.refuse]
  split <;> rfl

theorem Without.step_own (hw : Without n key d d') (he : e.task? = some n)
    (ht : d.tasks[n]? = some t) (hkey : t.key = key) : Without n key (d.step e) d' := by
  cases e with
  | add | enable | delete => cases he
  | act m now =>
    cases he
    refine hw.own fun u hu => ?_
    cases ht.symm.trans hu
    subst hkey
    exact (KeyCommand.step_cases t.command t.key now d.database t.phase).without
  | refuse m e =>
    cases he
    exact hw.own fun u _ => by rw [snd_refuse]

theorem Without.step_other (hw : Without n key d d') (he : e.task? ≠ some n)
    (hkeys : ∀ m u, m ≠ n → d.tasks[m]? = some u → u.key ≠ key) :
    Without n key (d.step e) (d'.step e) := by
  cases e with
  | add config =>
    refine hw.changed ?_
    rw [hw.database, Database.insertTunnel_without]
  | enable tunnel enabled =>
    refine hw.changed ?_
    rw [hw.database, Database.setTunnelEnabled_without]
  | delete tunnel =>
    refine hw.changed ?_
    rw [hw.database, Database.deleteTunnel_without]
  | act m now =>
    have hne : m ≠ n := fun heq => he (congrArg some heq)
    refine hw.turn hne fun u hu => ?_
    simp only [KeyTask.act, KeyCommand.step_without (hkeys m u hne hu)]
  | refuse m e =>
    have hne : m ≠ n := fun heq => he (congrArg some heq)
    refine hw.turn hne fun u _ => ?_
    simp only [KeyTask.refuse]
    split <;> rfl

/-- Without a key command whose key is its own, the others do what they did, and the tables are what
they were without the rows of that key. -/
theorem without_after (hn : (d.tasks.map (·.key)).Nodup) (ht : d.tasks[n]? = some t)
    (hfree : d.database.without t.key = d.database) (h : List CommandEvent) :
    Without n t.key (d.after h) (d.after (others n h)) := by
  induction h with
  | nil => exact ⟨hfree.symm, fun _ _ => rfl⟩
  | cons e h ih =>
    by_cases he : e.task? = some n
    · have hothers : others n (e :: h) = others n h := by simp [others, he]
      obtain ⟨phase, ht'⟩ := task_after ht h
      rw [hothers]
      exact ih.step_own he ht' rfl
    · have hothers : others n (e :: h) = e :: others n h := by simp [others, he]
      rw [hothers]
      exact ih.step_other he fun m u hm hu => keys_ne hn ht hm hu

end CommandHost
end SshTunnels
