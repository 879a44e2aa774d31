import SshTunnels.Proofs.CommandLine.Interleaving
import SshTunnels.Proofs.Store.Authorizations
import SshTunnels.Proofs.Store.TunnelTable

/-!
# Key commands and what they leave behind

What other commands do may fall between the statements of a key command. If the command succeeds, its
key is stored, and authorized for the tunnel under the tunnel's kind at that moment. If it fails at
its first or second statement, the tables of keys and authorizations are what they would be without
it. If it fails at the third, which happens if the tunnel was deleted since it was looked up or the
database refuses the statement, they are so but for the key: it is stored already, and it stays
(`allOrNothing_of_run`, `stranded_key_kept`).
-/

namespace SshTunnels.CommandHost

/-! ## What a history says -/

/-- The next statement of the nth key command. -/
def phase? (d : CommandHost) (n : Nat) : Option KeyCommandPhase :=
  d.tasks[n]?.map (·.phase)

/-- What has happened since the nth key command looked its tunnel up. -/
def sinceLookup (n : Nat) : List CommandEvent → List CommandEvent
  | [] => []
  | e :: h => if h.any (·.task? == some n) then e :: sinceLookup n h else []

/-- The nth key command has stored its key: its third statement was next at some time. -/
def HasStored (d : CommandHost) (n : Nat) : List CommandEvent → Prop
  | [] => False
  | e :: h => (∃ kind printed, (d.after (e :: h)).phase? n = some (.authorizing kind printed)) ∨
      d.HasStored n h

/-- The identifiers that tunnels have, or may have got. -/
def issued (d : CommandHost) : List CommandEvent → List Uuid
  | [] => d.database.tunnels.map (·.id)
  | .add config :: h => config.id :: d.issued h
  | _ :: h => d.issued h

/-- All key commands are yet to begin, and no identifier is given twice: neither to a tunnel nor to a
key. -/
structure Fresh (d : CommandHost) (h : List CommandEvent) : Prop where
  waiting : ∀ t ∈ d.tasks, t.phase = .lookingUp
  tunnels : (d.issued h).Nodup
  keys : (d.database.keys.map (·.id) ++ d.tasks.map (·.key)).Nodup
  authorizations : ∀ a ∈ d.database.authorizations, a.key ∈ d.database.keys.map (·.id)

variable {d : CommandHost} {n : Nat} {t : KeyTask} {e : CommandEvent} {h : List CommandEvent}
  {kind : TunnelKind} {tunnel : Uuid}

theorem issued_of_cons (hn : (d.issued (e :: h)).Nodup) : (d.issued h).Nodup := by
  cases e with
  | add config => exact (List.nodup_cons.mp hn).2
  | _ => exact hn

theorem Fresh.of_cons (hf : d.Fresh (e :: h)) : d.Fresh h :=
  { hf with tunnels := issued_of_cons hf.tunnels }

theorem Fresh.apart (hf : d.Fresh h) : (d.tasks.map (·.key)).Nodup :=
  (List.nodup_append.mp hf.keys).2.1

theorem Fresh.without_key (hf : d.Fresh h) (ht : d.tasks[n]? = some t) :
    d.database.without t.key = d.database := by
  have hmem : t.key ∈ d.tasks.map (·.key) := List.mem_map_of_mem (List.mem_of_getElem? ht)
  have hnot : t.key ∉ d.database.keys.map (·.id) := fun hin =>
    (List.nodup_append.mp hf.keys).2.2 _ hin _ hmem rfl
  rw [Database.without_eq_self_iff]
  refine ⟨?_, fun a ha heq => hnot (heq ▸ hf.authorizations a ha)⟩
  rw [Database.key?, List.find?_eq_none]
  intro k hk heq
  exact hnot (List.mem_map.mpr ⟨k, hk, by simpa using heq⟩)

theorem sinceLookup_first (hnone : ∀ x ∈ h, x.task? ≠ some n) : sinceLookup n (e :: h) = [] := by
  rw [sinceLookup, if_neg]
  simpa using hnone

theorem sinceLookup_cons (hbegun : ∃ x ∈ h, x.task? = some n) :
    sinceLookup n (e :: h) = e :: sinceLookup n h := by
  rw [sinceLookup, if_pos]
  simpa using hbegun

/-! ## The tunnel, once looked up -/

theorem tunnels_turn {f : Database → KeyTask → KeyTask × Database}
    (hf : ∀ db t, (f db t).2.tunnels = db.tunnels) :
    (d.turn n f).database.tunnels = d.database.tunnels := by
  cases ht : d.tasks[n]? with
  | none => rw [turn_none ht]
  | some t => rw [turn_some ht, hf]

theorem tunnels_act (now : Timestamp) (db : Database) (t : KeyTask) :
    (t.act now db).2.tunnels = db.tunnels :=
  (KeyCommand.step_cases t.command t.key now db t.phase).tunnels

theorem tunnels_refuse (e : StoreError) (db : Database) (t : KeyTask) :
    (t.refuse e db).2.tunnels = db.tunnels := by
  rw [snd_refuse]

/-- A tunnel that is not deleted keeps its kind, and one that is not there does not come back, if no
new tunnel is given its identifier. -/
theorem kind_step (hdelete : e ≠ .delete tunnel)
    (hadd : ∀ config, e = .add config → config.id ≠ tunnel) :
    (∀ kind, d.database.IsOfKind tunnel kind → (d.step e).database.IsOfKind tunnel kind) ∧
      (d.database.tunnel? tunnel = none → (d.step e).database.tunnel? tunnel = none) := by
  suffices hs : (d.step e).database.tunnel? tunnel = d.database.tunnel? tunnel ∨
      ∃ id enabled, d.database.setTunnelEnabled id enabled = .ok (d.step e).database by
    rcases hs with heq | ⟨id, enabled, hok⟩
    · exact ⟨fun _ hk => hk.congr heq, heq.trans⟩
    · refine ⟨fun _ hk => hk.of_enabled hok, fun hnone => ?_⟩
      rw [Database.tunnel?_of_enabled hok, hnone, Option.map_none]
  cases e with
  | add config =>
    left
    rw [step]
    cases hc : d.database.insertTunnel config with
    | error e => rfl
    | ok db => exact Database.tunnel?_of_inserted hc (hadd config rfl).symm
  | enable id enabled =>
    rw [step]
    cases hc : d.database.setTunnelEnabled id enabled with
    | error e => exact .inl rfl
    | ok db => exact .inr ⟨id, enabled, hc⟩
  | delete id =>
    left
    have hne : tunnel ≠ id := fun heq => hdelete (heq ▸ rfl)
    rw [step]
    cases hc : d.database.deleteTunnel id with
    | error e => rfl
    | ok db => exact (Database.tunnel?_of_deleted hc).trans (if_neg hne)
  | act m now =>
    left
    rw [Database.tunnel?, step, tunnels_turn (tunnels_act now), Database.tunnel?]
  | refuse m e =>
    left
    rw [Database.tunnel?, step, tunnels_turn (tunnels_refuse e), Database.tunnel?]

theorem tunnel?_delete (d : CommandHost) (tunnel : Uuid) :
    (d.step (.delete tunnel)).database.tunnel? tunnel = none := by
  rw [step]
  cases hc : d.database.deleteTunnel tunnel with
  | ok db => exact (Database.tunnel?_of_deleted hc).trans (if_pos rfl)
  | error e =>
    rw [Database.deleteTunnel] at hc
    split at hc
    · next hnone => exact hnone
    · cases hc

/-- There is no tunnel under an identifier that was not issued. -/
theorem tunnel?_of_not_issued (hnot : tunnel ∉ d.issued h) :
    (d.after h).database.tunnel? tunnel = none := by
  induction h with
  | nil =>
    rw [after, Database.tunnel?, List.find?_eq_none]
    intro r hr heq
    exact hnot (List.mem_map.mpr ⟨r, hr, by simpa using heq⟩)
  | cons e h ih =>
    have hadd : ∀ config, e = .add config → config.id ≠ tunnel := by
      rintro config rfl rfl
      exact hnot List.mem_cons_self
    have hrest : tunnel ∉ d.issued h := by
      cases e with
      | add config => exact fun hin => hnot (List.mem_cons_of_mem _ hin)
      | _ => exact hnot
    by_cases he : e = .delete tunnel
    · rw [he]
      exact tunnel?_delete _ tunnel
    · exact (kind_step he hadd).2 (ih hrest)

/-- The nth key command has looked up a tunnel of this kind. The tunnel is of that kind until it is
deleted, and then it is gone for good. -/
structure Found (d : CommandHost) (n : Nat) (tunnel : Uuid) (kind : TunnelKind)
    (h : List CommandEvent) : Prop where
  begun : ∃ e ∈ h, e.task? = some n
  issued : tunnel ∈ d.issued h
  there : .delete tunnel ∉ sinceLookup n h → (d.after h).database.IsOfKind tunnel kind
  gone : .delete tunnel ∈ sinceLookup n h → (d.after h).database.tunnel? tunnel = none

theorem Found.next (hf : d.Found n tunnel kind h) (hn : (d.issued (e :: h)).Nodup) :
    d.Found n tunnel kind (e :: h) := by
  obtain ⟨hbegun, hissued, hthere, hgone⟩ := hf
  have hadd : ∀ config, e = .add config → config.id ≠ tunnel := by
    rintro config rfl rfl
    exact (List.nodup_cons.mp hn).1 hissued
  refine ⟨⟨_, List.mem_cons_of_mem _ hbegun.choose_spec.1, hbegun.choose_spec.2⟩, ?_, ?_, ?_⟩
  · cases e with
    | add config => exact List.mem_cons_of_mem _ hissued
    | _ => exact hissued
  · intro hnot
    rw [sinceLookup_cons hbegun, List.mem_cons, not_or] at hnot
    exact (kind_step (Ne.symm hnot.1) hadd).1 kind (hthere hnot.2)
  · intro hin
    rw [sinceLookup_cons hbegun, List.mem_cons] at hin
    by_cases he : e = .delete tunnel
    · rw [he]
      exact tunnel?_delete _ tunnel
    · exact (kind_step he hadd).2 (hgone (hin.resolve_left (Ne.symm he)))

/-! ## The tables of keys and authorizations -/

/-- Whatever a statement does, the rows of this key stay what they are. -/
structure Aside (key : Uuid) (db db' : Database) : Prop where
  key? : db'.key? key = db.key? key
  authorizations : ∀ a ∈ db'.authorizations, a.key = key → a ∈ db.authorizations

theorem Aside.of_same {key : Uuid} {db db' : Database} (hkeys : db'.keys = db.keys)
    (hauth : ∀ a ∈ db'.authorizations, a ∈ db.authorizations) : Aside key db db' where
  key? := by rw [Database.key?, hkeys, Database.key?]
  authorizations a ha _ := hauth a ha

@[refl] theorem Aside.refl (key : Uuid) (db : Database) : Aside key db db :=
  ⟨rfl, fun _ ha _ => ha⟩

theorem aside_statement {command : KeyCommand} {id key : Uuid} {now : Timestamp} {db db' : Database}
    {phase phase' : KeyCommandPhase} (hs : command.Steps id now db phase phase' db')
    (hne : id ≠ key) : Aside key db db' := by
  cases hs with
  | lookupFailed | found | refused | idle => exact .refl key db
  | @inserted kind material =>
    refine ⟨(db.key?_putKey id key now material.kind material.contents).trans (if_neg hne.symm), ?_⟩
    intro a ha _
    rw [Database.putKey] at ha
    split at ha <;> exact ha
  | authorized hdone =>
    rcases Database.authorizeKey_ok hdone with ⟨-, rfl⟩ | ⟨-, -, -, rfl⟩
    · exact .refl key _
    · refine ⟨rfl, fun a ha heq => ?_⟩
      rcases List.mem_append.mp ha with hold | hnew
      · exact hold
      · cases List.mem_singleton.mp hnew
        exact absurd heq hne

theorem aside_changed {key : Uuid} {change : Except StoreError Database}
    (hc : ∀ db, change = .ok db → db.keys = d.database.keys ∧
      ∀ a ∈ db.authorizations, a ∈ d.database.authorizations) :
    Aside key d.database (d.changed change).database := by
  cases change with
  | error e => exact .refl key _
  | ok db => exact .of_same (hc db rfl).1 (hc db rfl).2

/-- What others do leaves the rows of a key command's key as they are. -/
theorem aside_step {key : Uuid} (he : e.task? ≠ some n)
    (hkeys : ∀ m u, m ≠ n → d.tasks[m]? = some u → u.key ≠ key) :
    Aside key d.database (d.step e).database := by
  cases e with
  | add config =>
    refine aside_changed fun db hc => ?_
    obtain ⟨-, -, rfl⟩ := Database.addTunnel_ok hc
    exact ⟨rfl, fun _ ha => ha⟩
  | enable tunnel enabled =>
    refine aside_changed fun db hc => ?_
    cases Database.change_cases (show d.database.change (.setTunnelEnabled tunnel enabled) = .ok db from hc)
    exact ⟨rfl, fun _ ha => ha⟩
  | delete tunnel =>
    refine aside_changed fun db hc => ?_
    cases Database.change_cases (show d.database.change (.deleteTunnel tunnel) = .ok db from hc)
    exact ⟨rfl, fun _ ha => (List.mem_filter.mp ha).1⟩
  | act m now =>
    have hne : m ≠ n := fun heq => he (congrArg some heq)
    rw [step]
    cases ht : d.tasks[m]? with
    | none => rw [turn_none ht]
    | some u =>
      rw [turn_some ht]
      exact aside_statement (KeyCommand.step_cases u.command u.key now d.database u.phase)
        (hkeys m u hne ht)
  | refuse m e =>
    rw [step]
    cases ht : d.tasks[m]? with
    | none => rw [turn_none ht]
    | some u => rw [turn_some ht, snd_refuse]

/-! ## Where a key command stands -/

/-- Nothing is stored under the key of the nth key command, and never was. -/
structure Clean (d : CommandHost) (n : Nat) (key : Uuid) (h : List CommandEvent) : Prop where
  never : ¬ d.HasStored n h
  rows : (d.after h).database.without key = (d.after h).database

/-- What holds of the tables wherever the nth key command stands. -/
inductive Stage (d : CommandHost) (n : Nat) (t : KeyTask) (h : List CommandEvent) :
    KeyCommandPhase → Prop
  /-- The command is yet to begin. -/
  | waiting : (∀ e ∈ h, e.task? ≠ some n) → d.Clean n t.key h → Stage d n t h .lookingUp
  /-- It has looked its tunnel up. -/
  | found {kind : TunnelKind} {material : KeyMaterial} :
      d.Found n t.command.tunnel kind h → t.command.material kind t.key = .ok material →
      d.Clean n t.key h → Stage d n t h (.inserting kind material)
  /-- It has stored its key. -/
  | stored {kind : TunnelKind} {material : KeyMaterial} {createdAt : String} :
      d.Found n t.command.tunnel kind h → t.command.material kind t.key = .ok material →
      d.HasStored n h →
      (d.after h).database.key? t.key = some ⟨t.key, material.kind, material.contents, createdAt⟩ →
      (∀ a ∈ (d.after h).database.authorizations, a.key ≠ t.key) →
      Stage d n t h (.authorizing kind material.printed)
  /-- It has failed before it stored anything. -/
  | failed {e : ProgramError} : d.Clean n t.key h → Stage d n t h (.done (.error e))
  /-- It has failed, and its key is stored. -/
  | stranded {e : ProgramError} :
      d.HasStored n h → ((d.after h).database.key? t.key).isSome = true →
      (∀ a ∈ (d.after h).database.authorizations, a.key ≠ t.key) →
      Stage d n t h (.done (.error e))
  /-- It has succeeded. -/
  | succeeded {printed : String} :
      ((d.after h).database.key? t.key).isSome = true → Stage d n t h (.done (.ok printed))

variable {phase : KeyCommandPhase}

theorem phase?_of_task (ht : (d.after h).tasks[n]? = some { t with phase }) :
    (d.after h).phase? n = some phase := by
  rw [phase?, ht, Option.map_some]

/-- The key is not stored by an event after which the command does not authorize it. -/
theorem not_hasStored_cons (hnever : ¬ d.HasStored n h)
    (ht : (d.after (e :: h)).tasks[n]? = some { t with phase })
    (hphase : ∀ kind printed, phase ≠ .authorizing kind printed) : ¬ d.HasStored n (e :: h) := by
  rintro (⟨kind, printed, heq⟩ | hold)
  · rw [phase?_of_task ht, Option.some.injEq] at heq
    exact hphase kind printed heq
  · exact hnever hold

/-- What others do leaves a key command where it stands. -/
theorem Stage.other (hs : Stage d n t h phase) (hf : d.Fresh (e :: h)) (ht : d.tasks[n]? = some t)
    (he : e.task? ≠ some n) (ht' : (d.after (e :: h)).tasks[n]? = some { t with phase }) :
    Stage d n t (e :: h) phase := by
  have hkeys : ∀ m u, m ≠ n → (d.after h).tasks[m]? = some u → u.key ≠ t.key :=
    fun m u hm hu => keys_ne hf.apart ht hm hu
  have haside : Aside t.key (d.after h).database (d.after (e :: h)).database := aside_step he hkeys
  have hclean (hc : d.Clean n t.key h) (hphase : ∀ kind printed, phase ≠ .authorizing kind printed) :
      d.Clean n t.key (e :: h) := by
    refine ⟨not_hasStored_cons hc.never ht' hphase, ?_⟩
    have hw : Without n t.key (d.after h) (d.after h) := ⟨hc.rows.symm, fun _ _ => rfl⟩
    exact (hw.step_other he hkeys).database.symm
  cases hs with
  | waiting hnone hc =>
    exact .waiting (List.forall_mem_cons.mpr ⟨he, hnone⟩) (hclean hc nofun)
  | found hfound hmaterial hc => exact .found (hfound.next hf.tunnels) hmaterial (hclean hc nofun)
  | stored hfound hmaterial hstored hkey hauth =>
    refine .stored (hfound.next hf.tunnels) hmaterial (.inr hstored) (haside.key?.trans hkey) ?_
    exact fun a ha heq => hauth a (haside.authorizations a ha heq) heq
  | failed hc => exact .failed (hclean hc nofun)
  | stranded hstored hkey hauth =>
    refine .stranded (.inr hstored) (haside.key? ▸ hkey) ?_
    exact fun a ha heq => hauth a (haside.authorizations a ha heq) heq
  | succeeded hkey => exact .succeeded (haside.key? ▸ hkey)

theorem Clean.next {key : Uuid} (hc : d.Clean n key h)
    (hdb : (d.after (e :: h)).database = (d.after h).database)
    (ht : (d.after (e :: h)).tasks[n]? = some { t with phase })
    (hphase : ∀ kind printed, phase ≠ .authorizing kind printed) : d.Clean n key (e :: h) :=
  ⟨not_hasStored_cons hc.never ht hphase, by rw [hdb, hc.rows]⟩

/-- A command that fails at its next statement. -/
theorem Stage.fails (hs : Stage d n t h phase) (hrunning : phase.result? = none)
    {fault : ProgramError} (hdb : (d.after (e :: h)).database = (d.after h).database)
    (ht : (d.after (e :: h)).tasks[n]? = some { t with phase := .done (.error fault) }) :
    Stage d n t (e :: h) (.done (.error fault)) := by
  cases hs with
  | waiting _ hc => exact .failed (hc.next hdb ht nofun)
  | found _ _ hc => exact .failed (hc.next hdb ht nofun)
  | stored _ _ hstored hkey hauth =>
    refine .stranded (.inr hstored) ?_ (hdb ▸ hauth)
    rw [hdb, hkey]
    rfl
  | failed | stranded | succeeded => cases hrunning

/-- A command that is done stays as it is. -/
theorem Stage.idle {result : Except ProgramError String} (hs : Stage d n t h (.done result))
    (hdb : (d.after (e :: h)).database = (d.after h).database)
    (ht : (d.after (e :: h)).tasks[n]? = some { t with phase := .done result }) :
    Stage d n t (e :: h) (.done result) := by
  cases hs with
  | failed hc => exact .failed (hc.next hdb ht nofun)
  | stranded hstored hkey hauth => exact .stranded (.inr hstored) (hdb ▸ hkey) (hdb ▸ hauth)
  | succeeded hkey => exact .succeeded (hdb ▸ hkey)

/-- What becomes of a key command whose next statement is carried out. -/
theorem act_cases (ht : (d.after h).tasks[n]? = some { t with phase }) (now : Timestamp) :
    ∃ phase', (d.after (.act n now :: h)).tasks[n]? = some { t with phase := phase' } ∧
      t.command.Steps t.key now (d.after h).database phase phase'
        (d.after (.act n now :: h)).database := by
  refine ⟨(t.command.step t.key now (d.after h).database phase).1, tasks_turn_self ht, ?_⟩
  rw [after, step, turn_some ht]
  exact KeyCommand.step_cases t.command t.key now (d.after h).database phase

/-- What becomes of a key command whose next statement the database refuses. -/
theorem refuse_cases (ht : (d.after h).tasks[n]? = some { t with phase }) (e : StoreError) :
    (d.after (.refuse n e :: h)).database = (d.after h).database ∧
      ((∃ result, phase = .done result ∧
          (d.after (.refuse n e :: h)).tasks[n]? = some { t with phase }) ∨
        phase.result? = none ∧ (d.after (.refuse n e :: h)).tasks[n]? =
          some { t with phase := .done (.error (.store e)) }) := by
  have ht' : (d.after (.refuse n e :: h)).tasks[n]? =
      some (KeyTask.refuse e (d.after h).database { t with phase }).1 := tasks_turn_self ht
  refine ⟨by rw [after, step, turn_some ht, snd_refuse], ?_⟩
  cases phase with
  | done result => exact .inl ⟨result, rfl, ht'⟩
  | lookingUp | inserting | authorizing => exact .inr ⟨rfl, ht'⟩

/-- The database refuses the next statement of a key command. -/
theorem Stage.refuse (hs : Stage d n t h phase)
    (ht : (d.after h).tasks[n]? = some { t with phase }) (e : StoreError) :
    ∃ phase', (d.after (.refuse n e :: h)).tasks[n]? = some { t with phase := phase' } ∧
      Stage d n t (.refuse n e :: h) phase' := by
  obtain ⟨hdb, ⟨result, rfl, ht'⟩ | ⟨hrunning, ht'⟩⟩ := refuse_cases ht e
  · exact ⟨_, ht', hs.idle hdb ht'⟩
  · exact ⟨_, ht', hs.fails hrunning hdb ht'⟩

/-- The next statement of a key command is carried out. -/
theorem Stage.act (hs : Stage d n t h phase) (hn : (d.issued h).Nodup)
    (ht : (d.after h).tasks[n]? = some { t with phase }) (now : Timestamp) :
    ∃ phase', (d.after (.act n now :: h)).tasks[n]? = some { t with phase := phase' } ∧
      Stage d n t (.act n now :: h) phase' := by
  obtain ⟨phase', ht', hstep⟩ := act_cases ht now
  refine ⟨phase', ht', ?_⟩
  generalize hdb : (d.after (.act n now :: h)).database = db' at hstep
  cases hstep with
  | lookupFailed => exact hs.fails rfl hdb ht'
  | refused => exact hs.fails rfl hdb ht'
  | idle => exact hs.idle hdb ht'
  | @found kind material hkind hmaterial =>
    obtain ⟨hnone, hc⟩ : (∀ e ∈ h, e.task? ≠ some n) ∧ d.Clean n t.key h := by
      cases hs with | waiting hnone hc => exact ⟨hnone, hc⟩
    have hsince : sinceLookup n (.act n now :: h) = [] := sinceLookup_first hnone
    have hissued : t.command.tunnel ∈ d.issued h := by
      by_contra hnot
      have hrow := hkind.exists_row
      rw [tunnel?_of_not_issued hnot] at hrow
      cases hrow
    refine .found ⟨⟨_, List.mem_cons_self, rfl⟩, hissued, ?_, ?_⟩ hmaterial (hc.next hdb ht' nofun)
    · intro _
      rw [hdb]
      exact hkind
    · rw [hsince]
      nofun
  | @inserted kind material =>
    obtain ⟨hfound, hmaterial, hc⟩ : d.Found n t.command.tunnel kind h ∧
        t.command.material kind t.key = .ok material ∧ d.Clean n t.key h := by
      cases hs with | found hfound hmaterial hc => exact ⟨hfound, hmaterial, hc⟩
    have hrows := (Database.without_eq_self_iff ..).mp hc.rows
    have hkey := (d.after h).database.key?_putKey t.key t.key now material.kind material.contents
    rw [if_pos rfl, ← hdb] at hkey
    refine .stored (hfound.next hn) hmaterial (.inl ⟨_, _, phase?_of_task ht'⟩) hkey fun a ha => ?_
    rw [hdb, Database.putKey, hrows.1] at ha
    exact hrows.2 a ha
  | @authorized kind printed db' hdone =>
    have hkeys : db'.key? t.key = (d.after h).database.key? t.key := by
      rcases Database.authorizeKey_ok hdone with ⟨-, rfl⟩ | ⟨-, -, -, rfl⟩ <;> rfl
    cases hs with
    | stored _ _ _ hkey _ => exact .succeeded (by rw [hdb, hkeys, hkey]; rfl)

/-- Where a key command stands after any events. -/
theorem stage_after (hf : d.Fresh h) (ht : d.tasks[n]? = some t) :
    ∃ phase, (d.after h).tasks[n]? = some { t with phase } ∧ Stage d n t h phase := by
  induction h with
  | nil =>
    have hphase : t.phase = .lookingUp := hf.waiting t (List.mem_of_getElem? ht)
    refine ⟨.lookingUp, ht.trans (by rw [← hphase]), .waiting nofun ⟨id, hf.without_key ht⟩⟩
  | cons e h ih =>
    obtain ⟨phase, ht', hs⟩ := ih hf.of_cons
    by_cases he : e.task? = some n
    · cases e with
      | add | enable | delete => cases he
      | act m now =>
        cases he
        exact hs.act hf.of_cons.tunnels ht' now
      | refuse m e =>
        cases he
        exact hs.refuse ht' e
    · have ht'' : (d.after (e :: h)).tasks[n]? = some { t with phase } :=
        (tasks_step_of_ne he).trans ht'
      exact ⟨phase, ht'', hs.other hf ht he ht''⟩

/-! ## The law of key commands -/

/-- The command's key is stored, and authorized for its tunnel under the tunnel's kind. -/
def Entered (t : KeyTask) (printed : String) (db : Database) : Prop :=
  ∃ config material createdAt, db.getTunnel t.command.tunnel = .ok (some config) ∧
    t.command.material config.kind t.key = .ok material ∧ material.printed = printed ∧
    db.key? t.key = some ⟨t.key, material.kind, material.contents, createdAt⟩ ∧
    t.key ∈ db.tunnelKeys t.command.tunnel config.kind

/-- What the nth key command comes to, among the events of `h`. -/
structure AllOrNothing (d : CommandHost) (h : List CommandEvent) (n : Nat) (t : KeyTask) : Prop where
  /-- The other commands stand as they would without it. -/
  unnoticed : ∀ m, m ≠ n → (d.after (others n h)).tasks[m]? = (d.after h).tasks[m]?
  /-- When it has succeeded, its key is stored and authorized at that moment. -/
  entered : ∀ e before printed, h = e :: before →
    (d.after h).phase? n = some (.done (.ok printed)) →
    (d.after before).phase? n ≠ some (.done (.ok printed)) → Entered t printed (d.after h).database
  /-- Its key stays stored. -/
  stored : ∀ printed, (d.after h).phase? n = some (.done (.ok printed)) →
    ((d.after h).database.key? t.key).isSome = true
  /-- When it has failed, keys and authorizations are as they would be without it, but for its own
  key if it has stored that. -/
  failed : ∀ fault, (d.after h).phase? n = some (.done (.error fault)) →
    (d.after (others n h)).database.authorizations = (d.after h).database.authorizations ∧
      (d.after (others n h)).database.keys =
        (d.after h).database.keys.filter (·.id != t.key) ∧
      ((d.after (others n h)).database.keys = (d.after h).database.keys ↔ ¬ d.HasStored n h)
  /-- When it has stored its key, its next statement fails exactly if the tunnel was deleted since it
  was looked up, or the database refuses the statement. -/
  third : ∀ e before kind printed, h = e :: before → e.task? = some n →
    (d.after before).phase? n = some (.authorizing kind printed) →
    ((∃ fault, (d.after h).phase? n = some (.done (.error fault))) ↔
      .delete t.command.tunnel ∈ sinceLookup n before ∨ ∃ fault, e = .refuse n fault)

/-- A command succeeds by the statement that authorizes its key. -/
theorem authorized_of_done {printed : String}
    (ht : (d.after h).tasks[n]? = some { t with phase }) (hrunning : phase ≠ .done (.ok printed))
    (hdone : (d.after (e :: h)).phase? n = some (.done (.ok printed))) :
    ∃ kind, phase = .authorizing kind printed ∧
      (d.after h).database.authorizeKey t.command.tunnel kind t.key =
        .ok (d.after (e :: h)).database := by
  by_cases he : e.task? = some n
  · cases e with
    | add | enable | delete => cases he
    | act m now =>
      cases he
      obtain ⟨phase', ht', hstep⟩ := act_cases ht now
      rw [phase?_of_task ht', Option.some.injEq] at hdone
      subst hdone
      generalize (d.after (.act n now :: h)).database = db' at *
      cases hstep with
      | authorized hok => exact ⟨_, rfl, hok⟩
      | idle => exact absurd rfl hrunning
    | refuse m fault =>
      cases he
      obtain ⟨-, ⟨result, rfl, ht'⟩ | ⟨-, ht'⟩⟩ := refuse_cases ht fault
      · rw [phase?_of_task ht', Option.some.injEq] at hdone
        exact absurd hdone hrunning
      · rw [phase?_of_task ht'] at hdone
        cases hdone
  · rw [phase?, after, tasks_step_of_ne he, ht] at hdone
    exact absurd (Option.some.inj hdone) hrunning

theorem Stage.enters {printed : String} {db : Database}
    (hs : Stage d n t h (.authorizing kind printed))
    (hok : (d.after h).database.authorizeKey t.command.tunnel kind t.key = .ok db) :
    Entered t printed db := by
  cases hs with
  | @stored _ material createdAt hfound hmaterial _ hkey hauth =>
    have hnot : (d.after h).database.isAuthorized t.command.tunnel t.key ≠ true := by
      rw [Ne, Database.isAuthorized_iff]
      rintro ⟨kind', hmem⟩
      exact hauth _ hmem rfl
    rcases Database.authorizeKey_ok hok with ⟨hyes, -⟩ | ⟨-, htunnel, -, rfl⟩
    · exact absurd hyes hnot
    · have hthere : .delete t.command.tunnel ∉ sinceLookup n h := by
        intro hin
        rw [hfound.gone hin] at htunnel
        cases htunnel
      obtain ⟨config, hget, rfl⟩ := hfound.there hthere
      refine ⟨config, material, createdAt, hget, hmaterial, rfl, hkey, ?_⟩
      rw [Database.tunnelKeys, List.mem_map]
      refine ⟨⟨t.key, material.kind, material.contents, createdAt⟩,
        List.mem_mergeSort.mpr (Database.mem_authorizedKeys.mpr ⟨?_, hkey⟩), rfl⟩
      exact List.mem_append_right _ (List.mem_singleton_self _)

/-- The third statement fails exactly if the tunnel is gone. -/
theorem Stage.refused_iff {printed : String} (hs : Stage d n t h (.authorizing kind printed)) :
    (∃ fault, (d.after h).database.authorizeKey t.command.tunnel kind t.key = .error fault) ↔
      .delete t.command.tunnel ∈ sinceLookup n h := by
  cases hs with
  | stored hfound _ _ hkey hauth =>
    have hnot : (d.after h).database.isAuthorized t.command.tunnel t.key = false := by
      rw [← Bool.not_eq_true, Database.isAuthorized_iff]
      rintro ⟨kind', hmem⟩
      exact hauth _ hmem rfl
    constructor
    · rintro ⟨fault, hfault⟩
      by_contra hthere
      have hrow := (hfound.there hthere).exists_row
      rw [← Option.isNone_eq_false_iff] at hrow
      simp [Database.authorizeKey, hnot, hkey, hrow] at hfault
    · intro hin
      rw [Database.authorizeKey, hnot, hfound.gone hin]
      exact ⟨_, rfl⟩

/-- The third statement makes the command fail exactly if the tunnel is gone or the database refuses
the statement. -/
theorem Stage.third_iff {printed : String} (hs : Stage d n t h (.authorizing kind printed))
    (ht : (d.after h).tasks[n]? = some { t with phase := .authorizing kind printed })
    (he : e.task? = some n) :
    (∃ fault, (d.after (e :: h)).phase? n = some (.done (.error fault))) ↔
      .delete t.command.tunnel ∈ sinceLookup n h ∨ ∃ fault, e = .refuse n fault := by
  cases e with
  | add | enable | delete => cases he
  | act m now =>
    cases he
    obtain ⟨phase', ht', hstep⟩ := act_cases ht now
    rw [phase?_of_task ht', ← hs.refused_iff]
    generalize (d.after (.act n now :: h)).database = db' at hstep
    cases hstep with
    | refused hfault => exact iff_of_true ⟨_, rfl⟩ (.inl ⟨_, hfault⟩)
    | authorized hok =>
      refine iff_of_false nofun ?_
      rintro (⟨fault, hfault⟩ | ⟨fault, heq⟩)
      · rw [hok] at hfault
        cases hfault
      · cases heq
  | refuse m fault =>
    cases he
    obtain ⟨-, ⟨result, heq, -⟩ | ⟨-, ht'⟩⟩ := refuse_cases ht fault
    · cases heq
    · rw [phase?_of_task ht']
      exact iff_of_true ⟨_, rfl⟩ (.inr ⟨fault, rfl⟩)

/-- A command that has failed has authorized nothing, and has stored its key exactly if it came to
its third statement. -/
theorem Stage.left {fault : ProgramError} (hs : Stage d n t h (.done (.error fault))) :
    ((d.after h).database.without t.key).authorizations = (d.after h).database.authorizations ∧
      (((d.after h).database.without t.key).keys = (d.after h).database.keys ↔
        ¬ d.HasStored n h) := by
  cases hs with
  | failed hc => exact ⟨by rw [hc.rows], iff_of_true (by rw [hc.rows]) hc.never⟩
  | stranded hstored hkey hauth =>
    refine ⟨(Database.authorizations_without_eq_iff ..).mpr hauth, ?_⟩
    refine iff_of_false (fun hsame => ?_) (not_not_intro hstored)
    rw [(Database.keys_without_eq_iff ..).mp hsame] at hkey
    cases hkey

/-- A key command whose tunnel and key are its own is all or nothing, unless it fails at its third
statement. -/
theorem allOrNothing_of_run (hf : d.Fresh h) (ht : d.tasks[n]? = some t) :
    AllOrNothing d h n t := by
  have hw := without_after hf.apart ht (hf.without_key ht) h
  obtain ⟨phase, ht', hs⟩ := stage_after hf ht
  refine ⟨hw.tasks, ?_, ?_, ?_, ?_⟩
  · rintro e before printed rfl hdone hrunning
    obtain ⟨phase', htb, hsb⟩ := stage_after hf.of_cons ht
    rw [phase?_of_task htb, Ne, Option.some.injEq] at hrunning
    obtain ⟨kind, rfl, hok⟩ := authorized_of_done htb hrunning hdone
    exact hsb.enters hok
  · intro printed hdone
    rw [phase?_of_task ht', Option.some.injEq] at hdone
    subst hdone
    cases hs with | succeeded hkey => exact hkey
  · intro fault hfailed
    rw [phase?_of_task ht', Option.some.injEq] at hfailed
    subst hfailed
    rw [hw.database]
    exact ⟨hs.left.1, rfl, hs.left.2⟩
  · rintro e before kind printed rfl he hthird
    obtain ⟨phase', htb, hsb⟩ := stage_after hf.of_cons ht
    rw [phase?_of_task htb, Option.some.injEq] at hthird
    subst hthird
    exact hsb.third_iff htb he

/-! ## A tunnel that is deleted between two statements -/

/-- A standard tunnel. -/
def bastion : TunnelConfig :=
  .standard ⟨.ofNat 1, ⟨1704164645, 0⟩, true, 40022, none, "bastion", 22, "db", 5432⟩

/-- A key command for the tunnel. -/
def newKey (key : Nat) : KeyTask where
  command := .generate (.ofNat 1) (.ok ⟨"private", "public"⟩)
  key := .ofNat key

/-- A database with the tunnel, and two key commands that are yet to begin. -/
def host : CommandHost where
  database := { tunnels := [.ofConfig bastion] }
  tasks := [newKey 101, newKey 102]

/-- Two key commands, between whose statements a tunnel is entered, disabled and deleted. -/
def events : List CommandEvent :=
  [.refuse 1 (.query none), .act 0 ⟨2, 0⟩, .delete (.ofNat 2), .act 1 ⟨1, 0⟩, .act 0 ⟨1, 0⟩,
    .enable (.ofNat 1) false, .act 1 ⟨0, 0⟩, .add (.reverse ⟨.ofNat 2, ⟨0, 0⟩, true, 40023⟩),
    .act 0 ⟨0, 0⟩]

theorem fresh_events : host.Fresh events where
  waiting := by simp [host, newKey]
  tunnels := by decide +kernel
  keys := by decide +kernel
  authorizations := by simp [host]

/-- One key command succeeds and the other fails. -/
theorem one_of_two_entered : host.Fresh events ∧ AllOrNothing host events 0 (newKey 101) ∧
    (host.after events).database.tunnelKeys (.ofNat 1) .standard = [.ofNat 101] :=
  ⟨fresh_events, allOrNothing_of_run fresh_events rfl, by decide +kernel⟩

/-- The tunnel is deleted before the key is authorized for it: the command fails, and the key
stays. -/
theorem stranded_key_kept :
    let h : List CommandEvent := [.act 0 ⟨2, 0⟩, .delete (.ofNat 1), .act 0 ⟨1, 0⟩, .act 0 ⟨0, 0⟩]
    host.Fresh h ∧ ((host.after h).phase? 0).bind (·.result?) =
        some (.error (.store (.query (some .foreignKey)))) ∧
      (host.after h).database.keys.map (·.id) = [.ofNat 101] ∧
      (host.after (others 0 h)).database.keys = [] := by
  refine ⟨⟨by simp [host, newKey], by decide +kernel, by decide +kernel, by simp [host]⟩, ?_⟩
  decide +kernel

end SshTunnels.CommandHost
