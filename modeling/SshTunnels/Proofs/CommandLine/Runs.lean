import SshTunnels.CommandLine.Program
import SshTunnels.Proofs.CommandLine.EnteredKeys
import SshTunnels.Proofs.Files.Tables

/-!
# Runs on one database

A run of the program finds tables in a file and leaves tables there. Opening and migrating leave
them as they are (`Program.run_cases`), and the command of the run does to them what its statements
do. So one run carries `Entered` on (`Program.entered_perform`), a key command statement by
statement (`Program.entered_runKeyCommand`).
-/

namespace SshTunnels

namespace OpenDatabase

variable {d : OpenDatabase} {place : Place}

/-- The database is in the file at a place. -/
def LiesAt (d : OpenDatabase) (place : Place) : Prop :=
  ∃ writable, d.opened.home = .file place writable

/-- A query is asked of the tables in the file, unless they cannot be read. -/
theorem read_cases {α : Type} (hd : d.LiesAt place) (query : Database → Except StoreError α) :
    (∃ e, d.read query = .error e) ∨ d.read query = query (d.files.tables place) := by
  obtain ⟨writable, hhome⟩ := hd
  rw [read]
  split
  · next db hread => exact .inr (by rw [OpenedStore.eq_of_tables hhome hread])
  · exact .inl ⟨_, rfl⟩

/-- A change is refused and leaves everything as it is, or it is made to the tables in the file. -/
theorem write_cases (hd : d.LiesAt place) (change : Database → Except StoreError Database) :
    (∃ e, d.write change = (.error e, d)) ∨
    ∃ db' d', change (d.files.tables place) = .ok db' ∧ d.write change = (.ok (), d') ∧
      d'.LiesAt place ∧ d'.files.tables place = db' := by
  obtain ⟨writable, hhome⟩ := hd
  rw [write, OpenedStore.write]
  cases hread : d.opened.tables d.files d.memory with
  | error fault => exact .inl ⟨_, rfl⟩
  | ok db =>
    rw [← OpenedStore.eq_of_tables hhome hread]
    dsimp only
    split
    · exact .inl ⟨_, rfl⟩
    · cases change db with
      | error e => exact .inl ⟨_, rfl⟩
      | ok db' =>
        exact .inr ⟨db', _, rfl, rfl, ⟨writable, hhome⟩, OpenedStore.tables_keep hhome hread db'⟩

end OpenDatabase

/-! ## Statements of a key command -/

/-- The statements that a key command has before it, if all goes well. -/
def KeyCommandPhase.remaining : KeyCommandPhase → Nat
  | .lookingUp => 3
  | .inserting .. => 2
  | .authorizing .. => 1
  | .done _ => 0

namespace KeyCommand

variable {command : KeyCommand} {id : Uuid} {now : Timestamp} {db db' : Database}
  {phase phase' : KeyCommandPhase}

/-- A statement is one of those that remain, or the command has failed. -/
theorem Steps.remaining (hs : Steps command id now db phase phase' db')
    (hphase : phase.result? = none) :
    phase.remaining = phase'.remaining + 1 ∨ ∃ e, phase' = .done (.error e) := by
  cases hs with
  | lookupFailed | refused => exact .inr ⟨_, rfl⟩
  | found | inserted | authorized => exact .inl rfl
  | idle => cases hphase

theorem Steps.eq_of_reads (hs : Steps command id now db phase phase' db')
    (hphase : phase.isChange = false) : db' = db := by
  cases hs with
  | lookupFailed | found | refused | idle => rfl
  | inserted | authorized => cases hphase

end KeyCommand

/-- What is entered, if a run succeeds. -/
def ProgramRun.entered (r : ProgramRun) (e : KeyEntry) : List KeyEntry :=
  if r.ending = .finished then [e] else []

namespace Program

variable {m : Machine} {d : OpenDatabase} {place : Place} {command : KeyCommand} {id : Uuid}
  {now : Timestamp} {ids : List Uuid} {es : List KeyEntry}

/-- A key command enters its key if its run succeeds, and otherwise enters none. A run may be broken
off after any number of statements but the last. -/
theorem entered_runKeyCommand (hnew : id ∉ ids) (fuel : Nat) {phase : KeyCommandPhase}
    (hd : d.LiesAt place) (hu : command.Underway id now ids es (d.files.tables place) phase)
    (hfuel : fuel = phase.remaining → ∃ e, phase = .done (.error e)) :
    Entered (id :: ids)
      ((runKeyCommand command id now fuel d phase).entered ⟨command, id, now⟩ ++ es)
      ((runKeyCommand command id now fuel d phase).files.tables place) := by
  induction fuel generalizing d phase with
  | zero =>
    -- Broken off: had the command succeeded, it would have had no statement before it.
    refine hu.unless_entered fun printed heq => ?_
    obtain ⟨e, heq'⟩ := hfuel (by rw [heq]; rfl)
    cases heq.symm.trans heq'
  | succ fuel ih =>
    rw [runKeyCommand]
    split
    · next text hresult =>
      cases phase <;> cases hresult
      cases hu with
      | entered he => exact he
    · next e hresult =>
      cases phase <;> cases hresult
      cases hu with
      | failed he => exact he
    · next hresult =>
      have hbroken : Entered (id :: ids) es (d.files.tables place) :=
        hu.unless_entered fun printed heq => by rw [heq] at hresult; cases hresult
      have hstep := command.step_cases id now (d.files.tables place) phase
      have hrest : fuel = (command.step id now (d.files.tables place) phase).1.remaining →
          ∃ e, (command.step id now (d.files.tables place) phase).1 = .done (.error e) := by
        intro hfuel'
        rcases hstep.remaining hresult with heq | hfailed
        · obtain ⟨e, rfl⟩ := hfuel (by rw [heq, hfuel'])
          cases hresult
        · exact hfailed
      have hnext := hu.step hnew hstep
      -- A change is read, made and kept; a look-up only reads.
      split
      · rcases d.read_cases hd fun db => .ok (command.step id now db phase) with ⟨e, hread⟩ | hread
        · rw [hread]
          exact hbroken
        · rw [hread]
          dsimp only
          rcases d.write_cases hd fun _ => .ok (command.step id now (d.files.tables place) phase).2
            with ⟨e, hwrite⟩ | ⟨db', d', heq, hwrite, hd', htables⟩
          · rw [hwrite]
            exact hbroken
          · rw [hwrite]
            cases heq
            rw [← htables] at hnext
            exact ih hd' hnext hrest
      · next hreads =>
        rw [hstep.eq_of_reads (Bool.eq_false_iff.mpr hreads)] at hnext
        rcases d.read_cases hd fun db => .ok (command.step id now db phase).1
          with ⟨e, hread⟩ | hread
        · rw [hread]
          exact hbroken
        · rw [hread]
          exact ih hd hnext hrest

/-! ## Commands -/

/-- The identifier that a run gives to what it makes. -/
def newId (m : Machine) : Uuid :=
  Uuid.ofTime (m.now.seconds.toNat * 1000 + m.now.nanos / 1000000) m.random

/-- The identifiers that a command uses up: those of a new tunnel or a new key. -/
def newIds (m : Machine) : ServerCommand → List Uuid
  | .addStandard .. | .addReverse .. | .generate .. | .authorize .. => [newId m]
  | .run | .check _ | .list _ | .enable _ | .disable _ | .delete _ => []

/-- The key command that a command of the command line comes to. -/
def keyCommand? (m : Machine) (d : OpenDatabase) : ServerCommand → Option KeyCommand
  | .generate tunnel algorithm => some (.generate tunnel (newPair m tunnel algorithm))
  | .authorize tunnel file =>
    some (.authorize tunnel ((d.files.readFile (d.files.place file)).mapError fun _ =>
      ProgramError.unreadable file))
  | _ => none

/-- The command administers tunnels or their keys; those that it makes are of Ed25519. -/
def administers : ServerCommand → Bool
  | .run | .generate _ .rsa => false
  | _ => true

/-- The key that a run enters on the opened database, if it is that of a key command. -/
def entries (m : Machine) (d : OpenDatabase) (a : ServerArguments) (c : ServerCommand) :
    List KeyEntry :=
  (keyCommand? m d c).elim [] fun command => (perform m d a).entered ⟨command, newId m, m.now⟩

variable {a : ServerArguments} {c : ServerCommand}

/-- A change of the tables takes place as a whole or not at all. -/
theorem entered_changing {ids' : List Uuid} (hd : d.LiesAt place) (lines : List String)
    {change : Database → Except StoreError Database}
    (hrefused : Entered ids' es (d.files.tables place))
    (hchanged : ∀ db, change (d.files.tables place) = .ok db → Entered ids' es db) :
    Entered ids' es ((changing d lines change).files.tables place) := by
  rw [changing]
  rcases d.write_cases hd change with ⟨e, hwrite⟩ | ⟨db, d', hchange, hwrite, -, htables⟩
  · rw [hwrite]
    exact hrefused
  · rw [hwrite]
    exact htables ▸ hchanged db hchange

theorem entered_perform (he : Entered ids es (d.files.tables place)) (hd : d.LiesAt place)
    (hcommand : a.command = some c) (hc : administers c = true)
    (hnew : ∀ id ∈ newIds m c, id ∉ ids) :
    Entered (newIds m c ++ ids) (entries m d a c ++ es) ((perform m d a).files.tables place) := by
  have hkeys (command : KeyCommand) (hnew : newId m ∉ ids) :
      Entered (newId m :: ids)
        ((runKeyCommand command (newId m) m.now 4 d .lookingUp).entered ⟨command, newId m, m.now⟩ ++
          es)
        ((runKeyCommand command (newId m) m.now 4 d .lookingUp).files.tables place) :=
    entered_runKeyCommand hnew 4 hd (.begun he) nofun
  cases c with
  | run => cases hc
  | check | list =>
    have hfiles : (perform m d a).files = d.files := by
      rw [perform, hcommand]
      dsimp only
      split <;> rfl
    rw [hfiles]
    exact he
  | addStandard | addReverse =>
    rw [perform, hcommand]
    exact entered_changing hd _ (he.mono (List.subset_cons_self _ _)) fun db h =>
      he.inserted (hnew _ List.mem_cons_self) h
  | enable | disable =>
    rw [perform, hcommand]
    exact entered_changing hd _ he fun db h => he.enabled h
  | delete =>
    rw [perform, hcommand]
    exact entered_changing hd _ he fun db h => he.deleted h
  | generate | authorize =>
    rw [entries, perform, hcommand]
    exact hkeys _ (hnew _ List.mem_cons_self)

/-! ## Runs -/

/-- The arguments and the database that the command of a run is carried out with. -/
def opened? (m : Machine) (words : List String) : Option (ServerArguments × OpenDatabase) :=
  match ServerArguments.read m.environment words with
  | .error _ => none
  | .ok a =>
    match Opening.run m.files a.db m.environment with
    | (_, .error _) => none
    | (files, .ok opened) =>
      match opened.migrate files {} with
      | (.error _, _, _) => none
      | (.ok (), files, memory) => some (a, ⟨opened, files, memory⟩)

/-- A run opens no database and changes no tables, or it carries out its command on a database whose
opening changed none. -/
theorem run_cases (m : Machine) (words : List String) :
    opened? m words = none ∧ FileSystem.SameTables m.files (run m words).files ∨
    ∃ a d, opened? m words = some (a, d) ∧ run m words = perform m d a ∧
      FileSystem.SameTables m.files d.files := by
  rw [opened?, run]
  cases ServerArguments.read m.environment words with
  | error fault => exact .inl ⟨rfl, by cases fault <;> exact .refl _⟩
  | ok a =>
    have hopening := Opening.sameTables_run m.files a.db m.environment
    dsimp only
    generalize Opening.run m.files a.db m.environment = opening at hopening ⊢
    obtain ⟨files, e | opened⟩ := opening
    · exact .inl ⟨rfl, hopening⟩
    · have hmigrated := hopening.trans (opened.sameTables_migrate files {})
      dsimp only
      generalize opened.migrate files {} = migrated at hmigrated ⊢
      obtain ⟨e | _, files', memory⟩ := migrated
      · exact .inl ⟨rfl, hmigrated⟩
      · exact .inr ⟨_, _, rfl, rfl, hmigrated⟩

theorem sameTables_run {words : List String} (h : opened? m words = none) :
    FileSystem.SameTables m.files (run m words).files := by
  rcases run_cases m words with ⟨-, hsame⟩ | ⟨a, d, hopened, -⟩
  · exact hsame
  · cases h.symm.trans hopened

theorem run_of_opened? {words : List String} (h : opened? m words = some (a, d)) :
    run m words = perform m d a ∧ FileSystem.SameTables m.files d.files := by
  rcases run_cases m words with ⟨hnone, -⟩ | ⟨a, d, hopened, hrun⟩
  · cases hnone.symm.trans h
  · cases h.symm.trans hopened
    exact hrun

end Program
end SshTunnels
