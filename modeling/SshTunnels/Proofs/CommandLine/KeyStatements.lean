import SshTunnels.CommandLine.KeyCommand
import SshTunnels.Proofs.Store.KeyTable
import SshTunnels.Proofs.Store.TunnelTable

/-!
# Statements of a key command

What one statement of a key command can come to (`KeyCommand.Steps`), and that it concerns the rows
of the command's own key only.
-/

namespace SshTunnels.KeyCommand

/-- What one statement of a command makes of its phase and the database. -/
inductive Steps (command : KeyCommand) (id : Uuid) (now : Timestamp) (db : Database) :
    KeyCommandPhase → KeyCommandPhase → Database → Prop
  /-- There is no such tunnel, or nothing to store for it. -/
  | lookupFailed {e : ProgramError} : Steps command id now db .lookingUp (.done (.error e)) db
  /-- The tunnel is there. -/
  | found {kind : TunnelKind} {material : KeyMaterial} :
      db.IsOfKind command.tunnel kind → command.material kind id = .ok material →
      Steps command id now db .lookingUp (.inserting kind material) db
  /-- The key is stored. -/
  | inserted {kind : TunnelKind} {material : KeyMaterial} :
      Steps command id now db (.inserting kind material) (.authorizing kind material.printed)
        (db.putKey now id material.kind material.contents)
  /-- The key is not authorized. -/
  | refused {kind : TunnelKind} {printed : String} {e : StoreError} :
      db.authorizeKey command.tunnel kind id = .error e →
      Steps command id now db (.authorizing kind printed) (.done (.error (.store e))) db
  /-- The key is authorized. -/
  | authorized {kind : TunnelKind} {printed : String} {db' : Database} :
      db.authorizeKey command.tunnel kind id = .ok db' →
      Steps command id now db (.authorizing kind printed) (.done (.ok printed)) db'
  /-- The command is done already. -/
  | idle {result : Except ProgramError String} :
      Steps command id now db (.done result) (.done result) db

variable {command : KeyCommand} {id key : Uuid} {now : Timestamp} {db db' : Database}
  {phase phase' : KeyCommandPhase}

theorem step_cases (command : KeyCommand) (id : Uuid) (now : Timestamp) (db : Database)
    (phase : KeyCommandPhase) : Steps command id now db phase (command.step id now db phase).1
      (command.step id now db phase).2 := by
  cases phase with
  | lookingUp =>
    simp only [step]
    split
    · exact .lookupFailed
    · exact .lookupFailed
    · next config hget =>
      split
      · exact .lookupFailed
      · next material hmaterial => exact .found ⟨config, hget, rfl⟩ hmaterial
  | inserting kind material => exact .inserted
  | authorizing kind printed =>
    simp only [step]
    split
    · next e hrefused => exact .refused hrefused
    · next db' hdone => exact .authorized hdone
  | done result => exact .idle

theorem Steps.tunnels (hs : Steps command id now db phase phase' db') :
    db'.tunnels = db.tunnels := by
  cases hs with
  | lookupFailed | found | refused | idle => rfl
  | inserted =>
    rw [Database.putKey]
    split <;> rfl
  | authorized hdone => rcases Database.authorizeKey_ok hdone with ⟨-, rfl⟩ | ⟨-, -, -, rfl⟩ <;> rfl

/-- A command changes nothing but the rows of its key. -/
theorem Steps.without (hs : Steps command key now db phase phase' db') :
    db'.without key = db.without key := by
  cases hs with
  | lookupFailed | found | refused | idle => rfl
  | inserted => exact Database.without_putKey _ _ _
  | authorized hdone => exact Database.without_authorizeKey hdone

/-- A command does to the tables without another one's key what it does to the tables. -/
theorem step_without (hne : id ≠ key) (now : Timestamp) (db : Database) (phase : KeyCommandPhase) :
    command.step id now (db.without key) phase =
      ((command.step id now db phase).1, (command.step id now db phase).2.without key) := by
  cases phase with
  | lookingUp =>
    simp only [step, Database.getTunnel_without]
    split
    · rfl
    · rfl
    · split <;> rfl
  | inserting kind material =>
    simp only [step, Database.putKey_without hne]
  | authorizing kind printed =>
    simp only [step, Database.authorizeKey_without hne]
    cases db.authorizeKey command.tunnel kind id <;> rfl
  | done result => rfl

end SshTunnels.KeyCommand
