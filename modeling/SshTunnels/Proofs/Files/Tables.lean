import SshTunnels.Proofs.Files.Nodes
import SshTunnels.Store.Opening

/-!
# Tables in files

A database keeps its tables in a file. To open and migrate a database leaves all tables as they are,
wherever they lie (`Opening.sameTables_run`, `OpenedStore.sameTables_migrate`): nothing new is made
where something lies, and permission bits are no contents.
-/

namespace SshTunnels

/-- The tables that a node holds; none, if it is no database. -/
def FileNode.tables : FileNode → Database
  | .file _ (.tables db) => db
  | _ => {}

@[simp] theorem FileNode.tables_setMode (mode : Nat) (node : FileNode) :
    (node.setMode mode).tables = node.tables := by
  cases node with
  | directory => rfl
  | file _ contents => cases contents <;> rfl

namespace FileSystem

/-- The tables that lie at a place. -/
def tables (fs : FileSystem) (place : Place) : Database :=
  (fs.node? place).elim {} FileNode.tables

variable {fs fs' : FileSystem} {place : Place} {node : FileNode} {code : OsCode}

/-- The files hold the same tables, wherever these lie. -/
def SameTables (fs fs' : FileSystem) : Prop :=
  ∀ place, fs'.tables place = fs.tables place

theorem SameTables.refl (fs : FileSystem) : SameTables fs fs :=
  fun _ => rfl

theorem SameTables.trans {fs'' : FileSystem} (h : SameTables fs fs') (h' : SameTables fs' fs'') :
    SameTables fs fs'' :=
  fun place => (h' place).trans (h place)

/-- A node gives way to one with the same tables. -/
theorem sameTables_put (h : fs.tables place = node.tables) : SameTables fs (fs.put place node) := by
  intro other
  rw [tables, node?_put]
  split
  · next heq => rw [heq.2, h, Option.elim_some]
  · rfl

theorem sameTables_of_absent (h : fs.find place = .ok none) (hnode : node.tables = {}) :
    SameTables fs (fs.put place node) :=
  sameTables_put (by rw [tables, node?_of_find h, hnode]; rfl)

theorem sameTables_makeParent (fs : FileSystem) (path : String) :
    SameTables fs (fs.makeParent path).1 := by
  refine makeParent_induct SameTables.refl SameTables.trans (fun h => ?_) fs path
  obtain ⟨hfind, rfl⟩ := add_eq_ok h
  exact sameTables_of_absent hfind rfl

theorem sameTables_of_createFile {mode : Nat} (h : fs.createFile place mode = .ok fs') :
    SameTables fs fs' := by
  obtain ⟨hfind, rfl⟩ := createFile_eq_ok h
  exact sameTables_of_absent hfind rfl

theorem sameTables_of_setMode {mode : Nat} (h : fs.setMode place mode = .ok fs') :
    SameTables fs fs' := by
  obtain ⟨node, hfind, rfl⟩ := setMode_eq_ok h
  exact sameTables_put (by
    rw [tables, node?_of_find hfind, FileNode.tables_setMode, Option.elim_some])

end FileSystem

namespace Opening

open FileSystem

variable {fs : FileSystem}

theorem sameTables_secure (fs : FileSystem) (path : String) : SameTables fs (secure fs path) := by
  unfold secure
  split
  · split
    · exact .refl fs
    · cases h : fs.setMode (fs.place path) privateMode with
      | error code => exact .refl fs
      | ok fs' => exact sameTables_of_setMode h
  · exact .refl fs

theorem sameTables_connect {url : String} {fs' : FileSystem} {home : DatabaseHome}
    (h : connect fs url = some (fs', home)) : SameTables fs fs' := by
  unfold connect at h
  obtain ⟨a, -, h⟩ := Option.bind_eq_some_iff.mp h
  split at h
  · cases h
    exact .refl _
  · unfold connectFile at h
    dsimp only at h
    split at h
    · cases h
    · cases h
    · split at h
      · obtain ⟨made, hmade, heq⟩ := Option.map_eq_some_iff.mp h
        cases heq
        cases hfile : fs.createFile (Path.place (Path.absolute fs.cwd a.path)) 0o644 with
        | error code =>
          rw [hfile] at hmade
          cases hmade
        | ok made' =>
          rw [hfile] at hmade
          cases hmade
          exact sameTables_of_createFile hfile
      · cases h
    · split at h
      · cases h
        exact .refl _
      · cases h

/-- No step of an opening changes tables. -/
theorem sameTables_next (fs : FileSystem) (o : Opening) : SameTables fs (o.next fs).1 := by
  cases o with
  | looking path => exact .refl fs
  | makingDirectory path existed =>
    have hmade := sameTables_makeParent fs path
    simp only [next]
    split
    · next heq =>
      rw [heq] at hmade
      exact hmade
    · next heq =>
      rw [heq] at hmade
      split <;> exact hmade
  | creating path =>
    simp only [next]
    split
    · exact .refl fs
    · split
      · next hmade => exact sameTables_of_createFile hmade
      · exact .refl fs
      · exact .refl fs
  | connecting url path fresh =>
    simp only [next]
    split
    · exact .refl fs
    · next hconnected => exact sameTables_connect hconnected
  | securing opened =>
    simp only [next]
    cases opened.path with
    | none => exact .refl fs
    | some path =>
      rw [Option.elim_some]
      exact sameTables_secure fs path
  | done result => exact .refl fs

theorem sameTables_play (n : Nat) (fs : FileSystem) (o : Opening) :
    SameTables fs (play (List.replicate n id) (fs, o)).1 := by
  induction n generalizing fs o with
  | zero => exact .refl fs
  | succ n ih =>
    rw [List.replicate_succ, play, id]
    have hnext := sameTables_next fs o
    generalize o.next fs = turned at hnext ⊢
    obtain ⟨fs', o'⟩ := turned
    exact hnext.trans (ih fs' o')

/-- To open a database changes no tables. -/
theorem sameTables_run (fs : FileSystem) (given : Option String) (env : Environment) :
    SameTables fs (run fs given env).1 := by
  rw [run]
  exact sameTables_play _ _ _

end Opening

namespace OpenedStore

open FileSystem

variable {o : OpenedStore} {fs : FileSystem} {memory db : Database} {place : Place}
  {writable : Bool}

/-- The tables of a database in a file are those in the file. -/
theorem eq_of_tables (hhome : o.home = .file place writable) (h : o.tables fs memory = .ok db) :
    db = fs.tables place := by
  rw [OpenedStore.tables, hhome] at h
  dsimp only at h
  split at h
  · next hnode =>
    rw [FileSystem.tables, hnode]
    exact (Except.ok.inj h).symm
  · cases h
  · cases h

/-- Kept tables are those in the file afterwards. -/
theorem tables_keep (hhome : o.home = .file place writable) (h : o.tables fs memory = .ok db)
    (db' : Database) : (o.keep fs db').tables place = db' := by
  rw [OpenedStore.tables, hhome] at h
  dsimp only at h
  rw [keep, hhome]
  split at h
  · next hnode =>
    have hroot : place ≠ [] := by
      rintro rfl
      cases hnode
    simp only [hnode]
    rw [FileSystem.tables, node?_put, if_pos ⟨hroot, rfl⟩, Option.elim_some, FileNode.tables]
  · cases h
  · cases h

/-- To migrate a database changes no tables. -/
theorem sameTables_migrate (o : OpenedStore) (fs : FileSystem) (memory : Database) :
    SameTables fs (o.migrate fs memory).2.1 := by
  unfold migrate
  split
  · exact .refl fs
  · next hfault =>
    split
    · unfold OpenedStore.tables at hfault
      unfold keep
      split at hfault
      · cases hfault
      · split at hfault
        · cases hfault
        · next hnode =>
          simp only [hnode]
          exact sameTables_put (by rw [FileSystem.tables, hnode]; rfl)
        · cases hfault
    · exact .refl fs
  · exact .refl fs

end OpenedStore
end SshTunnels
