import SshTunnels.Key.Source
import SshTunnels.Proofs.CommandLine.Runs
import SshTunnels.Proofs.Key.NewKeys

/-!
# Usable keys

After any history of commands on one database (`Administered`) every tunnel loads exactly the keys
of the key commands that succeeded for it, oldest first (`Administered.keys_usable`). A key from a
file is checked before it is stored, and a new one can be read again
(`KeyCommand.Usual.exists_private`, `KeyCommand.Usual.exists_public`); so loading meets no key that
is missing or cannot be read.
-/

namespace SshTunnels

namespace KeyCommand

/-- The command comes from the command line: a new pair, if one is made, is of Ed25519 and has the
tunnel in its comment. -/
inductive Usual : KeyCommand → Prop
  | generated {tunnel : Uuid} {seed : Bytes} {check : Nat} : seed.length = 32 →
      Usual (.generate tunnel (.ok (.ofSeed seed check ("tunnelbridge-" ++ tunnel.text))))
  | unmade {tunnel : Uuid} {e : ProgramError} : Usual (.generate tunnel (.error e))
  | authorized {tunnel : Uuid} {contents : Except ProgramError Bytes} :
      Usual (.authorize tunnel contents)

/-- The key that a command enters for a standard tunnel to sign in with. -/
inductive EntersPrivate : KeyCommand → PrivateKey → Prop
  /-- The private half of the new pair. -/
  | generated {tunnel : Uuid} {seed : Bytes} {check : Nat} {comment : String} :
      EntersPrivate (.generate tunnel (.ok (.ofSeed seed check comment))) (.ofSeed seed "")
  /-- The key in the file. -/
  | authorized {tunnel : Uuid} {contents : Bytes} {k : PrivateKey} :
      PrivateKey.load contents = .ok k → EntersPrivate (.authorize tunnel (.ok contents)) k

/-- The key that a command enters for the agents of a reverse tunnel to sign in with. -/
inductive EntersPublic : KeyCommand → PublicKey → Prop
  /-- The public half of the new pair. -/
  | generated {tunnel : Uuid} {seed : Bytes} {check : Nat} {comment : String} :
      EntersPublic (.generate tunnel (.ok (.ofSeed seed check comment)))
        ⟨.ed25519 (Curve.Edwards.publicKey seed), comment⟩
  /-- The key in the file. -/
  | authorized {tunnel : Uuid} {contents : Bytes} {k : PublicKey} :
      PublicKey.load contents = .ok k → EntersPublic (.authorize tunnel (.ok contents)) k

variable {command : KeyCommand} {id : Uuid} {material : KeyMaterial}

theorem exists_of_mapError_bind {κ : Type} {loaded : Except SshError κ}
    {f : SshError → ProgramError} {g : κ → Except ProgramError KeyMaterial}
    (h : (loaded.mapError f >>= g) = .ok material) : ∃ k, loaded = .ok k ∧ g k = .ok material := by
  cases loaded with
  | error e => cases h
  | ok k => exact ⟨k, rfl, h⟩

/-- What a command stores for a standard tunnel is the key that it enters. -/
theorem Usual.exists_private (hu : command.Usual)
    (h : command.material .standard id = .ok material) :
    ∃ k, PrivateKey.load material.contents = .ok k ∧ command.EntersPrivate k := by
  cases hu with
  | generated hseed =>
    cases h
    exact ⟨_, GeneratedKeyPair.load_privateText hseed _ _, .generated⟩
  | unmade => cases h
  | @authorized tunnel contents =>
    cases contents with
    | error e => cases h
    | ok contents =>
      obtain ⟨k, hload, hstored⟩ := exists_of_mapError_bind h
      cases hstored
      exact ⟨k, hload, .authorized hload⟩

/-- What a command stores for a reverse tunnel is the key that it enters. -/
theorem Usual.exists_public (hu : command.Usual)
    (h : command.material .reverse id = .ok material) :
    ∃ k, PublicKey.load material.contents = .ok k ∧ command.EntersPublic k := by
  cases hu with
  | @generated tunnel seed check hseed =>
    cases h
    refine ⟨_, GeneratedKeyPair.load_publicText check (fun hnil => ?_) fun c hc => ?_, .generated⟩
    · rw [← String.toList_inj, String.toList_append] at hnil
      cases hnil
    · rw [String.toList_append, List.mem_append] at hc
      have hname : "tunnelbridge-".toList.any Text.isBlank = false := by decide
      refine hc.elim (fun hc => ?_) Uuid.isBlank_of_mem_text
      simpa using List.any_eq_false.mp hname c hc
  | unmade => cases h
  | @authorized tunnel contents =>
    cases contents with
    | error e => cases h
    | ok contents =>
      obtain ⟨k, hload, hstored⟩ := exists_of_mapError_bind h
      cases hstored
      exact ⟨k, hload, .authorized hload⟩

end KeyCommand

/-! ## Loading -/

/-- What loading the keys of a tunnel answers, if these key commands succeeded for it: without any
there are no keys, and otherwise each command's key is loaded, oldest first. -/
inductive Loads (kind : TunnelKind) (tunnel : Uuid) (enters : KeyCommand → κ → Prop)
    (es : List KeyEntry) : Except TunnelError (List κ) → Prop
  | noKeys : es = [] → Loads kind tunnel enters es (.error (.noKeys kind tunnel))
  | keys {sorted : List KeyEntry} {keys : List κ} : es ≠ [] → sorted.Perm es →
      sorted.Pairwise KeyEntry.Before →
      List.Forall₂ (fun e k => enters e.command k) sorted keys →
      Loads kind tunnel enters es (.ok keys)

/-- A list whose images are reordered is itself reordered. -/
theorem exists_of_perm_map {α β : Type} {f : α → β} {l : List β} {l' : List α}
    (h : l.Perm (l'.map f)) : ∃ sorted : List α, l = sorted.map f ∧ sorted.Perm l' := by
  have hcomp : Relation.Comp (· = List.map f ·) List.Perm l l' := by
    rw [List.eq_map_comp_perm]
    exact h
  exact hcomp

/-- If every key can be fetched and loaded, all of them can. -/
theorem exists_loaded {κ : Type} {s : Store} {load : Bytes → Except SshError κ}
    {enters : KeyCommand → κ → Prop} {es : List KeyEntry}
    (h : ∀ e ∈ es, ∃ contents k, s.getKey e.key = .ok contents ∧ load contents = .ok k ∧
      enters e.command k) :
    ∃ contents keys, (es.map (·.key)).mapM s.getKey = .ok contents ∧
      contents.mapM load = .ok keys ∧
      List.Forall₂ (fun (e : KeyEntry) k => enters e.command k) es keys := by
  induction es with
  | nil => exact ⟨[], [], rfl, rfl, .nil⟩
  | cons e es ih =>
    obtain ⟨contents, k, hfetch, hload, henters⟩ := h e List.mem_cons_self
    obtain ⟨more, keys, hmore, hkeys, hall⟩ := ih fun e hmem => h e (List.mem_cons_of_mem _ hmem)
    refine ⟨contents :: more, k :: keys, ?_, ?_, .cons henters hall⟩
    · rw [List.map_cons, List.mapM_cons, hfetch, hmore]
      rfl
    · rw [List.mapM_cons, hload, hkeys]
      rfl

namespace Entered

variable {ids : List Uuid} {es : List KeyEntry} {db : Database} {tunnel : Uuid} {kind : TunnelKind}

theorem mem_tunnelKeys_iff (he : Entered ids es db) (hkind : db.HasKind tunnel kind) {key : Uuid} :
    key ∈ db.tunnelKeys tunnel kind ↔
      key ∈ (es.filter (·.command.tunnel = tunnel)).map (·.key) := by
  simp only [Database.mem_tunnelKeys, he.authorized, and_iff_right hkind, List.mem_map,
    List.mem_filter, decide_eq_true_eq]
  constructor
  · rintro ⟨⟨e, hmem, htunnel, hkey⟩, -⟩
    exact ⟨e, ⟨hmem, htunnel⟩, hkey⟩
  · rintro ⟨e, ⟨hmem, rfl⟩, rfl⟩
    obtain ⟨material, -, hkey⟩ := he.stored e hmem kind hkind
    exact ⟨⟨e, hmem, rfl, rfl⟩, by rw [hkey]; rfl⟩

/-- A tunnel lists the keys that were entered for it, oldest first. -/
theorem exists_sorted (he : Entered ids es db) (hkind : db.HasKind tunnel kind) :
    ∃ sorted : List KeyEntry, sorted.Perm (es.filter (·.command.tunnel = tunnel)) ∧
      sorted.Pairwise KeyEntry.Before ∧ db.tunnelKeys tunnel kind = sorted.map (·.key) := by
  -- Neither list has a key twice, so it is enough that they have the same keys.
  have hperm : (db.tunnelKeys tunnel kind).Perm
      ((es.filter (·.command.tunnel = tunnel)).map (·.key)) :=
    (List.perm_ext_iff_of_nodup (Database.nodup_tunnelKeys he.once _ _)
      (he.distinct.sublist (List.filter_sublist.map _))).mpr fun _ => he.mem_tunnelKeys_iff hkind
  obtain ⟨sorted, heq, hsame⟩ := exists_of_perm_map hperm
  refine ⟨sorted, hsame, ?_, heq⟩
  have hrow {e : KeyEntry} (hmem : e ∈ sorted) : ∃ kind contents,
      db.key? e.key = some ⟨e.key, kind, contents, e.now.stored⟩ := by
    obtain ⟨hmem, htunnel⟩ := List.mem_filter.mp (hsame.mem_iff.mp hmem)
    have htunnel : e.command.tunnel = tunnel := by simpa using htunnel
    obtain ⟨material, -, hkey⟩ := he.stored e hmem kind (htunnel ▸ hkind)
    exact ⟨_, _, hkey⟩
  have hlisted := Database.sorted_tunnelKeys he.once tunnel kind
  rw [heq, List.pairwise_map] at hlisted
  refine hlisted.imp_of_mem fun {a b} ha hb hle => ?_
  obtain ⟨_, _, hk⟩ := hrow ha
  obtain ⟨_, _, hk'⟩ := hrow hb
  have hbefore := hle _ _ hk hk'
  exact hbefore

/-- The keys of a tunnel are loaded, if what was stored for it can be loaded. -/
theorem loads (he : Entered ids es db) (hkind : db.HasKind tunnel kind)
    {load : Bytes → Except SshError κ} {enters : KeyCommand → κ → Prop}
    (hload : ∀ e ∈ es, ∀ material, e.command.material kind e.key = .ok material →
      ∃ k, load material.contents = .ok k ∧ enters e.command k) :
    Loads kind tunnel enters (es.filter (·.command.tunnel = tunnel)) (do
      KeySource.readAll load (← (KeySource.ofStore ⟨db, false⟩).contents tunnel kind)) := by
  obtain ⟨sorted, hsame, hsorted, hlisted⟩ := he.exists_sorted hkind
  have hfetch : ∀ e ∈ sorted, ∃ contents k, Store.getKey ⟨db, false⟩ e.key = .ok contents ∧
      load contents = .ok k ∧ enters e.command k := by
    intro e hmem
    obtain ⟨hmem, htunnel⟩ := List.mem_filter.mp (hsame.mem_iff.mp hmem)
    have htunnel : e.command.tunnel = tunnel := by simpa using htunnel
    obtain ⟨material, hmaterial, hkey⟩ := he.stored e hmem kind (htunnel ▸ hkind)
    obtain ⟨k, hk⟩ := hload e hmem material hmaterial
    refine ⟨material.contents, k, ?_, hk⟩
    simp [Store.getKey, Store.read, hkey]
  obtain ⟨contents, keys, hcontents, hkeys, hall⟩ := exists_loaded hfetch
  have hrefs : Store.tunnelKeys ⟨db, false⟩ tunnel kind = .ok (sorted.map (·.key)) := by
    rw [← hlisted]
    rfl
  rw [KeySource.contents, KeySource.ofStore]
  simp only [hrefs, bind, Except.bind]
  cases sorted with
  | nil => exact .noKeys (List.nil_perm.mp hsame)
  | cons e rest =>
    rw [List.map_cons] at hcontents ⊢
    simp only [hcontents, KeySource.readAll, hkeys]
    refine .keys (fun hnil => ?_) hsame hsorted hall
    rw [hnil] at hsame
    cases hsame.eq_nil

end Entered

/-! ## Histories -/

/-- The files after runs of the program one after another, whose database is at the place. They have
used up these identifiers and entered these keys. -/
inductive Administered (place : Place) : List Uuid → List KeyEntry → FileSystem → Prop
  /-- There are no tables yet. -/
  | start {fs : FileSystem} : fs.tables place = {} → Administered place [] [] fs
  /-- Others change files, but not those tables. -/
  | others {ids : List Uuid} {es : List KeyEntry} {fs fs' : FileSystem} :
      Administered place ids es fs → fs'.tables place = fs.tables place →
      Administered place ids es fs'
  /-- A run opens no database. -/
  | unopened {ids : List Uuid} {es : List KeyEntry} {m : Machine} {words : List String} :
      Administered place ids es m.files → Program.opened? m words = none →
      Administered place ids es (Program.run m words).files
  /-- A run carries out a command and succeeds or fails. What it makes gets a new identifier. -/
  | ran {ids : List Uuid} {es : List KeyEntry} {m : Machine} {words : List String}
      {a : ServerArguments} {d : OpenDatabase} {c : ServerCommand} :
      Administered place ids es m.files → Program.opened? m words = some (a, d) →
      d.LiesAt place → a.command = some c → Program.administers c = true →
      (∀ id ∈ Program.newIds m c, id ∉ ids) →
      Administered place (Program.newIds m c ++ ids) (Program.entries m d a c ++ es)
        (Program.run m words).files
  /-- A key command is broken off after `n` of its three statements. -/
  | brokenOff {ids : List Uuid} {es : List KeyEntry} {m : Machine} {words : List String}
      {a : ServerArguments} {d : OpenDatabase} {c : ServerCommand} {command : KeyCommand} {n : Nat}
      {r : ProgramRun} :
      Administered place ids es m.files → Program.opened? m words = some (a, d) →
      d.LiesAt place → a.command = some c → Program.administers c = true →
      Program.keyCommand? m d c = some command → Program.newId m ∉ ids → n < 3 →
      Program.runKeyCommand command (Program.newId m) m.now n d .lookingUp = r →
      Administered place (Program.newId m :: ids)
        (r.entered ⟨command, Program.newId m, m.now⟩ ++ es) r.files

namespace Program

variable {m : Machine} {d : OpenDatabase} {a : ServerArguments} {c : ServerCommand}

theorem usual_keyCommand? {command : KeyCommand} (h : keyCommand? m d c = some command) :
    command.Usual := by
  cases c <;> cases h
  case generate tunnel algorithm =>
    cases algorithm with
    | ed25519 => exact .generated (Bytes.length_ofNat _ _)
    | rsa => exact .unmade
  case authorize => exact .authorized

theorem usual_of_mem_entered {command : KeyCommand} (hkey : keyCommand? m d c = some command)
    {r : ProgramRun} {id : Uuid} {now : Timestamp} {e : KeyEntry}
    (h : e ∈ r.entered ⟨command, id, now⟩) : e.command.Usual := by
  rw [ProgramRun.entered] at h
  split at h
  · cases List.mem_singleton.mp h
    exact usual_keyCommand? hkey
  · cases h

theorem usual_of_mem_entries {e : KeyEntry} (h : e ∈ entries m d a c) : e.command.Usual := by
  rw [entries] at h
  cases hkey : keyCommand? m d c with
  | none => rw [hkey] at h; cases h
  | some command =>
    rw [hkey] at h
    exact usual_of_mem_entered hkey h

end Program

namespace Administered

variable {place : Place} {ids : List Uuid} {es : List KeyEntry} {fs : FileSystem} {tunnel : Uuid}

theorem entered (h : Administered place ids es fs) : Entered ids es (fs.tables place) := by
  induction h with
  | start hempty =>
    rw [hempty]
    exact .start
  | others _ hsame ih =>
    rw [hsame]
    exact ih
  | unopened _ hnone ih =>
    rw [Program.sameTables_run hnone]
    exact ih
  | ran _ hopened hd hcommand hc hnew ih =>
    obtain ⟨hrun, hsame⟩ := Program.run_of_opened? hopened
    rw [← hsame] at ih
    rw [hrun]
    exact Program.entered_perform ih hd hcommand hc hnew
  | brokenOff _ hopened hd _ _ _ hnew hn hrun ih =>
    rw [← (Program.run_of_opened? hopened).2] at ih
    subst hrun
    exact Program.entered_runKeyCommand hnew _ hd (.begun ih) fun heq => absurd heq hn.ne

theorem usual (h : Administered place ids es fs) : ∀ e ∈ es, e.command.Usual := by
  induction h with
  | start => exact fun _ hmem => absurd hmem List.not_mem_nil
  | others _ _ ih | unopened _ _ ih => exact ih
  | ran _ _ _ _ _ _ ih =>
    exact fun e hmem => (List.mem_append.mp hmem).elim Program.usual_of_mem_entries (ih e)
  | brokenOff _ _ _ _ _ hkey _ _ _ ih =>
    exact fun e hmem => (List.mem_append.mp hmem).elim (Program.usual_of_mem_entered hkey) (ih e)

/-- Every tunnel that is there loads exactly the keys that were entered for it. -/
theorem keys_usable (h : Administered place ids es fs)
    (htunnel : ((fs.tables place).tunnel? tunnel).isSome = true) :
    (fs.tables place).HasKind tunnel .standard ∧
      Loads .standard tunnel KeyCommand.EntersPrivate (es.filter (·.command.tunnel = tunnel))
        ((KeySource.ofStore ⟨fs.tables place, false⟩).privateKeys tunnel) ∨
    (fs.tables place).HasKind tunnel .reverse ∧
      Loads .reverse tunnel KeyCommand.EntersPublic (es.filter (·.command.tunnel = tunnel))
        ((KeySource.ofStore ⟨fs.tables place, false⟩).authorizedKeys tunnel) := by
  obtain ⟨t, ht⟩ := Option.isSome_iff_exists.mp htunnel
  obtain ⟨-, kind, hkind⟩ := h.entered.tunnels tunnel t ht
  cases kind with
  | standard =>
    exact .inl ⟨hkind, h.entered.loads hkind fun e hmem _ hmaterial =>
      (h.usual e hmem).exists_private hmaterial⟩
  | reverse =>
    exact .inr ⟨hkind, h.entered.loads hkind fun e hmem _ hmaterial =>
      (h.usual e hmem).exists_public hmaterial⟩

/-- A run that is told to carry out a command on the database does so. -/
theorem exists_ran {m : Machine} {words : List String} {c : ServerCommand} {w : Bool}
    (h : Administered place ids es m.files)
    (hopened : (Program.opened? m words).map (fun o => (o.1.command, o.2.opened.home)) =
      some (some c, .file place w))
    (hc : Program.administers c = true) (hnew : ∀ id ∈ Program.newIds m c, id ∉ ids) :
    ∃ a d, Program.opened? m words = some (a, d) ∧
      Administered place (Program.newIds m c ++ ids) (Program.entries m d a c ++ es)
        (Program.run m words).files := by
  obtain ⟨⟨a, d⟩, hopened, heq⟩ := Option.map_eq_some_iff.mp hopened
  obtain ⟨hcommand, hhome⟩ := Prod.mk.inj heq
  exact ⟨a, d, hopened, h.ran hopened ⟨w, hhome⟩ hcommand hc hnew⟩

end Administered

/-! ## An agent's key -/

namespace AgentKey

/-- A machine whose database is `/tunnels.db`. -/
def machine (files : FileSystem) (seconds : Int) (random : Nat) : Machine where
  files
  environment := [("TB_DB_URL", "/tunnels.db")]
  now := ⟨seconds, 0⟩
  random
  network := .down
  isTaken _ _ := false
  endpoint _ _ := ⟨.silent, []⟩

theorem files_machine (files : FileSystem) (seconds : Int) (random : Nat) :
    (machine files seconds random).files = files := rfl

/-- The key lies in a file. -/
def files : FileSystem where
  nodes := [(["agent.pub"], .file 0o644 (.bytes (Bytes.ofString
    "ssh-ed25519 AAAAC3NzaC1lZDI1NTE5AAAAIAECAwQFBgcICQoLDA0ODxAREhMUFRYXGBkaGxwdHh8g agent")))]

/-- First a reverse tunnel is added. -/
def adding : Machine :=
  machine files 1700000000 1

def tunnel : Uuid :=
  Program.newId adding

def added : ProgramRun :=
  Program.run adding ["tunnels", "add-reverse", "--port", "9000"]

/-- Then the key is authorized for it. -/
def authorizing : Machine :=
  machine added.files 1700000001 2

def words : List String :=
  ["keys", "authorize", "--tunnel", tunnel.text, "/agent.pub"]

def authorized : ProgramRun :=
  Program.run authorizing words

theorem administered_added : Administered ["tunnels.db"] [tunnel] [] added.files := by
  have hstart : Administered ["tunnels.db"] [] [] adding.files := .start rfl
  have hopened : (Program.opened? adding ["tunnels", "add-reverse", "--port", "9000"]).map
      (fun o => (o.1.command, o.2.opened.home)) =
      some (some (.addReverse 9000 false), .file ["tunnels.db"] true) := by decide +kernel
  obtain ⟨_, _, _, h⟩ := hstart.exists_ran hopened rfl fun _ _ => List.not_mem_nil
  rw [tunnel, added]
  simp only [Program.newIds, Program.entries, Program.keyCommand?, Option.elim_none,
    List.append_nil] at h
  exact h

theorem keys_usable_authorized :
    ∃ ids e, Administered ["tunnels.db"] ids [e] authorized.files ∧ e.command.tunnel = tunnel ∧
      Loads .reverse tunnel KeyCommand.EntersPublic [e]
        ((KeySource.ofStore ⟨authorized.files.tables ["tunnels.db"], false⟩).authorizedKeys
          tunnel) := by
  have hopened : (Program.opened? authorizing words).map
      (fun o => (o.1.command, o.2.opened.home)) =
      some (some (.authorize tunnel "/agent.pub"), .file ["tunnels.db"] true) := by decide +kernel
  have hnew : Program.newId authorizing ∉ [tunnel] := by decide +kernel
  have hdone : authorized.ending = .finished ∧
      ((authorized.files.tables ["tunnels.db"]).tunnel? tunnel).map (·.kind) = some "reverse" := by
    decide +kernel
  obtain ⟨hended, hkind⟩ := hdone
  obtain ⟨t, ht, hkind⟩ := Option.map_eq_some_iff.mp hkind
  have hadded : Administered ["tunnels.db"] [tunnel] [] authorizing.files := by
    rw [authorizing, files_machine]
    exact administered_added
  obtain ⟨a, d, hopened, h⟩ := hadded.exists_ran hopened rfl (List.forall_mem_singleton.mpr hnew)
  rw [authorized, (Program.run_of_opened? hopened).1] at hended
  rw [Program.entries, Program.keyCommand?, Option.elim_some, ProgramRun.entered, if_pos hended,
    ← authorized] at h
  refine ⟨_, _, h, by rw [KeyCommand.tunnel], ?_⟩
  rcases h.keys_usable (by rw [ht, Option.isSome_some]) with ⟨⟨t', ht', hkind'⟩, -⟩ | ⟨-, hloads⟩
  · cases ht.symm.trans ht'
    rw [hkind] at hkind'
    cases hkind'
  · rw [List.append_nil, List.filter_singleton, KeyCommand.tunnel, decide_eq_true rfl] at hloads
    exact hloads

end AgentKey
end SshTunnels
