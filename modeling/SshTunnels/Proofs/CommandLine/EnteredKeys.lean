import Mathlib.Data.List.Perm.Basic
import SshTunnels.Proofs.CommandLine.KeyStatements
import SshTunnels.Proofs.Store.Authorizations

/-!
# Entered keys

What the tables hold after commands that were carried out one after another (`Entered`): the key of
each key command that succeeded is stored, and it is authorized for the tunnel of the command for as
long as there is that tunnel. Every statement of a key command preserves this
(`KeyCommand.Underway.step`).
-/

namespace SshTunnels

/-- A key command that succeeded, the identifier of its key, and when. -/
structure KeyEntry where
  command : KeyCommand
  key : Uuid
  now : Timestamp

/-- Keys are in the order of their stored creation times, and of keys of one time the one with the
smaller identifier comes first. -/
def KeyEntry.Before (a b : KeyEntry) : Prop :=
  a.now.stored < b.now.stored ∨ a.now.stored = b.now.stored ∧ a.key.toNat < b.key.toNat

namespace Database

variable {db db' : Database} {tunnel id : Uuid} {kind kind' : TunnelKind}

/-- The row of a tunnel is of this kind. -/
def HasKind (db : Database) (tunnel : Uuid) (kind : TunnelKind) : Prop :=
  ∃ t, db.tunnel? tunnel = some t ∧ TunnelKind.ofName? t.kind = some kind

theorem HasKind.unique (h : db.HasKind tunnel kind) (h' : db.HasKind tunnel kind') :
    kind = kind' := by
  obtain ⟨t, ht, hkind⟩ := h
  obtain ⟨t', ht', hkind'⟩ := h'
  cases ht.symm.trans ht'
  exact Option.some.inj (hkind.symm.trans hkind')

theorem hasKind_congr (h : db'.tunnel? tunnel = db.tunnel? tunnel) :
    db'.HasKind tunnel kind ↔ db.HasKind tunnel kind := by
  rw [HasKind, h, HasKind]

theorem hasKind_of_tunnels (h : db'.tunnels = db.tunnels) :
    db'.HasKind tunnel kind ↔ db.HasKind tunnel kind :=
  hasKind_congr (by rw [tunnel?, h, tunnel?])

/-- A tunnel that can be read has the kind that is read. -/
theorem IsOfKind.hasKind (h : db.IsOfKind tunnel kind) : db.HasKind tunnel kind := by
  obtain ⟨t, row, config, ht, hrow, hconfig, rfl⟩ := isOfKind_iff.mp h
  obtain ⟨createdAt, -, rfl⟩ := Option.map_eq_some_iff.mp hrow
  exact ⟨t, ht, TunnelRow.kind_of_toConfig hconfig⟩

/-- Neither enabling nor disabling changes a kind. -/
theorem hasKind_of_enabled {enabled : Bool} (h : db.setTunnelEnabled id enabled = .ok db') :
    db'.HasKind tunnel kind ↔ db.HasKind tunnel kind := by
  rw [HasKind, tunnel?_of_enabled h, HasKind]
  cases db.tunnel? tunnel with
  | none => simp
  | some t =>
    simp only [Option.map_some, Option.some.injEq, exists_eq_left']
    split <;> rfl

end Database

/-- What the tables hold after commands, if these used the identifiers `ids` and the key commands
`es` among them succeeded. -/
structure Entered (ids : List Uuid) (es : List KeyEntry) (db : Database) : Prop where
  /-- Every tunnel was added by a command, with a kind. -/
  tunnels : ∀ tunnel t, db.tunnel? tunnel = some t → tunnel ∈ ids ∧ ∃ kind, db.HasKind tunnel kind
  /-- Every key was stored by a command. -/
  keys : ∀ key, (db.key? key).isSome = true → key ∈ ids
  /-- The identifiers of key commands that succeeded are in use. -/
  entries : ∀ e ∈ es, e.command.tunnel ∈ ids ∧ e.key ∈ ids
  /-- Each of them has a key of its own. -/
  distinct : (es.map (·.key)).Nodup
  /-- No pair of a tunnel and a key is authorized twice. -/
  once : (db.authorizations.map fun a => (a.tunnel, a.key)).Nodup
  /-- The keys of a tunnel are those that were entered for it, under its kind. -/
  authorized : ∀ tunnel kind key, ⟨tunnel, kind, key⟩ ∈ db.authorizations ↔
    db.HasKind tunnel kind ∧ ∃ e ∈ es, e.command.tunnel = tunnel ∧ e.key = key
  /-- They are stored as the command made them for a tunnel of its kind. -/
  stored : ∀ e ∈ es, ∀ kind, db.HasKind e.command.tunnel kind → ∃ material,
    e.command.material kind e.key = .ok material ∧
      db.key? e.key = some ⟨e.key, material.kind, material.contents, e.now.stored⟩

namespace Entered

variable {ids ids' : List Uuid} {es : List KeyEntry} {db db' : Database} {tunnel id : Uuid}
  {kind : TunnelKind}

theorem start : Entered [] [] {} where
  tunnels _ _ h := nomatch h
  keys _ h := nomatch h
  entries _ h := nomatch h
  distinct := List.nodup_nil
  once := List.nodup_nil
  authorized _ _ _ := iff_of_false List.not_mem_nil fun ⟨_, _, h, _⟩ => nomatch h
  stored _ h := nomatch h

/-- The tunnels keep their kinds, the keys their contents and the authorizations what they are. -/
theorem unaltered (he : Entered ids es db) (hsub : ids ⊆ ids')
    (htunnels : ∀ tunnel t, db'.tunnel? tunnel = some t →
      tunnel ∈ ids' ∧ ∃ kind, db'.HasKind tunnel kind)
    (hkinds : ∀ tunnel ∈ ids, ∀ kind, db'.HasKind tunnel kind ↔ db.HasKind tunnel kind)
    (hkeys : ∀ key, (db'.key? key).isSome = true → key ∈ ids')
    (hsame : ∀ key ∈ ids, db'.key? key = db.key? key)
    (hauth : db'.authorizations = db.authorizations) : Entered ids' es db' where
  tunnels := htunnels
  keys := hkeys
  entries e hmem := (he.entries e hmem).imp (fun h => hsub h) fun h => hsub h
  distinct := he.distinct
  once := by rw [hauth]; exact he.once
  authorized tunnel kind key := by
    rw [hauth, he.authorized]
    refine and_congr_left fun ⟨e, hmem, htunnel, _⟩ => ?_
    rw [hkinds tunnel (htunnel ▸ (he.entries e hmem).1)]
  stored e hmem kind hkind := by
    obtain ⟨htunnel, hkey⟩ := he.entries e hmem
    rw [hkinds _ htunnel] at hkind
    rw [hsame _ hkey]
    exact he.stored e hmem kind hkind

/-- A command may use an identifier and leave the tables as they are. -/
theorem mono (he : Entered ids es db) (hsub : ids ⊆ ids') : Entered ids' es db :=
  he.unaltered hsub (fun tunnel t ht => (he.tunnels tunnel t ht).imp_left fun h => hsub h)
    (fun _ _ _ => .rfl) (fun key hkey => hsub (he.keys key hkey)) (fun _ _ => rfl) rfl

/-- A tunnel is added. -/
theorem inserted (he : Entered ids es db) {config : TunnelConfig} (hnew : config.id ∉ ids)
    (h : db.insertTunnel config = .ok db') : Entered (config.id :: ids) es db' := by
  have hother {tunnel : Uuid} (hne : tunnel ≠ config.id) := Database.tunnel?_of_inserted h hne
  have hown : db'.HasKind config.id config.kind :=
    ⟨_, Database.tunnel?_of_inserted_self h, by cases config <;> rfl⟩
  obtain ⟨-, -, rfl⟩ := Database.addTunnel_ok h
  refine he.unaltered (List.subset_cons_self _ _) (fun tunnel t ht => ?_)
    (fun tunnel hmem kind => ?_) (fun key hkey => List.mem_cons_of_mem _ (he.keys key hkey))
    (fun _ _ => rfl) rfl
  · by_cases heq : tunnel = config.id
    · subst heq
      exact ⟨List.mem_cons_self, _, hown⟩
    · rw [hother heq] at ht
      obtain ⟨hmem, kind, hkind⟩ := he.tunnels tunnel t ht
      exact ⟨List.mem_cons_of_mem _ hmem, kind, (Database.hasKind_congr (hother heq)).mpr hkind⟩
  · exact Database.hasKind_congr (hother fun heq => hnew (heq ▸ hmem))

/-- A tunnel is enabled or disabled. -/
theorem enabled (he : Entered ids es db) {enabled : Bool}
    (h : db.setTunnelEnabled tunnel enabled = .ok db') : Entered ids es db' := by
  have hkinds {id : Uuid} {kind : TunnelKind} : db'.HasKind id kind ↔ db.HasKind id kind :=
    Database.hasKind_of_enabled h
  have hrow (id : Uuid) : db'.tunnel? id = (db.tunnel? id).map fun t =>
      if t.id == tunnel then { t with enabled := if enabled then 1 else 0 } else t :=
    Database.tunnel?_of_enabled h
  cases Database.change_cases (show db.change (.setTunnelEnabled tunnel enabled) = .ok db' from h)
  refine he.unaltered (List.Subset.refl _) (fun id t ht => ?_) (fun _ _ _ => hkinds) he.keys
    (fun _ _ => rfl) rfl
  rw [hrow, Option.map_eq_some_iff] at ht
  obtain ⟨old, hold, -⟩ := ht
  simpa only [hkinds] using he.tunnels id old hold

/-- A tunnel goes. -/
theorem deleted (he : Entered ids es db) (h : db.deleteTunnel tunnel = .ok db') :
    Entered ids es db' := by
  have hrow (id : Uuid) : db'.tunnel? id = if id = tunnel then none else db.tunnel? id :=
    Database.tunnel?_of_deleted h
  have hkinds {id : Uuid} {kind : TunnelKind} :
      db'.HasKind id kind ↔ id ≠ tunnel ∧ db.HasKind id kind := by
    rw [Database.HasKind, hrow]
    by_cases heq : id = tunnel
    · simp [heq]
    · rw [if_neg heq, Database.HasKind, and_iff_right heq]
  -- The authorizations go with the tunnel, and what has no row has no kind.
  cases Database.change_cases (show db.change (.deleteTunnel tunnel) = .ok db' from h)
  refine ⟨fun id t ht => ?_, he.keys, he.entries, he.distinct, ?_, fun id kind key => ?_,
    fun e hmem kind hkind => he.stored e hmem kind (hkinds.mp hkind).2⟩
  · rw [hrow] at ht
    split at ht
    · cases ht
    · next hne =>
      obtain ⟨hmem, kind, hkind⟩ := he.tunnels id t ht
      exact ⟨hmem, kind, hkinds.mpr ⟨hne, hkind⟩⟩
  · exact he.once.sublist (List.filter_sublist.map _)
  · rw [List.mem_filter, he.authorized, hkinds, bne_iff_ne, and_comm, and_assoc]

theorem key?_eq_none (he : Entered ids es db) (hnew : id ∉ ids) : db.key? id = none := by
  rw [← Option.not_isSome_iff_eq_none]
  exact fun h => hnew (he.keys id h)

/-- A key is stored under a new identifier. -/
theorem put (he : Entered ids es db) (hnew : id ∉ ids) (now : Timestamp) (kind : KeyKind)
    (contents : Bytes) : Entered (id :: ids) es (db.putKey now id kind contents) := by
  have hkey (key : Uuid) := db.key?_putKey id key now kind contents
  have hput : db.putKey now id kind contents =
      { db with keys := db.keys ++ [⟨id, kind, contents, now.stored⟩] } := by
    rw [Database.putKey, he.key?_eq_none hnew]
  rw [hput] at hkey ⊢
  refine he.unaltered (List.subset_cons_self _ _)
    (fun tunnel t ht => (he.tunnels tunnel t ht).imp_left (List.mem_cons_of_mem _))
    (fun _ _ _ => .rfl) (fun key hsome => ?_) (fun key hmem => ?_) rfl
  · by_cases heq : key = id
    · exact heq ▸ List.mem_cons_self
    · rw [hkey, if_neg heq] at hsome
      exact List.mem_cons_of_mem _ (he.keys key hsome)
  · rw [hkey, if_neg (ne_of_mem_of_not_mem hmem hnew)]

/-- A stored key is authorized for a tunnel, and no other command has that key. -/
theorem entered (he : Entered ids es db) {e : KeyEntry} (hnew : ∀ e' ∈ es, e'.key ≠ e.key)
    (hkind : db.HasKind e.command.tunnel kind) {material : KeyMaterial}
    (hmaterial : e.command.material kind e.key = .ok material)
    (hkey : db.key? e.key = some ⟨e.key, material.kind, material.contents, e.now.stored⟩)
    (h : db.authorizeKey e.command.tunnel kind e.key = .ok db') :
    Entered ids (e :: es) db' := by
  have hfree : ∀ a ∈ db.authorizations, a.key ≠ e.key := by
    rintro ⟨tunnel, kind, key⟩ hmem rfl
    obtain ⟨-, e', he', -, hsame⟩ := (he.authorized _ _ _).mp hmem
    exact hnew e' he' hsame
  have hauth : db' = { db with
      authorizations := db.authorizations ++ [⟨e.command.tunnel, kind, e.key⟩] } := by
    rcases Database.authorizeKey_ok h with ⟨hthere, -⟩ | ⟨-, -, -, rfl⟩
    · obtain ⟨kind', hmem⟩ := Database.isAuthorized_iff.mp hthere
      exact absurd rfl (hfree _ hmem)
    · rfl
  subst hauth
  obtain ⟨t, ht, -⟩ := id hkind
  refine ⟨he.tunnels, he.keys, fun e' hmem => ?_, ?_, ?_, fun tunnel kind' key => ?_,
    fun e' hmem kind' hkind' => ?_⟩
  · rcases List.mem_cons.mp hmem with rfl | hmem
    · exact ⟨(he.tunnels _ t ht).1, he.keys _ (by rw [hkey]; rfl)⟩
    · exact he.entries e' hmem
  · rw [List.map_cons, List.nodup_cons]
    refine ⟨fun hmem => ?_, he.distinct⟩
    obtain ⟨e', he', hsame⟩ := List.mem_map.mp hmem
    exact hnew e' he' hsame
  · rw [List.map_append]
    refine List.nodup_append.mpr ⟨he.once, List.nodup_singleton _, ?_⟩
    rintro _ hold _ hlast rfl
    obtain ⟨a, hmem, heq⟩ := List.mem_map.mp hold
    exact hfree a hmem (congrArg Prod.snd (heq.trans (List.mem_singleton.mp hlast)))
  · rw [List.mem_append, he.authorized, List.mem_singleton]
    constructor
    · rintro (⟨hkind', e', hmem, heq⟩ | heq)
      · exact ⟨hkind', e', List.mem_cons_of_mem _ hmem, heq⟩
      · cases heq
        exact ⟨hkind, e, List.mem_cons_self, rfl, rfl⟩
    · rintro ⟨hkind', e', hmem, rfl, rfl⟩
      rcases List.mem_cons.mp hmem with rfl | hmem
      · exact .inr (by rw [hkind'.unique hkind])
      · exact .inl ⟨hkind', e', hmem, rfl, rfl⟩
  · rcases List.mem_cons.mp hmem with rfl | hmem
    · cases hkind'.unique hkind
      exact ⟨material, hmaterial, hkey⟩
    · exact he.stored e' hmem kind' hkind'

end Entered

/-! ## A key command on its way -/

/-- How far a key command has come that uses the identifier `id`, on tables that hold the keys `es`
entered before. -/
inductive KeyCommand.Underway (command : KeyCommand) (id : Uuid) (now : Timestamp)
    (ids : List Uuid) (es : List KeyEntry) : Database → KeyCommandPhase → Prop
  /-- It has yet to begin. -/
  | begun {db : Database} : Entered ids es db → Underway command id now ids es db .lookingUp
  /-- The tunnel is there. -/
  | found {db : Database} {kind : TunnelKind} {material : KeyMaterial} :
      Entered ids es db → db.HasKind command.tunnel kind →
      command.material kind id = .ok material →
      Underway command id now ids es db (.inserting kind material)
  /-- The key is stored. -/
  | put {db : Database} {kind : TunnelKind} {material : KeyMaterial} :
      Entered (id :: ids) es db → db.HasKind command.tunnel kind →
      command.material kind id = .ok material →
      db.key? id = some ⟨id, material.kind, material.contents, now.stored⟩ →
      (∀ e ∈ es, e.key ≠ id) →
      Underway command id now ids es db (.authorizing kind material.printed)
  /-- It has succeeded. -/
  | entered {db : Database} {printed : String} :
      Entered (id :: ids) (⟨command, id, now⟩ :: es) db →
      Underway command id now ids es db (.done (.ok printed))
  /-- It has failed. -/
  | failed {db : Database} {e : ProgramError} :
      Entered (id :: ids) es db → Underway command id now ids es db (.done (.error e))

namespace KeyCommand

variable {command : KeyCommand} {id : Uuid} {now : Timestamp} {ids : List Uuid}
  {es : List KeyEntry} {db db' : Database} {phase phase' : KeyCommandPhase}

/-- The tables, unless the command has succeeded. -/
theorem Underway.unless_entered (hu : Underway command id now ids es db phase)
    (hphase : ∀ printed, phase ≠ .done (.ok printed)) : Entered (id :: ids) es db := by
  cases hu with
  | begun he | found he => exact he.mono (List.subset_cons_self _ _)
  | put he | failed he => exact he
  | entered => exact absurd rfl (hphase _)

/-- Each statement brings the command further. -/
theorem Underway.step (hu : Underway command id now ids es db phase) (hnew : id ∉ ids)
    (hs : Steps command id now db phase phase' db') :
    Underway command id now ids es db' phase' := by
  have hsub : ids ⊆ id :: ids := List.subset_cons_self _ _
  have htunnels := hs.tunnels
  cases hs with
  | lookupFailed =>
    cases hu with
    | begun he => exact .failed (he.mono hsub)
  | found hkind hmaterial =>
    cases hu with
    | begun he => exact .found he hkind.hasKind hmaterial
  | inserted =>
    cases hu with
    | found he hkind hmaterial =>
      refine .put (he.put hnew _ _ _) ((Database.hasKind_of_tunnels htunnels).mpr hkind)
        hmaterial ?_ fun e hmem heq => hnew (heq ▸ (he.entries e hmem).2)
      rw [Database.key?_putKey, if_pos rfl, he.key?_eq_none hnew]
      rfl
  | refused =>
    cases hu with
    | put he => exact .failed he
  | authorized hdone =>
    cases hu with
    | put he hkind hmaterial hkey hown =>
      exact .entered (he.entered hown hkind hmaterial hkey hdone)
  | idle => exact hu

end KeyCommand
end SshTunnels
