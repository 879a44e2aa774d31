import Mathlib.Data.List.Nodup
import SshTunnels.Proofs.Store.Changes
import SshTunnels.Proofs.Tunnel.Rows

/-!
# The catalogue of tunnels

About tunnels the store answers like a finite map from identifiers to configurations, whatever is
asked of it and in whatever order (`catalogued_of_calls`). `Catalogue.Answers` has the rules of the
map, one for each answer to each call. The rows of the table are at every moment the rows of
configurations (`Represents`), so there is none that a list leaves out or that a look-up rejects.
-/

namespace SshTunnels

/-- A configuration for each identifier that has one. -/
abbrev Catalogue := Uuid → Option TunnelConfig

/-- What is asked of the store: a change of any kind, or for tunnels. -/
inductive StoreCall where
  | change (event : StoreEvent)
  | get (id : Uuid)
  | list
  | listEnabled

/-- What the store answers to a call. -/
inductive StoreAnswer where
  | changed (reply : StoreReply)
  | found (result : Except StoreError (Option TunnelConfig))
  | listed (result : Except StoreError (List TunnelConfig))
  deriving DecidableEq

namespace StoreEvent

/-- The request is about keys. -/
def isAboutKeys : StoreEvent → Bool
  | .putKey .. | .deleteKey _ | .authorizeKey .. | .revokeKey .. => true
  | .insertTunnel _ | .updateTunnel _ | .setTunnelEnabled .. | .deleteTunnel _ => false

end StoreEvent

namespace StoreCall

/-- The configuration of a tunnel to be stored. -/
def inserted? : StoreCall → Option TunnelConfig
  | .change (.insertTunnel config) => some config
  | _ => none

/-- A tunnel to be stored was created at a time of a year with four digits, not in a leap second off
the end of its minute. -/
def Dated (call : StoreCall) : Prop :=
  ∀ config ∈ call.inserted?, config.createdAt.Civil

instance (call : StoreCall) : Decidable call.Dated :=
  inferInstanceAs (Decidable (∀ config ∈ call.inserted?, config.createdAt.Civil))

end StoreCall

namespace Catalogue

/-- The catalogue with the configuration of an identifier set, or taken out. -/
def set (m : Catalogue) (id : Uuid) (config : Option TunnelConfig) : Catalogue :=
  fun k => if k = id then config else m k

/-- `m.Answers call answer m'`: a catalogue `m` may answer a call like this, and is `m'` then. -/
inductive Answers (m : Catalogue) : StoreCall → StoreAnswer → Catalogue → Prop where
  | inserted {config : TunnelConfig} : config.tunnelPort ≠ 0 → m config.id = none →
      Answers m (.change (.insertTunnel config)) (.changed (.ok ())) (m.set config.id (some config))
  | takenId {config old : TunnelConfig} : config.tunnelPort ≠ 0 → m config.id = some old →
      Answers m (.change (.insertTunnel config)) (.changed (.error (.query (some .primaryKey)))) m
  | insertedWithoutPort {config : TunnelConfig} : config.tunnelPort = 0 →
      Answers m (.change (.insertTunnel config)) (.changed (.error (.query (some .check)))) m
  /-- All is replaced but the creation time. -/
  | updated {config old : TunnelConfig} : config.tunnelPort ≠ 0 → m config.id = some old →
      Answers m (.change (.updateTunnel config)) (.changed (.ok ()))
        (m.set config.id (some (config.setCreatedAt old.createdAt)))
  | updatedWithoutPort {config old : TunnelConfig} : config.tunnelPort = 0 →
      m config.id = some old →
      Answers m (.change (.updateTunnel config)) (.changed (.error (.query (some .check)))) m
  | updatedInVain {config : TunnelConfig} : m config.id = none →
      Answers m (.change (.updateTunnel config)) (.changed (.error (.tunnelNotFound config.id))) m
  | enabled {id : Uuid} {enabled : Bool} {old : TunnelConfig} : m id = some old →
      Answers m (.change (.setTunnelEnabled id enabled)) (.changed (.ok ()))
        (m.set id (some (old.setEnabled enabled)))
  | enabledInVain {id : Uuid} {enabled : Bool} : m id = none →
      Answers m (.change (.setTunnelEnabled id enabled)) (.changed (.error (.tunnelNotFound id))) m
  | deleted {id : Uuid} {old : TunnelConfig} : m id = some old →
      Answers m (.change (.deleteTunnel id)) (.changed (.ok ())) (m.set id none)
  | deletedInVain {id : Uuid} : m id = none →
      Answers m (.change (.deleteTunnel id)) (.changed (.error (.tunnelNotFound id))) m
  /-- Keys are not the catalogue's business. -/
  | elsewhere {event : StoreEvent} {reply : StoreReply} : event.isAboutKeys = true →
      Answers m (.change event) (.changed reply) m
  | found {id : Uuid} : Answers m (.get id) (.found (.ok (m id))) m
  /-- A list has every configuration once. -/
  | listed {configs : List TunnelConfig} : configs.Nodup →
      (∀ config, config ∈ configs ↔ m config.id = some config) →
      Answers m .list (.listed (.ok configs)) m
  | listedEnabled {configs : List TunnelConfig} : configs.Nodup →
      (∀ config, config ∈ configs ↔ m config.id = some config ∧ config.enabled = true) →
      Answers m .listEnabled (.listed (.ok configs)) m

/-- `Tells h m`: a catalogue that was empty at first may have answered all calls like this, the
latest first, and is `m` now. -/
inductive Tells : List (StoreCall × StoreAnswer) → Catalogue → Prop where
  | start : Tells [] fun _ => none
  | next {h : List (StoreCall × StoreAnswer)} {m m' : Catalogue} {call : StoreCall}
      {answer : StoreAnswer} : Tells h m → m.Answers call answer m' → Tells ((call, answer) :: h) m'

/-! ## Catalogues of lists -/

/-- The catalogue of some configurations. -/
def ofList (configs : List TunnelConfig) : Catalogue :=
  fun id => configs.find? (·.id == id)

variable {configs : List TunnelConfig} {config : TunnelConfig} {id : Uuid}

theorem set_self (m : Catalogue) (id : Uuid) (config : Option TunnelConfig) :
    m.set id config id = config :=
  if_pos rfl

theorem set_of_ne (m : Catalogue) {id k : Uuid} (h : k ≠ id) (config : Option TunnelConfig) :
    m.set id config k = m k :=
  if_neg h

theorem id_of_ofList (h : ofList configs id = some config) : config.id = id := by
  simpa using List.find?_some h

theorem ofList_eq_none_iff : ofList configs id = none ↔ id ∉ configs.map (·.id) := by
  simp [ofList]

theorem ofList_eq_some_iff (hn : (configs.map (·.id)).Nodup) :
    ofList configs config.id = some config ↔ config ∈ configs := by
  constructor
  · exact List.mem_of_find?_eq_some
  · intro hmem
    cases hfind : ofList configs config.id with
    | none => exact absurd (List.mem_map_of_mem hmem) (ofList_eq_none_iff.mp hfind)
    | some other =>
      have hother := List.mem_of_find?_eq_some hfind
      rw [List.inj_on_of_nodup_map hn hother hmem (id_of_ofList hfind)]

theorem ofList_concat (h : ofList configs config.id = none) :
    ofList (configs ++ [config]) = (ofList configs).set config.id (some config) := by
  funext id
  by_cases hid : id = config.id
  · subst hid
    rw [set_self, ofList, List.find?_append]
    rw [ofList] at h
    simp [h]
  · rw [set_of_ne _ hid, ofList, List.find?_append]
    simp [ofList, Ne.symm hid]

theorem ofList_map {f : TunnelConfig → TunnelConfig} (hf : ∀ c, c.id = id → (f c).id = id) :
    ofList (configs.map fun c => if c.id == id then f c else c) =
      (ofList configs).set id ((ofList configs id).map f) := by
  funext k
  have hkey : ((fun c : TunnelConfig => c.id == k) ∘ fun c => if c.id == id then f c else c) =
      fun c => c.id == k := by
    funext c
    simp only [Function.comp_apply]
    split
    · next hc =>
      have hc : c.id = id := by simpa using hc
      rw [hf c hc, hc]
    · rfl
  rw [ofList, List.find?_map, hkey, ← ofList]
  by_cases hk : k = id
  · subst hk
    rw [set_self]
    refine Option.map_congr fun c hc => ?_
    rw [id_of_ofList hc, beq_self_eq_true]
    rfl
  · rw [set_of_ne _ hk]
    cases hfind : ofList configs k with
    | none => rfl
    | some c =>
      have hc : (c.id == id) = false := by
        rw [id_of_ofList hfind]
        exact beq_false_of_ne hk
      rw [Option.map_some, hc]
      rfl

theorem ofList_filter : ofList (configs.filter (·.id != id)) = (ofList configs).set id none := by
  funext k
  rw [ofList, List.find?_filter]
  by_cases hk : k = id
  · subst hk
    rw [set_self, List.find?_eq_none]
    simp
  · rw [set_of_ne _ hk, ofList]
    congr 1
    funext c
    by_cases hc : c.id = k
    · simp [hc, hk]
    · simp [hc]

end Catalogue

namespace Database

variable {db : Database} {configs : List TunnelConfig} {config : TunnelConfig} {id : Uuid}

/-- The table of tunnels has the rows of these configurations. -/
structure Represents (db : Database) (configs : List TunnelConfig) : Prop where
  rows : db.tunnels = configs.map .ofConfig
  once : (configs.map (·.id)).Nodup
  dated : ∀ config ∈ configs, config.createdAt.Civil

theorem Represents.tunnel? (hr : db.Represents configs) (id : Uuid) :
    db.tunnel? id = (Catalogue.ofList configs id).map .ofConfig := by
  have hkey : ((fun t : StoredTunnel => t.id == id) ∘ StoredTunnel.ofConfig) =
      fun c => c.id == id := by
    funext c
    simp
  rw [Database.tunnel?, hr.rows, List.find?_map, hkey]
  rfl

/-! ## What changes make of the rows -/

theorem Represents.inserted (hr : db.Represents configs) (hdated : config.createdAt.Civil)
    (hfree : Catalogue.ofList configs config.id = none) :
    Represents { db with tunnels := db.tunnels ++ [.ofConfig config] } (configs ++ [config]) where
  rows := by rw [hr.rows, List.map_append, List.map_singleton]
  once := by
    rw [List.map_append]
    refine List.nodup_append.mpr ⟨hr.once, List.nodup_singleton _, ?_⟩
    rintro _ hmem _ hnew rfl
    rw [List.map_singleton, List.mem_singleton] at hnew
    exact Catalogue.ofList_eq_none_iff.mp hfree (hnew ▸ hmem)
  dated c hc := by
    rw [List.mem_append, List.mem_singleton] at hc
    rcases hc with hc | rfl
    · exact hr.dated c hc
    · exact hdated

/-- The configuration of an identifier is changed, and its row with it. -/
theorem Represents.changed (hr : db.Represents configs) (id : Uuid)
    {f : TunnelConfig → TunnelConfig} {g : StoredTunnel → StoredTunnel}
    (hid : ∀ c, c.id = id → (f c).id = id)
    (hdate : ∀ c, (f c).createdAt = c.createdAt) (hrow : ∀ c, g (.ofConfig c) = .ofConfig (f c)) :
    Represents { db with tunnels := db.tunnels.map fun t => if t.id == id then g t else t }
      (configs.map fun c => if c.id == id then f c else c) where
  rows := by
    rw [hr.rows, List.map_map, List.map_map]
    refine List.map_congr_left fun c _ => ?_
    simp only [Function.comp_apply, StoredTunnel.id_ofConfig]
    split
    · exact hrow c
    · rfl
  once := by
    have hids : (configs.map fun c => if c.id == id then f c else c).map (·.id) =
        configs.map (·.id) := by
      rw [List.map_map]
      refine List.map_congr_left fun c _ => ?_
      simp only [Function.comp_apply]
      split
      · next hc =>
        have hc : c.id = id := by simpa using hc
        rw [hid c hc, hc]
      · rfl
    rw [hids]
    exact hr.once
  dated c hc := by
    obtain ⟨old, hold, rfl⟩ := List.mem_map.mp hc
    split
    · rw [hdate]
      exact hr.dated old hold
    · exact hr.dated old hold

theorem Represents.deleted (hr : db.Represents configs) (authorizations : List Authorization) :
    Represents { db with tunnels := db.tunnels.filter (·.id != id), authorizations }
      (configs.filter (·.id != id)) where
  rows := by
    have hkey : ((fun t : StoredTunnel => t.id != id) ∘ StoredTunnel.ofConfig) =
        fun c => c.id != id := by
      funext c
      simp
    rw [hr.rows, List.filter_map, hkey]
  once := hr.once.sublist (List.filter_sublist.map _)
  dated c hc := hr.dated c (List.mem_of_mem_filter hc)

/-! ## What the rows say -/

theorem readRow_ofConfig (h : config.createdAt.Civil) :
    readRow (.ofConfig config) = .ok (.ofConfig config) := by
  have hdate : (TunnelRow.ofConfig config).createdAt.Civil := by
    rw [TunnelRow.createdAt_ofConfig]
    exact h
  rw [readRow, StoredTunnel.ofConfig, StoredTunnel.toRow?_ofRow hdate]

theorem Represents.getTunnel (hr : db.Represents configs) (id : Uuid) :
    db.getTunnel id = .ok (Catalogue.ofList configs id) := by
  rw [Database.getTunnel, hr.tunnel?]
  cases hfind : Catalogue.ofList configs id with
  | none => rfl
  | some config =>
    have hrow := readRow_ofConfig (hr.dated config (List.mem_of_find?_eq_some hfind))
    simp only [Option.map_some, hrow, bind, Except.bind, TunnelRow.toConfig_ofConfig]

theorem mapM_readRow (hdated : ∀ config ∈ configs, config.createdAt.Civil) :
    (configs.map StoredTunnel.ofConfig).mapM readRow = .ok (configs.map TunnelRow.ofConfig) := by
  induction configs with
  | nil => rfl
  | cons config configs ih =>
    obtain ⟨hhead, hrest⟩ := List.forall_mem_cons.mp hdated
    rw [List.map_cons, List.mapM_cons, readRow_ofConfig hhead, ih hrest]
    rfl

/-- Rows of configurations list these configurations, in the order of their creation times. -/
theorem configs_ofConfig (hdated : ∀ config ∈ configs, config.createdAt.Civil) :
    Database.configs (configs.map .ofConfig) =
      .ok (configs.mergeSort fun a b => a.createdAt.stored ≤ b.createdAt.stored) := by
  have hsorted : byCreation (configs.map StoredTunnel.ofConfig) =
      (configs.mergeSort fun a b => a.createdAt.stored ≤ b.createdAt.stored).map .ofConfig := by
    rw [byCreation, List.map_mergeSort]
    rintro a - b -
    simp
  have hread : ∀ l : List TunnelConfig,
      (l.map TunnelRow.ofConfig).filterMap (·.toConfig.toOption) = l := by
    intro l
    rw [List.filterMap_map]
    refine (List.filterMap_congr fun config _ => ?_).trans List.filterMap_some
    simp only [Function.comp_apply, TunnelRow.toConfig_ofConfig]
    rfl
  rw [Database.configs, hsorted,
    mapM_readRow fun config hmem => hdated config (by simpa using hmem)]
  show Except.ok _ = _
  rw [hread]

theorem Represents.listTunnels (hr : db.Represents configs) : ∃ l, db.listTunnels = .ok l ∧
    l.Nodup ∧ ∀ config, config ∈ l ↔ Catalogue.ofList configs config.id = some config := by
  have hlist := configs_ofConfig hr.dated
  rw [← hr.rows] at hlist
  refine ⟨_, hlist, ?_, fun config => ?_⟩
  · exact (List.mergeSort_perm _ _).nodup_iff.mpr hr.once.of_map
  · rw [List.mem_mergeSort, Catalogue.ofList_eq_some_iff hr.once]

theorem Represents.listEnabledTunnels (hr : db.Represents configs) :
    ∃ l, db.listEnabledTunnels = .ok l ∧ l.Nodup ∧ ∀ config, config ∈ l ↔
      Catalogue.ofList configs config.id = some config ∧ config.enabled = true := by
  have hkey : ((fun t : StoredTunnel => t.enabled == 1) ∘ StoredTunnel.ofConfig) =
      fun config => config.enabled := by
    funext config
    simp
  have hrows : (configs.filter (·.enabled)).map .ofConfig =
      db.tunnels.filter (·.enabled == 1) := by
    rw [hr.rows, List.filter_map, hkey]
  have hdated : ∀ config ∈ configs.filter (·.enabled), config.createdAt.Civil :=
    fun config hmem => hr.dated config (List.mem_of_mem_filter hmem)
  have hlist := configs_ofConfig hdated
  rw [hrows] at hlist
  refine ⟨_, hlist, ?_, fun config => ?_⟩
  · exact (List.mergeSort_perm _ _).nodup_iff.mpr (hr.once.of_map.filter _)
  · rw [List.mem_mergeSort, List.mem_filter, Catalogue.ofList_eq_some_iff hr.once]

/-! ## What a change answers -/

theorem Represents.insertTunnel_free (hr : db.Represents configs) (hport : config.tunnelPort ≠ 0)
    (hfree : Catalogue.ofList configs config.id = none) :
    db.insertTunnel config = .ok { db with tunnels := db.tunnels ++ [.ofConfig config] } := by
  have hsound := (StoredTunnel.isSound_ofConfig config).mpr hport
  rw [insertTunnel, ← StoredTunnel.ofConfig, addTunnel, hsound, StoredTunnel.id_ofConfig,
    hr.tunnel?, hfree]
  rfl

theorem Represents.insertTunnel_taken (hr : db.Represents configs) (hport : config.tunnelPort ≠ 0)
    {old : TunnelConfig} (hold : Catalogue.ofList configs config.id = some old) :
    db.insertTunnel config = .error (.query (some .primaryKey)) := by
  have hsound := (StoredTunnel.isSound_ofConfig config).mpr hport
  rw [insertTunnel, ← StoredTunnel.ofConfig, addTunnel, hsound, StoredTunnel.id_ofConfig,
    hr.tunnel?, hold]
  rfl

theorem isSound_of_port_eq_zero (hport : config.tunnelPort = 0) :
    (StoredTunnel.ofConfig config).isSound = false := by
  rw [Bool.eq_false_iff, Ne, StoredTunnel.isSound_ofConfig, not_not]
  exact hport

theorem insertTunnel_of_port_eq_zero (hport : config.tunnelPort = 0) :
    db.insertTunnel config = .error (.query (some .check)) := by
  rw [insertTunnel, ← StoredTunnel.ofConfig, addTunnel, isSound_of_port_eq_zero hport]
  rfl

/-- A row is replaced by that of the new configuration, with the old creation time. -/
theorem replacement_ofConfig (config old : TunnelConfig) :
    replacement config (.ofConfig old) = .ofConfig (config.setCreatedAt old.createdAt) := by
  rw [replacement, StoredTunnel.ofConfig_setCreatedAt, StoredTunnel.createdAt_ofConfig]
  rfl

end Database

namespace TunnelConfig

@[simp] theorem id_setCreatedAt (config : TunnelConfig) (createdAt : Timestamp) :
    (config.setCreatedAt createdAt).id = config.id := by
  cases config <;> rfl

@[simp] theorem createdAt_setCreatedAt (config : TunnelConfig) (createdAt : Timestamp) :
    (config.setCreatedAt createdAt).createdAt = createdAt := by
  cases config <;> rfl

@[simp] theorem tunnelPort_setCreatedAt (config : TunnelConfig) (createdAt : Timestamp) :
    (config.setCreatedAt createdAt).tunnelPort = config.tunnelPort := by
  cases config <;> rfl

@[simp] theorem id_setEnabled (config : TunnelConfig) (enabled : Bool) :
    (config.setEnabled enabled).id = config.id := by
  cases config <;> rfl

@[simp] theorem createdAt_setEnabled (config : TunnelConfig) (enabled : Bool) :
    (config.setEnabled enabled).createdAt = config.createdAt := by
  cases config <;> rfl

end TunnelConfig

namespace Store

/-- What the store answers to a call, and what the call makes of it. -/
def call (s : Store) : StoreCall → StoreAnswer × Store
  | .change event => (.changed (s.step event).1, (s.step event).2)
  | .get id => (.found (s.read (·.getTunnel id)), s)
  | .list => (.listed (s.read (·.listTunnels)), s)
  | .listEnabled => (.listed (s.read (·.listEnabledTunnels)), s)

/-- `Calls h s`: the calls of `h`, the latest first, were answered as it says and have brought an
empty store to `s`. -/
inductive Calls : List (StoreCall × StoreAnswer) → Store → Prop where
  | start : Calls [] {}
  | next {h : List (StoreCall × StoreAnswer)} {s : Store} (call : StoreCall) :
      Calls h s → Calls ((call, (s.call call).1) :: h) (s.call call).2

/-- The store is open and has the tunnels of a catalogue. -/
structure Holds (s : Store) (m : Catalogue) : Prop where
  isOpen : s.isClosed = false
  rows : ∃ configs, s.database.Represents configs ∧ m = .ofList configs

variable {s : Store} {m : Catalogue} {h : List (StoreCall × StoreAnswer)}

theorem step_ok (hs : s.isClosed = false) {event : StoreEvent} {db : Database}
    (h : s.database.change event = .ok db) :
    s.step event = (.ok (), { s with database := db }) := by
  rw [step, write, read_of_open hs, h]

theorem step_error (hs : s.isClosed = false) {event : StoreEvent} {e : StoreError}
    (h : s.database.change event = .error e) : s.step event = (.error e, s) := by
  rw [step, write, read_of_open hs, h]

/-- The store and a catalogue that it holds take up a change alike. -/
abbrev Answered (s : Store) (m : Catalogue) (call : StoreCall) : Prop :=
  ∃ m', m.Answers call (s.call call).1 m' ∧ (s.call call).2.Holds m'

theorem Answered.failed (hs : s.Holds m) {event : StoreEvent} {e : StoreError}
    (h : s.database.change event = .error e)
    (ha : m.Answers (.change event) (.changed (.error e)) m) : s.Answered m (.change event) := by
  refine ⟨m, ?_, ?_⟩
  · rw [call, step_error hs.isOpen h]
    exact ha
  · rw [call, step_error hs.isOpen h]
    exact hs

theorem Answered.done (hs : s.Holds m) {event : StoreEvent} {db : Database} {m' : Catalogue}
    {configs : List TunnelConfig} (h : s.database.change event = .ok db)
    (hr : db.Represents configs) (hm : m' = .ofList configs)
    (ha : m.Answers (.change event) (.changed (.ok ())) m') : s.Answered m (.change event) := by
  refine ⟨m', ?_, ?_⟩
  · rw [call, step_ok hs.isOpen h]
    exact ha
  · rw [call, step_ok hs.isOpen h]
    exact ⟨hs.isOpen, configs, hr, hm⟩

theorem answered_insert (hs : s.Holds m) {config : TunnelConfig} (hd : config.createdAt.Civil) :
    s.Answered m (.change (.insertTunnel config)) := by
  obtain ⟨configs, hr, rfl⟩ := hs.rows
  by_cases hport : config.tunnelPort = 0
  · exact .failed hs (Database.insertTunnel_of_port_eq_zero hport) (.insertedWithoutPort hport)
  · cases hfind : Catalogue.ofList configs config.id with
    | none =>
      exact .done hs (hr.insertTunnel_free hport hfind) (hr.inserted hd hfind)
        (Catalogue.ofList_concat hfind).symm (.inserted hport hfind)
    | some old => exact .failed hs (hr.insertTunnel_taken hport hfind) (.takenId hport hfind)

theorem answered_update (hs : s.Holds m) (config : TunnelConfig) :
    s.Answered m (.change (.updateTunnel config)) := by
  obtain ⟨configs, hr, rfl⟩ := hs.rows
  have htunnel := hr.tunnel? config.id
  cases hfind : Catalogue.ofList configs config.id with
  | none =>
    rw [hfind] at htunnel
    refine .failed hs ?_ (.updatedInVain hfind)
    rw [Database.change, Database.updateTunnel, htunnel]
    rfl
  | some old =>
    rw [hfind] at htunnel
    have hsound := StoredTunnel.isSound_ofConfig (config.setCreatedAt old.createdAt)
    rw [TunnelConfig.tunnelPort_setCreatedAt] at hsound
    by_cases hport : config.tunnelPort = 0
    · refine .failed hs ?_ (.updatedWithoutPort hport hfind)
      have hunsound := Bool.eq_false_iff.mpr (mt hsound.mp (not_not.mpr hport))
      rw [Database.change, Database.updateTunnel, htunnel]
      simp only [Option.map_some, Database.replacement_ofConfig, hunsound]
      rfl
    · have hchange : s.database.updateTunnel config = .ok { s.database with
          tunnels := s.database.tunnels.map fun t =>
            if t.id == config.id then Database.replacement config t else t } := by
        rw [Database.updateTunnel, htunnel]
        simp only [Option.map_some, Database.replacement_ofConfig, hsound.mpr hport]
        rfl
      -- every row is replaced by that of the new configuration with the row's own creation time
      have hrows := hr.changed config.id (f := fun c => config.setCreatedAt c.createdAt)
        (fun _ _ => config.id_setCreatedAt _) (fun _ => config.createdAt_setCreatedAt _)
        (Database.replacement_ofConfig config)
      refine .done hs hchange hrows ?_ (.updated hport hfind)
      rw [Catalogue.ofList_map fun _ _ => config.id_setCreatedAt _, hfind, Option.map_some]

theorem answered_setEnabled (hs : s.Holds m) (id : Uuid) (enabled : Bool) :
    s.Answered m (.change (.setTunnelEnabled id enabled)) := by
  obtain ⟨configs, hr, rfl⟩ := hs.rows
  have htunnel := hr.tunnel? id
  cases hfind : Catalogue.ofList configs id with
  | none =>
    rw [hfind] at htunnel
    refine .failed hs ?_ (.enabledInVain hfind)
    rw [Database.change, Database.setTunnelEnabled, htunnel]
    rfl
  | some old =>
    rw [hfind] at htunnel
    have hid : ∀ c : TunnelConfig, c.id = id → (c.setEnabled enabled).id = id := fun c hc => by
      rw [TunnelConfig.id_setEnabled, hc]
    have hrows := hr.changed id (f := fun c => c.setEnabled enabled)
      (g := fun t => { t with enabled := if enabled then 1 else 0 }) hid
      (fun c => c.createdAt_setEnabled enabled)
      (fun c => (StoredTunnel.ofConfig_setEnabled c enabled).symm)
    refine .done hs ?_ hrows ?_ (.enabled hfind)
    · rw [Database.change, Database.setTunnelEnabled, htunnel]
      rfl
    · rw [Catalogue.ofList_map hid, hfind, Option.map_some]

theorem answered_delete (hs : s.Holds m) (id : Uuid) :
    s.Answered m (.change (.deleteTunnel id)) := by
  obtain ⟨configs, hr, rfl⟩ := hs.rows
  have htunnel := hr.tunnel? id
  cases hfind : Catalogue.ofList configs id with
  | none =>
    rw [hfind] at htunnel
    refine .failed hs ?_ (.deletedInVain hfind)
    rw [Database.change, Database.deleteTunnel, htunnel]
    rfl
  | some old =>
    rw [hfind] at htunnel
    refine .done hs ?_ (hr.deleted (s.database.authorizations.filter (·.tunnel != id)))
      Catalogue.ofList_filter.symm (.deleted hfind)
    rw [Database.change, Database.deleteTunnel, htunnel]
    rfl

/-- A change that is about keys leaves the rows of tunnels alone. -/
theorem answered_elsewhere (hs : s.Holds m) {event : StoreEvent}
    (hk : event.isAboutKeys = true) : s.Answered m (.change event) := by
  refine ⟨m, .elsewhere hk, ?_⟩
  rw [call]
  rcases s.step_cases event with ⟨e, hstep⟩ | ⟨db, hchange, hstep⟩
  · rw [hstep]
    exact hs
  · have hrows : db.tunnels = s.database.tunnels := by
      cases hchange <;> first | rfl | cases hk
    obtain ⟨configs, hr, hm⟩ := hs.rows
    rw [hstep]
    exact ⟨hs.isOpen, configs, ⟨hrows ▸ hr.rows, hr.once, hr.dated⟩, hm⟩

/-- A store that holds a catalogue answers every call like the catalogue. -/
theorem answered_call (hs : s.Holds m) {call : StoreCall} (hd : call.Dated) :
    s.Answered m call := by
  cases call with
  | change event =>
    cases event with
    | insertTunnel config => exact answered_insert hs (hd config rfl)
    | updateTunnel config => exact answered_update hs config
    | setTunnelEnabled id enabled => exact answered_setEnabled hs id enabled
    | deleteTunnel id => exact answered_delete hs id
    | putKey _ _ _ _ => exact answered_elsewhere hs rfl
    | deleteKey _ => exact answered_elsewhere hs rfl
    | authorizeKey _ _ _ => exact answered_elsewhere hs rfl
    | revokeKey _ _ => exact answered_elsewhere hs rfl
  | get id =>
    obtain ⟨configs, hr, hm⟩ := hs.rows
    refine ⟨m, ?_, hs⟩
    rw [Store.call, read_of_open hs.isOpen, hr.getTunnel, ← hm]
    exact .found
  | list =>
    obtain ⟨configs, hr, hm⟩ := hs.rows
    obtain ⟨l, hl, honce, hmem⟩ := hr.listTunnels
    refine ⟨m, ?_, hs⟩
    rw [Store.call, read_of_open hs.isOpen, hl]
    exact .listed honce fun config => hm ▸ hmem config
  | listEnabled =>
    obtain ⟨configs, hr, hm⟩ := hs.rows
    obtain ⟨l, hl, honce, hmem⟩ := hr.listEnabledTunnels
    refine ⟨m, ?_, hs⟩
    rw [Store.call, read_of_open hs.isOpen, hl]
    exact .listedEnabled honce fun config => hm ▸ hmem config

/-! ## The law of the calls -/

theorem holds_start : Store.Holds {} fun _ => none :=
  ⟨rfl, [], ⟨rfl, List.nodup_nil, List.forall_mem_nil _⟩, rfl⟩

theorem Calls.told (hc : Calls h s) (hd : ∀ x ∈ h, x.1.Dated) :
    ∃ m, Catalogue.Tells h m ∧ s.Holds m := by
  induction hc with
  | start => exact ⟨_, .start, holds_start⟩
  | next call _ ih =>
    obtain ⟨hcall, hrest⟩ := List.forall_mem_cons.mp hd
    obtain ⟨m, htells, hs⟩ := ih hrest
    obtain ⟨m', hanswers, hs'⟩ := answered_call hs hcall
    exact ⟨m', htells.next hanswers, hs'⟩

/-- The calls of `h` have been answered by the store `s` like by a finite map that is `m` now. -/
structure Catalogued (h : List (StoreCall × StoreAnswer)) (s : Store) (m : Catalogue) : Prop where
  /-- The answers are those of the map. -/
  told : Catalogue.Tells h m
  /-- Every row is that of a configuration of the map. -/
  readable : ∀ t ∈ s.database.tunnels, ∃ row config,
    t.toRow? = some row ∧ row.toConfig = .ok config ∧ m t.id = some config
  /-- The map is finite: a list has all of it. -/
  finite : ∃ configs, s.read (·.listTunnels) = .ok configs ∧
    ∀ id config, m id = some config ↔ config ∈ configs ∧ config.id = id
  /-- A change that fails changes nothing. -/
  kept : ∀ event e, (s.step event).1 = .error e → (s.step event).2 = s

theorem Holds.readable (hs : s.Holds m) {t : StoredTunnel} (ht : t ∈ s.database.tunnels) :
    ∃ row config, t.toRow? = some row ∧ row.toConfig = .ok config ∧ m t.id = some config := by
  obtain ⟨configs, hr, rfl⟩ := hs.rows
  rw [hr.rows] at ht
  obtain ⟨config, hmem, rfl⟩ := List.mem_map.mp ht
  refine ⟨.ofConfig config, config, ?_, TunnelRow.toConfig_ofConfig config, ?_⟩
  · have hdate := hr.dated config hmem
    rw [← TunnelRow.createdAt_ofConfig config] at hdate
    exact StoredTunnel.toRow?_ofRow hdate
  · rw [StoredTunnel.id_ofConfig]
    exact (Catalogue.ofList_eq_some_iff hr.once).mpr hmem

theorem Holds.finite (hs : s.Holds m) : ∃ configs, s.read (·.listTunnels) = .ok configs ∧
    ∀ id config, m id = some config ↔ config ∈ configs ∧ config.id = id := by
  obtain ⟨configs, hr, rfl⟩ := hs.rows
  obtain ⟨l, hl, -, hmem⟩ := hr.listTunnels
  refine ⟨l, ?_, fun id config => ?_⟩
  · rw [read_of_open hs.isOpen, hl]
  · rw [hmem]
    constructor
    · intro hfind
      obtain rfl := Catalogue.id_of_ofList hfind
      exact ⟨hfind, rfl⟩
    · rintro ⟨hfind, rfl⟩
      exact hfind

/-- Whatever is asked of the store, it answers about tunnels like a finite map. -/
theorem catalogued_of_calls (hc : Calls h s) (hd : ∀ x ∈ h, x.1.Dated) :
    ∃ m, Catalogued h s m := by
  obtain ⟨m, htold, hs⟩ := hc.told hd
  refine ⟨m, htold, fun _ => hs.readable, hs.finite, fun event e he => ?_⟩
  rcases s.step_cases event with ⟨e', hstep⟩ | ⟨db, -, hstep⟩
  · rw [hstep]
  · rw [hstep] at he
    cases he

/-- A standard tunnel that was entered in a leap second becomes a reverse tunnel: it is found as
such, with the leap second. -/
theorem found_with_leap_second :
    ∃ h s m, Calls h s ∧ (∀ x ∈ h, x.1.Dated) ∧ Catalogued h s m ∧
      h.head?.map (·.2) = some (.found (.ok (some
        (.reverse ⟨.ofNat 1, ⟨78796799, 1500000000⟩, true, 4001⟩)))) := by
  have h₁ := Calls.start.next (.change (.insertTunnel
    (.standard ⟨.ofNat 1, ⟨78796799, 1500000000⟩, false, 4000, none, "bastion", 22, "db", 5432⟩)))
  have h₂ := h₁.next (.change (.insertTunnel (.reverse ⟨.ofNat 2, ⟨-62167219200, 0⟩, true, 4000⟩)))
  have h₃ := h₂.next (.change (.updateTunnel (.reverse ⟨.ofNat 1, ⟨0, 0⟩, false, 4001⟩)))
  have h₄ := h₃.next (.change (.setTunnelEnabled (.ofNat 1) true))
  have h₅ := h₄.next (.get (.ofNat 1))
  obtain ⟨m, hm⟩ := catalogued_of_calls h₅ (by decide +kernel)
  exact ⟨_, _, m, h₅, by decide +kernel, hm, by decide +kernel⟩

end Store
end SshTunnels
