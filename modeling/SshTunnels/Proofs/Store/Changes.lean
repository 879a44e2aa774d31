import SshTunnels.Store.Handle

/-!
# Changes of the store

What can be asked of an open store, in any order. A request is done in full or fails and changes
nothing; `Database.change_cases` says once what each of them makes of the three tables when it is
done.
-/

namespace SshTunnels

/-- What is asked of the store. -/
inductive StoreEvent where
  | insertTunnel (config : TunnelConfig)
  | updateTunnel (config : TunnelConfig)
  | setTunnelEnabled (id : Uuid) (enabled : Bool)
  | deleteTunnel (id : Uuid)
  | putKey (now : Timestamp) (id : Uuid) (kind : KeyKind) (contents : Bytes)
  | deleteKey (id : Uuid)
  | authorizeKey (tunnel : Uuid) (kind : TunnelKind) (key : Uuid)
  | revokeKey (tunnel key : Uuid)

/-- What the store answers. -/
abbrev StoreReply := Except StoreError Unit

/-- What has been asked of the store, each request with its answer, the latest first. -/
abbrev StoreHistory := List (StoreEvent × StoreReply)

namespace Database

/-- What a request makes of the tables. -/
def change (db : Database) : StoreEvent → Except StoreError Database
  | .insertTunnel config => db.insertTunnel config
  | .updateTunnel config => db.updateTunnel config
  | .setTunnelEnabled id enabled => db.setTunnelEnabled id enabled
  | .deleteTunnel id => db.deleteTunnel id
  | .putKey now id kind contents => .ok (db.putKey now id kind contents)
  | .deleteKey id => db.deleteKey id
  | .authorizeKey tunnel kind key => db.authorizeKey tunnel kind key
  | .revokeKey tunnel key => .ok (db.revokeKey tunnel key)

/-- What a request that is done makes of the tables. -/
inductive Change (db : Database) : StoreEvent → Database → Prop where
  /-- A tunnel is added. -/
  | inserted {config : TunnelConfig} :
      (StoredTunnel.ofRow (.ofConfig config)).isSound = true → db.tunnel? config.id = none →
      Change db (.insertTunnel config)
        { db with tunnels := db.tunnels ++ [.ofRow (.ofConfig config)] }
  /-- A tunnel is replaced. -/
  | updated {config : TunnelConfig} {old : StoredTunnel} :
      db.tunnel? config.id = some old → (replacement config old).isSound = true →
      Change db (.updateTunnel config) { db with
        tunnels := db.tunnels.map fun t => if t.id == config.id then replacement config t else t }
  /-- A tunnel is wanted from now on, or not. -/
  | enabled {id : Uuid} {enabled : Bool} :
      (db.tunnel? id).isSome = true → Change db (.setTunnelEnabled id enabled) { db with
        tunnels := db.tunnels.map fun t =>
          if t.id == id then { t with enabled := if enabled then 1 else 0 } else t }
  /-- A tunnel goes, and what was authorized for it. -/
  | tunnelDeleted {id : Uuid} :
      (db.tunnel? id).isSome = true → Change db (.deleteTunnel id) { db with
        tunnels := db.tunnels.filter (·.id != id)
        authorizations := db.authorizations.filter (·.tunnel != id) }
  /-- A key that is there gets another kind and other contents. -/
  | keyReplaced {now : Timestamp} {id : Uuid} {kind : KeyKind} {contents : Bytes} :
      (db.key? id).isSome = true → Change db (.putKey now id kind contents) { db with
        keys := db.keys.map fun k => if k.id == id then { k with kind, contents } else k }
  /-- A key is added. -/
  | keyAdded {now : Timestamp} {id : Uuid} {kind : KeyKind} {contents : Bytes} :
      db.key? id = none → Change db (.putKey now id kind contents)
        { db with keys := db.keys ++ [⟨id, kind, contents, now.stored⟩] }
  /-- A key goes, and what it was authorized for. -/
  | keyDeleted {id : Uuid} :
      (db.key? id).isSome = true → Change db (.deleteKey id) { db with
        keys := db.keys.filter (·.id != id)
        authorizations := db.authorizations.filter (·.key != id) }
  /-- A key is authorized that already is, under whichever kind. -/
  | authorizedBefore {tunnel : Uuid} {kind : TunnelKind} {key : Uuid} :
      db.isAuthorized tunnel key = true → Change db (.authorizeKey tunnel kind key) db
  /-- A key is authorized. -/
  | authorized {tunnel : Uuid} {kind : TunnelKind} {key : Uuid} :
      db.isAuthorized tunnel key = false → (db.tunnel? tunnel).isSome = true →
      (db.key? key).isSome = true → Change db (.authorizeKey tunnel kind key)
        { db with authorizations := db.authorizations ++ [⟨tunnel, kind, key⟩] }
  /-- An authorization is taken back, if there is one. -/
  | revoked {tunnel key : Uuid} :
      Change db (.revokeKey tunnel key) { db with
        authorizations :=
          db.authorizations.filter fun a => !(a.tunnel == tunnel && a.key == key) }

variable {db db' : Database}

theorem ofConfig_id (config : TunnelConfig) : (TunnelRow.ofConfig config).id = config.id := by
  cases config <;> rfl

theorem addTunnel_ok {t : StoredTunnel} (h : db.addTunnel t = .ok db') :
    t.isSound = true ∧ db.tunnel? t.id = none ∧ db' = { db with tunnels := db.tunnels ++ [t] } := by
  unfold addTunnel at h
  split at h
  · cases h
  · next hsound =>
    split at h
    · cases h
    · next hfree =>
      cases h
      exact ⟨by simpa using hsound, by simpa using hfree, rfl⟩

theorem updateTunnel_ok {config : TunnelConfig} (h : db.updateTunnel config = .ok db') :
    ∃ old, db.tunnel? config.id = some old ∧ (replacement config old).isSound = true ∧
      db' = { db with
        tunnels := db.tunnels.map fun t => if t.id == config.id then replacement config t else t } := by
  unfold updateTunnel at h
  split at h
  · cases h
  · next old hold =>
    split at h
    · cases h
    · next hsound =>
      cases h
      exact ⟨old, hold, by simpa using hsound, rfl⟩

theorem authorizeKey_ok {tunnel key : Uuid} {kind : TunnelKind}
    (h : db.authorizeKey tunnel kind key = .ok db') :
    (db.isAuthorized tunnel key = true ∧ db' = db) ∨
      (db.isAuthorized tunnel key = false ∧ (db.tunnel? tunnel).isSome = true ∧
        (db.key? key).isSome = true ∧
        db' = { db with authorizations := db.authorizations ++ [⟨tunnel, kind, key⟩] }) := by
  unfold authorizeKey at h
  split at h
  · next hthere =>
    cases h
    exact .inl ⟨hthere, rfl⟩
  · next hfree =>
    split at h
    · cases h
    · next hboth =>
      cases h
      simp only [Bool.or_eq_true, Option.isNone_iff_eq_none, not_or, ← Option.isSome_iff_ne_none]
        at hboth
      exact .inr ⟨by simpa using hfree, hboth.1, hboth.2, rfl⟩

/-- A request that is done changes the tables in one of these ways. -/
theorem change_cases {event : StoreEvent} (h : db.change event = .ok db') :
    Change db event db' := by
  cases event with
  | insertTunnel config =>
    obtain ⟨hsound, hfree, rfl⟩ := addTunnel_ok h
    rw [StoredTunnel.ofRow, ofConfig_id] at hfree
    exact .inserted hsound hfree
  | updateTunnel config =>
    obtain ⟨old, hold, hsound, rfl⟩ := updateTunnel_ok h
    exact .updated hold hsound
  | setTunnelEnabled id enabled =>
    simp only [change, setTunnelEnabled] at h
    split at h
    · cases h
    · next t ht =>
      cases h
      exact .enabled (by rw [ht]; rfl)
  | deleteTunnel id =>
    simp only [change, deleteTunnel] at h
    split at h
    · cases h
    · next t ht =>
      cases h
      exact .tunnelDeleted (by rw [ht]; rfl)
  | putKey now id kind contents =>
    simp only [change, putKey] at h
    split at h
    · next k hk =>
      cases h
      exact .keyReplaced (by rw [hk]; rfl)
    · next hk =>
      cases h
      exact .keyAdded hk
  | deleteKey id =>
    simp only [change, deleteKey] at h
    split at h
    · cases h
    · next k hk =>
      cases h
      exact .keyDeleted (by rw [hk]; rfl)
  | authorizeKey tunnel kind key =>
    rcases authorizeKey_ok h with ⟨hthere, rfl⟩ | ⟨hfree, htunnel, hkey, rfl⟩
    · exact .authorizedBefore hthere
    · exact .authorized hfree htunnel hkey
  | revokeKey tunnel key =>
    cases h
    exact .revoked

end Database

namespace Store

/-- What a request makes of an open store, and the answer to it. -/
def step (s : Store) (event : StoreEvent) : StoreReply × Store :=
  s.write (·.change event)

/-- `Run h s`: the requests of `h`, answered as it says, have brought an empty store to `s`. -/
inductive Run : StoreHistory → Store → Prop where
  | start : Run [] {}
  | next {h : StoreHistory} {s : Store} (event : StoreEvent) :
      Run h s → Run ((event, (s.step event).1) :: h) (s.step event).2

variable {h : StoreHistory} {s : Store}

theorem read_of_open (hs : s.isClosed = false) {α : Type}
    (query : Database → Except StoreError α) : s.read query = query s.database := by
  rw [read, hs]
  rfl

/-- A request fails and changes nothing, or is done. -/
theorem step_cases (s : Store) (event : StoreEvent) :
    (∃ e, s.step event = (.error e, s)) ∨
    ∃ db, s.database.Change event db ∧ s.step event = (.ok (), { s with database := db }) := by
  rw [step, write]
  cases hread : s.read (·.change event) with
  | error e => exact .inl ⟨e, rfl⟩
  | ok db =>
    rw [read] at hread
    split at hread
    · cases hread
    · exact .inr ⟨db, Database.change_cases hread, rfl⟩

/-- What holds of the empty tables and is kept by every change holds after every run. -/
theorem Run.induct {P : StoreHistory → Database → Prop} (hr : Run h s) (hempty : P [] {})
    (hfailed : ∀ {h db} event e, P h db → P ((event, .error e) :: h) db)
    (hdone : ∀ {h db event db'}, Database.Change db event db' → P h db →
      P ((event, .ok ()) :: h) db') : P h s.database := by
  induction hr with
  | start => exact hempty
  | @next h s event _ ih =>
    rcases s.step_cases event with ⟨e, hs⟩ | ⟨db, hchange, hs⟩
    · rw [hs]
      exact hfailed event e ih
    · rw [hs]
      exact hdone hchange ih

end Store
end SshTunnels
