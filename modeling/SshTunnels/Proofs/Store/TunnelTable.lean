import SshTunnels.Proofs.Store.Changes
import SshTunnels.Proofs.Tunnel.Rows

/-!
# The table of tunnels

What is found in the table of tunnels once a tunnel is added, enabled, disabled or deleted. Neither
enabling nor disabling changes what kind a tunnel is of.
-/

namespace SshTunnels.Database

variable {db db' : Database} {tunnel id : Uuid} {kind : TunnelKind} {enabled : Bool}

theorem tunnel?_of_inserted {config : TunnelConfig} (h : db.insertTunnel config = .ok db')
    (hne : id ≠ config.id) : db'.tunnel? id = db.tunnel? id := by
  obtain ⟨-, -, rfl⟩ := addTunnel_ok h
  have hid : (StoredTunnel.ofRow (.ofConfig config)).id = config.id := ofConfig_id config
  simp [tunnel?, List.find?_append, hid, hne.symm]

theorem tunnel?_of_inserted_self {config : TunnelConfig} (h : db.insertTunnel config = .ok db') :
    db'.tunnel? config.id = some (.ofConfig config) := by
  obtain ⟨-, hfree, rfl⟩ := addTunnel_ok h
  have hid : (StoredTunnel.ofRow (.ofConfig config)).id = config.id := ofConfig_id config
  rw [hid, tunnel?] at hfree
  rw [tunnel?, List.find?_append, hfree, Option.none_or, List.find?_singleton, hid]
  simp [StoredTunnel.ofConfig]

theorem tunnel?_of_enabled (h : db.setTunnelEnabled tunnel enabled = .ok db') :
    db'.tunnel? id = (db.tunnel? id).map fun t =>
      if t.id == tunnel then { t with enabled := if enabled then 1 else 0 } else t := by
  cases change_cases (show db.change (.setTunnelEnabled tunnel enabled) = .ok db' from h)
  rw [tunnel?, List.find?_map, tunnel?]
  congr 2
  funext t
  rw [Function.comp_apply]
  split <;> rfl

theorem tunnel?_of_deleted (h : db.deleteTunnel tunnel = .ok db') :
    db'.tunnel? id = if id = tunnel then none else db.tunnel? id := by
  cases change_cases (show db.change (.deleteTunnel tunnel) = .ok db' from h)
  rw [tunnel?, List.find?_filter]
  split
  · next heq =>
    subst heq
    simp
  · next hne =>
    rw [tunnel?]
    congr 1
    funext t
    by_cases ht : t.id = id
    · simp [ht, hne]
    · simp [ht]

theorem getTunnel_congr (h : db'.tunnel? id = db.tunnel? id) :
    db'.getTunnel id = db.getTunnel id := by
  rw [getTunnel, getTunnel, h]

/-- The tunnel can be read, and is of this kind. -/
def IsOfKind (db : Database) (tunnel : Uuid) (kind : TunnelKind) : Prop :=
  ∃ config, db.getTunnel tunnel = .ok (some config) ∧ config.kind = kind

theorem isOfKind_iff : db.IsOfKind tunnel kind ↔ ∃ t row config, db.tunnel? tunnel = some t ∧
    t.toRow? = some row ∧ row.toConfig = .ok config ∧ config.kind = kind := by
  unfold IsOfKind getTunnel readRow
  constructor
  · rintro ⟨config, hget, hkind⟩
    split at hget
    · cases hget
    · next t ht =>
      cases hrow : t.toRow? with
      | none =>
        rw [hrow] at hget
        cases hget
      | some row =>
        simp only [hrow, bind, Except.bind] at hget
        split at hget
        · next config' hconfig =>
          cases hget
          exact ⟨t, row, config, ht, hrow, hconfig, hkind⟩
        · cases hget
  · rintro ⟨t, row, config, ht, hrow, hconfig, hkind⟩
    refine ⟨config, ?_, hkind⟩
    simp only [ht, hrow, bind, Except.bind, hconfig]

theorem IsOfKind.congr (hk : db.IsOfKind tunnel kind) (h : db'.tunnel? tunnel = db.tunnel? tunnel) :
    db'.IsOfKind tunnel kind := by
  obtain ⟨config, hget, hkind⟩ := hk
  exact ⟨config, (getTunnel_congr h).trans hget, hkind⟩

theorem IsOfKind.exists_row (hk : db.IsOfKind tunnel kind) : (db.tunnel? tunnel).isSome = true := by
  obtain ⟨t, -, -, ht, -⟩ := isOfKind_iff.mp hk
  rw [ht]
  rfl

theorem IsOfKind.of_enabled (hk : db.IsOfKind tunnel kind)
    (h : db.setTunnelEnabled id enabled = .ok db') : db'.IsOfKind tunnel kind := by
  obtain ⟨t, row, config, ht, hrow, hconfig, hkind⟩ := isOfKind_iff.mp hk
  have ht' : db'.tunnel? tunnel = _ := tunnel?_of_enabled h
  rw [ht, Option.map_some] at ht'
  split at ht'
  · refine isOfKind_iff.mpr ⟨_, { row with enabled }, config.setEnabled enabled, ht', ?_, ?_, ?_⟩
    · rw [StoredTunnel.toRow?_enabled, hrow, Option.map_some]
    · rw [TunnelRow.toConfig_enabled, hconfig]
      rfl
    · rw [← hkind]
      cases config <;> rfl
  · exact isOfKind_iff.mpr ⟨t, row, config, ht', hrow, hconfig, hkind⟩

end SshTunnels.Database
