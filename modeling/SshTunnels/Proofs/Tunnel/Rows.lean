import SshTunnels.Proofs.Time.StoredReading
import SshTunnels.Store.Database

/-!
# Rows of configurations

Every configuration is read back from its row, and a row from its place in the table if its creation
time is one that is read back. The row of a configuration passes the value checks unless the
configuration's port is zero.
-/

namespace SshTunnels

namespace TunnelRow

theorem port_toNat (field : String) (p : UInt16) : port field p.toNat = .ok p := by
  have hp : p.toNat < 65536 := p.toNat_lt
  have hrange : (0 : Int) ≤ p.toNat ∧ (p.toNat : Int) ≤ 65535 := by omega
  rw [port, if_pos hrange, Int.toNat_natCast, UInt16.ofNat_toNat]

theorem toConfig_ofConfig (config : TunnelConfig) : (ofConfig config).toConfig = .ok config := by
  cases config with
  | reverse t =>
    show (port "tunnel_port" t.tunnelPort.toNat >>= fun _ => _) = _
    rw [port_toNat]
    rfl
  | standard t =>
    show (port "tunnel_port" t.tunnelPort.toNat >>= fun _ =>
      port "ssh_port" t.sshPort.toNat >>= fun _ =>
        port "service_port" t.servicePort.toNat >>= fun _ => _) = _
    rw [port_toNat, port_toNat, port_toNat]
    rfl

@[simp] theorem createdAt_ofConfig (config : TunnelConfig) :
    (ofConfig config).createdAt = config.createdAt := by
  cases config <;> rfl

@[simp] theorem enabled_ofConfig (config : TunnelConfig) :
    (ofConfig config).enabled = config.enabled := by
  cases config <;> rfl

/-- What comes of two steps comes of the second, once the first is done. -/
theorem exists_of_bind_eq_ok {x : Except RowError α} {f : α → Except RowError β} {b : β}
    (h : x >>= f = .ok b) : ∃ a, x = .ok a ∧ f a = .ok b := by
  cases x with
  | error e => cases h
  | ok a => exact ⟨a, rfl, h⟩

theorem toConfig_enabled (row : TunnelRow) (enabled : Bool) :
    { row with enabled }.toConfig = row.toConfig.map (·.setEnabled enabled) := by
  show _ = (·.setEnabled enabled) <$> row.toConfig
  unfold toConfig
  dsimp only
  split
  · rfl
  · rw [map_bind]
    rfl
  · simp only [map_bind]
    rfl

/-- The kind of the tunnel that a row describes is the one that the row names. -/
theorem kind_of_toConfig {row : TunnelRow} {config : TunnelConfig}
    (h : row.toConfig = .ok config) : TunnelKind.ofName? row.kind = some config.kind := by
  unfold toConfig at h
  split at h
  · cases h
  · next hkind =>
    obtain ⟨port, -, h⟩ := exists_of_bind_eq_ok h
    cases h
    exact hkind
  · next hkind =>
    obtain ⟨tunnelPort, -, h⟩ := exists_of_bind_eq_ok h
    obtain ⟨sshHost, -, h⟩ := exists_of_bind_eq_ok h
    obtain ⟨sshPort, -, h⟩ := exists_of_bind_eq_ok h
    obtain ⟨sshPort, -, h⟩ := exists_of_bind_eq_ok h
    obtain ⟨serviceHost, -, h⟩ := exists_of_bind_eq_ok h
    obtain ⟨servicePort, -, h⟩ := exists_of_bind_eq_ok h
    obtain ⟨servicePort, -, h⟩ := exists_of_bind_eq_ok h
    cases h
    exact hkind

end TunnelRow

namespace StoredTunnel

theorem enabled_ofRow (row : TunnelRow) : ((ofRow row).enabled == 1) = row.enabled := by
  unfold ofRow
  cases row.enabled <;> rfl

theorem toRow?_ofRow {row : TunnelRow} (h : row.createdAt.Civil) :
    (ofRow row).toRow? = some row := by
  have hread : Timestamp.ofStored? (ofRow row).createdAt = some row.createdAt :=
    Timestamp.ofStored?_stored h
  have henabled : ((ofRow row).enabled != 0) = row.enabled := by
    unfold ofRow
    cases row.enabled <;> rfl
  rw [toRow?, hread, Option.map_some, henabled]
  rfl

theorem toRow?_enabled (t : StoredTunnel) (enabled : Bool) :
    { t with enabled := if enabled then 1 else 0 }.toRow? =
      t.toRow?.map fun row => { row with enabled } := by
  rw [toRow?, toRow?, Option.map_map]
  cases enabled <;> rfl

/-- The row of a configuration, as it lies in the table. -/
def ofConfig (config : TunnelConfig) : StoredTunnel :=
  ofRow (.ofConfig config)

@[simp] theorem id_ofConfig (config : TunnelConfig) : (ofConfig config).id = config.id := by
  cases config <;> rfl

@[simp] theorem enabled_ofConfig (config : TunnelConfig) :
    ((ofConfig config).enabled == 1) = config.enabled := by
  rw [ofConfig, enabled_ofRow, TunnelRow.enabled_ofConfig]

@[simp] theorem createdAt_ofConfig (config : TunnelConfig) :
    (ofConfig config).createdAt = config.createdAt.stored := by
  cases config <;> rfl

theorem isSound_iff {t : StoredTunnel} : t.isSound = true ↔
    (t.kind = "standard" ∨ t.kind = "reverse") ∧ (1 ≤ t.tunnelPort ∧ t.tunnelPort ≤ 65535) ∧
      (t.kind = "reverse" ∨ t.sshHost.isSome = true ∧ t.sshPort.isSome = true ∧
        t.serviceHost.isSome = true ∧ t.servicePort.isSome = true) := by
  simp only [isSound, Bool.and_eq_true, Bool.or_eq_true, beq_iff_eq, decide_eq_true_eq, and_assoc]

theorem isSound_ofConfig (config : TunnelConfig) :
    (ofConfig config).isSound = true ↔ config.tunnelPort ≠ 0 := by
  have hport : (ofConfig config).tunnelPort = config.tunnelPort.toNat := by cases config <;> rfl
  have hkind : (ofConfig config).kind = config.kind.name := by cases config <;> rfl
  have hmax : config.tunnelPort.toNat < 65536 := config.tunnelPort.toNat_lt
  rw [isSound_iff, hport, hkind, Ne, ← UInt16.toNat_inj, UInt16.toNat_zero]
  constructor
  · rintro ⟨-, ⟨hlow, -⟩, -⟩
    omega
  · intro hne
    cases config with
    | standard t => exact ⟨.inl rfl, by omega, .inr ⟨rfl, rfl, rfl, rfl⟩⟩
    | reverse t => exact ⟨.inr rfl, by omega, .inl rfl⟩

theorem ofConfig_setEnabled (config : TunnelConfig) (enabled : Bool) :
    ofConfig (config.setEnabled enabled) =
      { ofConfig config with enabled := if enabled then 1 else 0 } := by
  cases config <;> rfl

theorem ofConfig_setCreatedAt (config : TunnelConfig) (createdAt : Timestamp) :
    ofConfig (config.setCreatedAt createdAt) =
      { ofConfig config with createdAt := createdAt.stored } := by
  cases config <;> rfl

end StoredTunnel
end SshTunnels
