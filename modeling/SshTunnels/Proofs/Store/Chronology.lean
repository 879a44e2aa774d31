import SshTunnels.Proofs.Store.Catalogue
import SshTunnels.Proofs.Text.ByteOrder

/-!
# The order of listed tunnels

Tunnels are listed in the order of the texts that their creation times are stored as, byte by byte
(`byCreation_eq`). Whatever fractions the times have, and even for leap seconds, that is the order
of the times (`Civil.le_of_stored_le`), so that lists of tunnels are chronological
(`lists_chronologically`). It is assumed that every creation time is stored as the text of a time of
a year with four digits and not in a leap second off the end of its minute (`IsDated`), which the
calls of a store see to if such times are all they are given (`Store.Calls.isDated`).
-/

namespace SshTunnels

namespace Timestamp

theorem le_iff {a b : Timestamp} : a.le b = true ↔ ¬ b.Before a := by
  simp only [le, Before, Bool.or_eq_true, Bool.and_eq_true, decide_eq_true_eq, beq_iff_eq]
  omega

theorem eq_of_le {a b : Timestamp} (hab : a.le b = true) (hba : b.le a = true) : a = b := by
  rw [le_iff] at hab hba
  simp only [Before] at hab hba
  obtain ⟨seconds, nanos⟩ := a
  obtain ⟨seconds', nanos'⟩ := b
  simp only [mk.injEq] at hab hba ⊢
  omega

/-- Texts whose bytes are in order are of times in order. -/
theorem Civil.le_of_stored_le {a b : Timestamp} (ha : a.Civil) (hb : b.Civil)
    (h : Bytes.ofString a.stored ≤ Bytes.ofString b.stored) : a.le b = true := by
  rw [le_iff, ← hb.stored_lt_iff ha, ← Bytes.ofString_lt_iff, List.not_lt]
  exact h

end Timestamp

/-- The tunnel that a row describes was created when the row was. -/
theorem TunnelRow.createdAt_of_toConfig {row : TunnelRow} {config : TunnelConfig}
    (h : row.toConfig = .ok config) : config.createdAt = row.createdAt := by
  unfold toConfig at h
  split at h
  · cases h
  · obtain ⟨port, -, h⟩ := exists_of_bind_eq_ok h
    cases h
    rfl
  · obtain ⟨tunnelPort, -, h⟩ := exists_of_bind_eq_ok h
    obtain ⟨sshHost, -, h⟩ := exists_of_bind_eq_ok h
    obtain ⟨sshPort, -, h⟩ := exists_of_bind_eq_ok h
    obtain ⟨sshPort, -, h⟩ := exists_of_bind_eq_ok h
    obtain ⟨serviceHost, -, h⟩ := exists_of_bind_eq_ok h
    obtain ⟨servicePort, -, h⟩ := exists_of_bind_eq_ok h
    obtain ⟨servicePort, -, h⟩ := exists_of_bind_eq_ok h
    cases h
    rfl

namespace StoredTunnel

variable {t : StoredTunnel} {config : TunnelConfig}

/-- The creation time is stored as the text of a time of a year with four digits, not in a leap
second off the end of its minute. -/
def IsDated (t : StoredTunnel) : Prop :=
  ∃ time : Timestamp, time.Civil ∧ t.createdAt = time.stored

/-- The tunnel that a row describes. -/
def config? (t : StoredTunnel) : Option TunnelConfig :=
  t.toRow?.bind (·.toConfig.toOption)

theorem IsDated.exists_row (h : t.IsDated) : ∃ row, t.toRow? = some row := by
  obtain ⟨time, htime, hstored⟩ := h
  rw [toRow?, hstored, Timestamp.ofStored?_stored htime]
  exact ⟨_, rfl⟩

/-- The text in a row is that of the time at which the tunnel was created. -/
theorem IsDated.createdAt_eq (h : t.IsDated) (hconfig : t.config? = some config) :
    config.createdAt.Civil ∧ t.createdAt = config.createdAt.stored := by
  obtain ⟨time, htime, hstored⟩ := h
  obtain ⟨row, hrow, hto⟩ := Option.bind_eq_some_iff.mp hconfig
  have hread : row.createdAt = time := by
    rw [toRow?, hstored, Timestamp.ofStored?_stored htime] at hrow
    cases hrow
    rfl
  have hcreated : config.createdAt = row.createdAt := by
    cases hconfig : row.toConfig with
    | error e =>
      rw [hconfig] at hto
      cases hto
    | ok described =>
      rw [hconfig] at hto
      cases hto
      exact TunnelRow.createdAt_of_toConfig hconfig
  rw [hcreated, hread]
  exact ⟨htime, hstored⟩

theorem isDated_ofConfig (h : config.createdAt.Civil) : (ofConfig config).IsDated :=
  ⟨config.createdAt, h, createdAt_ofConfig config⟩

end StoredTunnel

namespace Database

variable {db : Database} {rows : List StoredTunnel} {configs : List TunnelConfig}

/-- Rows in the order of the bytes of their stored creation times. -/
def bytewise (rows : List StoredTunnel) : List StoredTunnel :=
  rows.mergeSort fun a b => Bytes.ofString a.createdAt ≤ Bytes.ofString b.createdAt

theorem byCreation_eq (rows : List StoredTunnel) : byCreation rows = bytewise rows := by
  have hsame (a b : String) : a ≤ b ↔ Bytes.ofString a ≤ Bytes.ofString b := by
    rw [← String.not_lt, ← List.not_lt, Bytes.ofString_lt_iff]
  simp only [byCreation, bytewise, hsame]

theorem mem_bytewise {t : StoredTunnel} : t ∈ bytewise rows ↔ t ∈ rows :=
  List.mem_mergeSort

theorem pairwise_bytewise (rows : List StoredTunnel) : (bytewise rows).Pairwise
    fun a b => Bytes.ofString a.createdAt ≤ Bytes.ofString b.createdAt := by
  have hsorted : (bytewise rows).Pairwise fun a b =>
      decide (Bytes.ofString a.createdAt ≤ Bytes.ofString b.createdAt) = true :=
    List.pairwise_mergeSort
      (fun a b c hab hbc => by
        rw [decide_eq_true_eq] at hab hbc ⊢
        exact List.le_trans hab hbc)
      (fun a b => by
        rw [Bool.or_eq_true, decide_eq_true_eq, decide_eq_true_eq]
        exact List.le_total _ _) rows
  exact hsorted.imp of_decide_eq_true

/-- Rows that can all be read are listed as the tunnels that they describe. -/
theorem configs_eq (h : ∀ t ∈ rows, t.IsDated) :
    Database.configs rows = .ok ((bytewise rows).filterMap (·.config?)) := by
  have hread : (bytewise rows).mapM readRow = .ok ((bytewise rows).filterMap (·.toRow?)) := by
    have hdated : ∀ t ∈ bytewise rows, t.IsDated := fun t ht => h t (mem_bytewise.mp ht)
    generalize bytewise rows = sorted at hdated
    induction sorted with
    | nil => rfl
    | cons t sorted ih =>
      obtain ⟨ht, hrest⟩ := List.forall_mem_cons.mp hdated
      obtain ⟨row, hrow⟩ := ht.exists_row
      have hfirst : readRow t = .ok row := by rw [readRow, hrow]
      rw [List.mapM_cons, hfirst, ih hrest, List.filterMap_cons_some hrow]
      rfl
  rw [Database.configs, byCreation_eq, hread]
  show Except.ok _ = _
  rw [List.filterMap_filterMap]
  rfl

/-- The list is that of these rows. -/
structure Lists (rows : List StoredTunnel) (configs : List TunnelConfig) : Prop where
  /-- It is in the order of the bytes of the stored texts. -/
  bytewise : configs = (bytewise rows).filterMap (·.config?)
  /-- Every tunnel that a row describes is listed, as often as one does. -/
  complete : configs.Perm (rows.filterMap (·.config?))
  /-- It is in the order of creation. -/
  chronological : configs.Pairwise fun a b => a.createdAt.le b.createdAt = true

/-- No other order of these tunnels is that of creation, if their times differ. -/
theorem Lists.eq_of_pairwise {configs' : List TunnelConfig} (h : Lists rows configs)
    (hperm : (rows.filterMap (·.config?)).Perm configs')
    (hsorted : configs'.Pairwise fun a b => a.createdAt.le b.createdAt = true)
    (honly : ∀ a ∈ configs', ∀ b ∈ configs', a.createdAt = b.createdAt → a = b) :
    configs = configs' :=
  have hsame : configs.Perm configs' := h.complete.trans hperm
  List.Perm.eq_of_pairwise
    (fun a b ha hb hab hba => honly a (hsame.subset ha) b hb (Timestamp.eq_of_le hab hba))
    h.chronological hsorted hsame

/-- Rows that are dated make a list. -/
theorem exists_lists (h : ∀ t ∈ rows, t.IsDated) :
    ∃ configs, Database.configs rows = .ok configs ∧ Lists rows configs := by
  refine ⟨_, configs_eq h, rfl, (List.mergeSort_perm rows _).filterMap _, ?_⟩
  rw [List.pairwise_filterMap]
  refine (pairwise_bytewise rows).imp_of_mem fun {t u} ht hu hle a ha b hb => ?_
  obtain ⟨hcivil, hcreated⟩ := (h t (mem_bytewise.mp ht)).createdAt_eq ha
  obtain ⟨hcivil', hcreated'⟩ := (h u (mem_bytewise.mp hu)).createdAt_eq hb
  rw [hcreated, hcreated'] at hle
  exact hcivil.le_of_stored_le hcivil' hle

/-- Every tunnel that is stored is listed, and every one that is wanted is listed as wanted, in the
order of creation. -/
theorem lists_chronologically (h : ∀ t ∈ db.tunnels, t.IsDated) :
    ∃ all wanted, db.listTunnels = .ok all ∧ Lists db.tunnels all ∧
      db.listEnabledTunnels = .ok wanted ∧ Lists (db.tunnels.filter (·.enabled == 1)) wanted := by
  obtain ⟨all, hall, hlists⟩ := exists_lists h
  obtain ⟨wanted, hwanted, hlists'⟩ :=
    exists_lists fun t ht => h t (List.mem_of_mem_filter ht)
  exact ⟨all, wanted, hall, hlists, hwanted, hlists'⟩

/-- A time without a fraction, fractions of which one begins with the other, and a leap second. -/
theorem listed_across_fractions :
    let tunnel (id : Nat) (enabled : Bool) (time : Timestamp) : TunnelConfig :=
      .reverse ⟨.ofNat id, time, enabled, 4000⟩
    let whole := tunnel 5 true ⟨36000, 0⟩
    let milli := tunnel 4 true ⟨36000, 500000000⟩
    let nano := tunnel 3 false ⟨36000, 500000001⟩
    let micro := tunnel 6 true ⟨78796799, 999999000⟩
    let leap := tunnel 2 true ⟨78796799, 1500000000⟩
    let next := tunnel 1 true ⟨78796800, 0⟩
    let db : Database := { tunnels := [next, leap, nano, milli, whole, micro].map .ofConfig }
    (∀ t ∈ db.tunnels, t.IsDated) ∧
      db.listTunnels = .ok [whole, milli, nano, micro, leap, next] ∧
      db.listEnabledTunnels = .ok [whole, milli, micro, leap, next] := by
  intro tunnel whole milli nano micro leap next db
  have hdated : ∀ t ∈ db.tunnels, t.IsDated := by
    intro t ht
    obtain ⟨config, hconfig, rfl⟩ := List.mem_map.mp ht
    refine StoredTunnel.isDated_ofConfig ?_
    revert config
    decide +kernel
  obtain ⟨all, wanted, hall, hlists, hwanted, hlists'⟩ := lists_chronologically hdated
  have hall' : all = [whole, milli, nano, micro, leap, next] :=
    hlists.eq_of_pairwise (by decide +kernel) (by decide +kernel) (by decide +kernel)
  have hwanted' : wanted = [whole, milli, micro, leap, next] :=
    hlists'.eq_of_pairwise (by decide +kernel) (by decide +kernel) (by decide +kernel)
  rw [hall, hall', hwanted, hwanted']
  exact ⟨hdated, rfl, rfl⟩

end Database

/-- Whatever is asked of a store, its tunnels are dated if those were that it was to store. -/
theorem Store.Calls.isDated {s : Store} {h : List (StoreCall × StoreAnswer)} (hc : Store.Calls h s)
    (hd : ∀ x ∈ h, x.1.Dated) : ∀ t ∈ s.database.tunnels, t.IsDated := by
  obtain ⟨m, -, hs⟩ := hc.told hd
  obtain ⟨configs, hr, -⟩ := hs.rows
  intro t ht
  rw [hr.rows] at ht
  obtain ⟨config, hmem, rfl⟩ := List.mem_map.mp ht
  exact StoredTunnel.isDated_ofConfig (hr.dated config hmem)

end SshTunnels
