import SshTunnels.Proofs.Tunnel.Rows

/-!
# Reading rows

Every configuration is read back from its row. Of the rows that nobody has written so, those are
read none of whose columns is at fault; a row that is not read is refused for its first column at
fault, in the order of `Column.inOrder` (`reports_toConfig`). What is written for the tunnel of a row
is the row in canonical form (`Reads.ofConfig_eq`), which is the row itself exactly if it is
canonical already (`canonical_eq_iff`).
-/

namespace SshTunnels
namespace TunnelRow

variable {row : TunnelRow} {config : TunnelConfig} {α β : Type}

/-! ## Columns at fault -/

/-- The columns that can be at fault. -/
inductive Column where
  | kind
  | tunnelPort
  | sshHost
  | sshPort
  | serviceHost
  | servicePort
  deriving DecidableEq, Repr

/-- The columns in the order in which their faults count. -/
def Column.inOrder : List Column :=
  [.kind, .tunnelPort, .sshHost, .sshPort, .serviceHost, .servicePort]

/-- The row has a word for the kind of standard tunnels. -/
def IsStandard (row : TunnelRow) : Prop :=
  row.kind = "standard" ∨ row.kind = "normal"

instance (row : TunnelRow) : Decidable row.IsStandard :=
  inferInstanceAs (Decidable (_ ∨ _))

/-- The number is no port. -/
def OutOfRange (value : Int) : Prop :=
  value < 0 ∨ 65535 < value

instance (value : Int) : Decidable (OutOfRange value) :=
  inferInstanceAs (Decidable (_ ∨ _))

/-- What is wrong with a number that has to be a port. -/
def portFault? (field : String) (value : Int) : Option RowError :=
  if OutOfRange value then some (.portOutOfRange field value) else none

/-- What is wrong with a column that standard tunnels need: it is empty, or something is wrong with
its value. -/
def neededFault? (row : TunnelRow) (field : String) (value : Option α)
    (fault? : α → Option RowError) : Option RowError :=
  if row.IsStandard then
    match value with
    | none => some (.missingField .standard row.id field)
    | some value => fault? value
  else none

/-- What is wrong with a column, if anything is. -/
def fault? (row : TunnelRow) : Column → Option RowError
  | .kind =>
    if row.IsStandard ∨ row.kind = "reverse" then none else some (.unknownTunnelKind row.kind)
  | .tunnelPort => portFault? "tunnel_port" row.tunnelPort
  | .sshHost => row.neededFault? "ssh_host" row.sshHost fun _ => none
  | .sshPort => row.neededFault? "ssh_port" row.sshPort (portFault? "ssh_port")
  | .serviceHost => row.neededFault? "service_host" row.serviceHost fun _ => none
  | .servicePort => row.neededFault? "service_port" row.servicePort (portFault? "service_port")

/-- What is wrong with the first column at fault. -/
def firstFault? (row : TunnelRow) : Option RowError :=
  Column.inOrder.findSome? row.fault?

/-- The row describes no tunnel: its kind is unknown, its port is none, or it is a standard tunnel's
and lacks a host or a port, or has a number there that is no port. -/
def Unfit (row : TunnelRow) : Prop :=
  (¬ row.IsStandard ∧ row.kind ≠ "reverse") ∨ OutOfRange row.tunnelPort ∨
    row.IsStandard ∧
      ((row.sshHost = none ∨ row.sshPort = none ∨ row.serviceHost = none ∨ row.servicePort = none) ∨
        (∃ value, row.sshPort = some value ∧ OutOfRange value) ∨
        ∃ value, row.servicePort = some value ∧ OutOfRange value)

/-! ## What a step of reading reports -/

/-- The step reports this fault, or succeeds if there is none. -/
def Reports (x : Except RowError α) (fault : Option RowError) : Prop :=
  ∀ e, x = .error e ↔ fault = some e

theorem reports_ok (a : α) : Reports (.ok a) none := by
  intro e
  constructor <;> nofun

theorem reports_error (e : RowError) : Reports (.error e : Except RowError α) (some e) := by
  intro e'
  simp

/-- Of two steps the first that fails reports. -/
theorem Reports.bind {x : Except RowError α} {f : α → Except RowError β}
    {first second : Option RowError} (hx : Reports x first)
    (hf : ∀ a, x = .ok a → Reports (f a) second) : Reports (x >>= f) (first.or second) := by
  cases x with
  | error e =>
    rw [(hx e).mp rfl]
    exact reports_error e
  | ok a =>
    have hfirst : first = none := by
      cases first with
      | none => rfl
      | some e => cases (hx e).mpr rfl
    rw [hfirst, Option.none_or]
    exact hf a rfl

theorem reports_port (field : String) (value : Int) :
    Reports (port field value) (portFault? field value) := by
  unfold port portFault?
  split
  · next hrange =>
    have hin : ¬ OutOfRange value := by unfold OutOfRange; omega
    rw [if_neg hin]
    exact reports_ok _
  · next hrange =>
    have hout : OutOfRange value := by unfold OutOfRange; omega
    rw [if_pos hout]
    exact reports_error _

theorem reports_needed (hs : row.IsStandard) (field : String) {value : Option α}
    {fault? : α → Option RowError} {f : α → Except RowError β} {later : Option RowError}
    (hf : ∀ a, Reports (f a) ((fault? a).or later)) :
    Reports (row.column field value >>= f) ((row.neededFault? field value fault?).or later) := by
  unfold neededFault?
  rw [if_pos hs]
  cases value with
  | none => exact reports_error _
  | some a => exact hf a

theorem ofName?_eq_standard_iff (text : String) :
    TunnelKind.ofName? text = some .standard ↔ text = "standard" ∨ text = "normal" := by
  unfold TunnelKind.ofName?
  split <;> simp_all

theorem ofName?_eq_reverse_iff (text : String) :
    TunnelKind.ofName? text = some .reverse ↔ text = "reverse" := by
  unfold TunnelKind.ofName?
  split <;> simp_all

theorem firstFault?_eq (row : TunnelRow) : row.firstFault? =
    (row.fault? .kind).or ((row.fault? .tunnelPort).or ((row.fault? .sshHost).or
      ((row.fault? .sshPort).or ((row.fault? .serviceHost).or (row.fault? .servicePort))))) := by
  have hcons (c : Column) (cs : List Column) :
      (c :: cs).findSome? row.fault? = (row.fault? c).or (cs.findSome? row.fault?) := by
    rw [List.findSome?_cons]
    cases row.fault? c <;> rfl
  simp only [firstFault?, Column.inOrder, hcons, List.findSome?_nil, Option.or_none]

/-- A row is refused for its first column at fault. -/
theorem reports_toConfig (row : TunnelRow) : Reports row.toConfig row.firstFault? := by
  rw [firstFault?_eq]
  unfold toConfig
  split
  · next hkind =>
    have hstandard : ¬ row.IsStandard := fun hs => by
      rw [(ofName?_eq_standard_iff _).mpr hs] at hkind
      cases hkind
    have hreverse : row.kind ≠ "reverse" := fun hr => by
      rw [(ofName?_eq_reverse_iff _).mpr hr] at hkind
      cases hkind
    rw [fault?, if_neg (not_or.mpr ⟨hstandard, hreverse⟩), Option.some_or]
    exact reports_error _
  · next hkind =>
    have hreverse := (ofName?_eq_reverse_iff _).mp hkind
    have hstandard : ¬ row.IsStandard := by
      unfold IsStandard
      rw [hreverse]
      decide
    rw [fault?, if_pos (.inr hreverse), Option.none_or]
    refine Reports.bind (reports_port _ _) fun tunnelPort _ => ?_
    simp only [fault?, neededFault?, if_neg hstandard, Option.none_or]
    exact reports_ok _
  · next hkind =>
    have hs : row.IsStandard := (ofName?_eq_standard_iff _).mp hkind
    rw [fault?, if_pos (.inl hs), Option.none_or]
    refine Reports.bind (reports_port _ _) fun tunnelPort _ => ?_
    refine reports_needed hs _ fun sshHost => ?_
    refine reports_needed hs _ fun sshPort => Reports.bind (reports_port _ _) fun sshPort _ => ?_
    refine reports_needed hs _ fun serviceHost => ?_
    rw [← Option.or_none (o := row.fault? .servicePort)]
    refine reports_needed hs _ fun servicePort => ?_
    exact Reports.bind (reports_port _ _) fun servicePort _ => reports_ok _

/-- The host is missing too, but the port comes first. -/
example : (⟨default, "normal", true, default, 70000, none, none, some 22, none, some 80⟩ :
    TunnelRow).toConfig = .error (.portOutOfRange "tunnel_port" 70000) := rfl

theorem portFault?_ne_none_iff {field : String} {value : Int} :
    portFault? field value ≠ none ↔ OutOfRange value := by
  unfold portFault?
  split <;> simp_all

theorem neededFault?_ne_none_iff {field : String} {value : Option α}
    {fault? : α → Option RowError} : row.neededFault? field value fault? ≠ none ↔
      row.IsStandard ∧ (value = none ∨ ∃ a, value = some a ∧ fault? a ≠ none) := by
  unfold neededFault?
  split
  · next hs => cases value <;> simp [hs]
  · next hs => simp [hs]

/-- Some column is at fault exactly if the row describes no tunnel. -/
theorem exists_fault?_iff : (∃ column, row.fault? column ≠ none) ↔ row.Unfit := by
  constructor
  · rintro ⟨column, h⟩
    cases column with
    | kind =>
      rw [fault?, ne_eq, ite_eq_left_iff] at h
      exact .inl (by simpa using h)
    | tunnelPort => exact .inr (.inl (portFault?_ne_none_iff.mp h))
    | sshHost =>
      obtain ⟨hs, hnone | ⟨_, _, hfault⟩⟩ := neededFault?_ne_none_iff.mp h
      · exact .inr (.inr ⟨hs, .inl (.inl hnone)⟩)
      · exact absurd rfl hfault
    | sshPort =>
      obtain ⟨hs, hnone | ⟨value, hvalue, hfault⟩⟩ := neededFault?_ne_none_iff.mp h
      · exact .inr (.inr ⟨hs, .inl (.inr (.inl hnone))⟩)
      · exact .inr (.inr ⟨hs, .inr (.inl ⟨value, hvalue, portFault?_ne_none_iff.mp hfault⟩)⟩)
    | serviceHost =>
      obtain ⟨hs, hnone | ⟨_, _, hfault⟩⟩ := neededFault?_ne_none_iff.mp h
      · exact .inr (.inr ⟨hs, .inl (.inr (.inr (.inl hnone)))⟩)
      · exact absurd rfl hfault
    | servicePort =>
      obtain ⟨hs, hnone | ⟨value, hvalue, hfault⟩⟩ := neededFault?_ne_none_iff.mp h
      · exact .inr (.inr ⟨hs, .inl (.inr (.inr (.inr hnone)))⟩)
      · exact .inr (.inr ⟨hs, .inr (.inr ⟨value, hvalue, portFault?_ne_none_iff.mp hfault⟩)⟩)
  · rintro (hkind | hport | ⟨hs, (h | h | h | h) | ⟨value, hvalue, hout⟩ | ⟨value, hvalue, hout⟩⟩)
    · refine ⟨.kind, ?_⟩
      rw [fault?, if_neg (not_or.mpr hkind)]
      nofun
    · exact ⟨.tunnelPort, portFault?_ne_none_iff.mpr hport⟩
    · exact ⟨.sshHost, neededFault?_ne_none_iff.mpr ⟨hs, .inl h⟩⟩
    · exact ⟨.sshPort, neededFault?_ne_none_iff.mpr ⟨hs, .inl h⟩⟩
    · exact ⟨.serviceHost, neededFault?_ne_none_iff.mpr ⟨hs, .inl h⟩⟩
    · exact ⟨.servicePort, neededFault?_ne_none_iff.mpr ⟨hs, .inl h⟩⟩
    · exact ⟨.sshPort, neededFault?_ne_none_iff.mpr
        ⟨hs, .inr ⟨value, hvalue, portFault?_ne_none_iff.mpr hout⟩⟩⟩
    · exact ⟨.servicePort, neededFault?_ne_none_iff.mpr
        ⟨hs, .inr ⟨value, hvalue, portFault?_ne_none_iff.mpr hout⟩⟩⟩

theorem exists_firstFault?_iff : (∃ e, row.firstFault? = some e) ↔ row.Unfit := by
  rw [← exists_fault?_iff, ← Option.isSome_iff_exists, firstFault?, List.findSome?_isSome_iff]
  constructor
  · rintro ⟨column, -, hfault⟩
    exact ⟨column, Option.isSome_iff_ne_none.mp hfault⟩
  · rintro ⟨column, hfault⟩
    exact ⟨column, by cases column <;> decide, Option.isSome_iff_ne_none.mpr hfault⟩

/-! ## Rows that are read -/

/-- `row.Reads config`: the columns of the row are those of the tunnel. -/
inductive Reads (row : TunnelRow) : TunnelConfig → Prop where
  | reverse {tunnelPort : UInt16} : row.kind = "reverse" → row.tunnelPort = tunnelPort.toNat →
      Reads row (.reverse ⟨row.id, row.createdAt, row.enabled, tunnelPort⟩)
  | standard {tunnelPort sshPort servicePort : UInt16} {sshHost serviceHost : String} :
      row.IsStandard → row.tunnelPort = tunnelPort.toNat →
      row.sshHost = some sshHost → row.sshPort = some (sshPort.toNat : Int) →
      row.serviceHost = some serviceHost → row.servicePort = some (servicePort.toNat : Int) →
      Reads row (.standard ⟨row.id, row.createdAt, row.enabled, tunnelPort, row.sshUser, sshHost,
        sshPort, serviceHost, servicePort⟩)

theorem eq_toNat_of_port {field : String} {value : Int} {p : UInt16}
    (h : port field value = .ok p) : value = p.toNat := by
  unfold port at h
  split at h
  · next hrange =>
    cases h
    have hlt : value.toNat < UInt16.size := by
      show value.toNat < 65536
      omega
    rw [UInt16.toNat_ofNat_of_lt' hlt]
    omega
  · cases h

theorem eq_some_of_column {field : String} {value : Option α} {a : α}
    (h : row.column field value = .ok a) : value = some a := by
  cases value with
  | none => cases h
  | some a' =>
    cases h
    rfl

theorem reads_of_toConfig (h : row.toConfig = .ok config) : row.Reads config := by
  unfold toConfig at h
  split at h
  · cases h
  · next hkind =>
    obtain ⟨tunnelPort, htunnelPort, h⟩ := exists_of_bind_eq_ok h
    cases h
    exact .reverse ((ofName?_eq_reverse_iff _).mp hkind) (eq_toNat_of_port htunnelPort)
  · next hkind =>
    obtain ⟨tunnelPort, htunnelPort, h⟩ := exists_of_bind_eq_ok h
    obtain ⟨sshHost, hsshHost, h⟩ := exists_of_bind_eq_ok h
    obtain ⟨sshValue, hsshValue, h⟩ := exists_of_bind_eq_ok h
    obtain ⟨sshPort, hsshPort, h⟩ := exists_of_bind_eq_ok h
    obtain ⟨serviceHost, hserviceHost, h⟩ := exists_of_bind_eq_ok h
    obtain ⟨serviceValue, hserviceValue, h⟩ := exists_of_bind_eq_ok h
    obtain ⟨servicePort, hservicePort, h⟩ := exists_of_bind_eq_ok h
    cases h
    refine .standard ((ofName?_eq_standard_iff _).mp hkind) (eq_toNat_of_port htunnelPort)
      (eq_some_of_column hsshHost) ?_ (eq_some_of_column hserviceHost) ?_
    · rw [← eq_toNat_of_port hsshPort]
      exact eq_some_of_column hsshValue
    · rw [← eq_toNat_of_port hservicePort]
      exact eq_some_of_column hserviceValue

/-- The row in the form in which rows are written: its kind has its own word, and a reverse tunnel
has nothing in the columns of standard ones. -/
def canonical (row : TunnelRow) : TunnelRow :=
  if row.kind = "reverse" then
    { row with
      sshUser := none, sshHost := none, sshPort := none, serviceHost := none, servicePort := none }
  else { row with kind := "standard" }

/-- What is written for the tunnel of a row is the row in canonical form. -/
theorem Reads.ofConfig_eq (h : row.Reads config) : ofConfig config = row.canonical := by
  cases h with
  | reverse hkind hport =>
    rw [canonical, if_pos hkind, ofConfig, hport, hkind]
    rfl
  | standard hkind htunnelPort hsshHost hsshPort hserviceHost hservicePort =>
    have hreverse : row.kind ≠ "reverse" := by
      rcases hkind with hkind | hkind <;> rw [hkind] <;> decide
    rw [canonical, if_neg hreverse, ofConfig, htunnelPort, hsshHost, hsshPort, hserviceHost,
      hservicePort]
    rfl

theorem canonical_eq_iff : row.canonical = row ↔
    (row.kind = "standard" ∨ row.kind = "reverse") ∧
      (row.kind = "reverse" → row.sshUser = none ∧ row.sshHost = none ∧ row.sshPort = none ∧
        row.serviceHost = none ∧ row.servicePort = none) := by
  obtain ⟨id, kind, enabled, createdAt, tunnelPort, sshUser, sshHost, sshPort, serviceHost,
    servicePort⟩ := row
  unfold canonical
  split <;> simp_all [eq_comm]

/-! ## Reading and writing -/

/-- What becomes of a row that is read, and of the tunnel that is written again. -/
structure ReadsBack (row : TunnelRow) : Prop where
  /-- Exactly the rows that describe no tunnel are refused. -/
  refused_iff : (∃ e, row.toConfig = .error e) ↔ row.Unfit
  /-- What is reported is what is wrong with the first column at fault. -/
  reported_iff : ∀ e, row.toConfig = .error e ↔ row.firstFault? = some e
  /-- The tunnel is written as the row in canonical form. -/
  rewritten : ∀ config, row.toConfig = .ok config → ofConfig config = row.canonical
  /-- That is the same row exactly if the word for its kind is the one that is written and, for a
  reverse tunnel, there is nothing in the columns of standard ones. -/
  unchanged_iff : ∀ config, row.toConfig = .ok config → (ofConfig config = row ↔
    (row.kind = "standard" ∨ row.kind = "reverse") ∧
      (row.kind = "reverse" → row.sshUser = none ∧ row.sshHost = none ∧ row.sshPort = none ∧
        row.serviceHost = none ∧ row.servicePort = none))

/-- Tunnels are read back from their rows, and every row is read or refused as it should be. -/
theorem readsBack_ofConfig : (∀ config, (ofConfig config).toConfig = .ok config) ∧
    ∀ row : TunnelRow, row.ReadsBack := by
  refine ⟨toConfig_ofConfig, fun row => ?_⟩
  have hreports := reports_toConfig row
  have hrewritten : ∀ config, row.toConfig = .ok config → ofConfig config = row.canonical :=
    fun config h => (reads_of_toConfig h).ofConfig_eq
  refine ⟨?_, hreports, hrewritten, fun config h => ?_⟩
  · rw [← exists_firstFault?_iff]
    exact exists_congr hreports
  · rw [hrewritten config h]
    exact canonical_eq_iff

end TunnelRow
end SshTunnels
