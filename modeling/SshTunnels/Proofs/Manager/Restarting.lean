import SshTunnels.Proofs.Manager.Convergence

/-!
# Restarts

A supervised tunnel is restarted exactly when it has to be. What counts is what the lists taken over
since the previous reconciliation say of the tunnel. If the latest names it, the supervisor stays
unless one of the lists that name it without a gap, back from the latest, has a configuration with
another live tunnel. If the latest does not name it, the supervisor leaves.

The manager remembers less than that: the flag of a desired tunnel compares each configuration with
the one before, and a gap forgets it. `Window` says what the flag is worth; it holds because having
the same live tunnel is an equivalence.
-/

namespace SshTunnels
namespace Manager

variable {m₀ m m' : Manager} {h meanwhile : ManagerHistory} {acts acts' done : List ManagerAct}
  {event : ManagerEvent} {a b c : TunnelConfig} {id : Uuid}

/-! ## What the lists say of a tunnel -/

/-- What the lists taken over since the last reconciliation say of a tunnel, the latest first. -/
def said (h : ManagerHistory) (id : Uuid) : List (Option TunnelConfig) :=
  h.unreconciled.map (lastOf · id)

/-- The configurations that are named without a gap, back from the latest. -/
def unbroken : List (Option TunnelConfig) → List TunnelConfig
  | some c :: rest => c :: unbroken rest
  | _ => []

/-- Some configuration named without a gap has another live tunnel than `a`. -/
def Differs (a : TunnelConfig) (words : List (Option TunnelConfig)) : Prop :=
  ∃ c ∈ unbroken words, a.sameLive c = false

/-- What is desired of a tunnel that is supervised with configuration `a`, after the lists have said
`words` of it. -/
inductive Window (a : TunnelConfig) : List (Option TunnelConfig) → Option DesiredTunnel → Prop where
  | nothing : Window a [] (some ⟨a, false⟩)
  | unnamed {words : List (Option TunnelConfig)} : Window a (none :: words) none
  | named {words : List (Option TunnelConfig)} {d : DesiredTunnel} :
      ((d.needsRestart || !a.sameLive d.config) = true ↔ Differs a (some d.config :: words)) →
      Window a (some d.config :: words) (some d)

theorem differs_cons {words : List (Option TunnelConfig)} :
    Differs a (some c :: words) ↔ a.sameLive c = false ∨ Differs a words := by
  rw [Differs, unbroken]
  exact List.exists_mem_cons_iff _ _ _

theorem not_differs_of_gap {words : List (Option TunnelConfig)} (h : unbroken words = []) :
    ¬Differs a words := by
  rintro ⟨c, hc, -⟩
  rw [h] at hc
  exact List.not_mem_nil hc

theorem not_differs_iff {words : List (Option TunnelConfig)} :
    ¬Differs a words ↔ ∀ c ∈ unbroken words, a.sameLive c = true := by
  simp only [Differs, not_exists, not_and, Bool.not_eq_false]

/-- A configuration may be compared with the one before it as well as with the one supervised, when
the one supervised has the same live tunnel. -/
theorem flag_step {flag : Bool} :
    ((flag || !b.sameLive c) || !a.sameLive c) = true ↔
      a.sameLive c = false ∨ (flag || !a.sameLive b) = true := by
  cases hc : a.sameLive c with
  | false => simp
  | true =>
    rw [TunnelConfig.sameLive_eq_of_sameLive hc b]
    simp

/-- Taking over a list moves the window on. -/
theorem Window.refresh {words : List (Option TunnelConfig)}
    (hw : Window a words (m.desired.lookup id)) (now : Instant) (l : List TunnelConfig) :
    Window a (lastOf l id :: words) ((m.refresh now l).desired.lookup id) := by
  rw [lookup_refresh]
  cases hc : lastOf l id with
  | none => exact .unnamed
  | some c =>
    rw [Option.map_some, desire, id_of_lastOf hc]
    generalize m.desired.lookup id = od at hw
    -- only in the last case is there a flag to hand on
    cases hw with
    | nothing =>
      refine .named (d := ⟨c, _⟩) ?_
      rw [differs_cons, or_iff_left (not_differs_of_gap rfl), Bool.false_or, Bool.or_self]
      exact iff_of_eq (Bool.not_eq_true' _)
    | unnamed =>
      refine .named (d := ⟨c, _⟩) ?_
      rw [differs_cons, or_iff_left (not_differs_of_gap rfl), Bool.false_or]
      exact iff_of_eq (Bool.not_eq_true' _)
    | @named words d hflag =>
      refine .named (d := ⟨c, _⟩) ?_
      rw [differs_cons, ← hflag]
      exact flag_step

/-! ## The windows along a run -/

/-- Of every supervised tunnel of a free manager the window is open; a manager that waits has taken
over nothing since its reconciliation began, or has given up its tunnels. -/
structure Windows (h : ManagerHistory) (m : Manager) : Prop where
  free : m.phase = .free → ∀ id s, m.supervised.lookup id = some s →
    Window s.config (said h id) (m.desired.lookup id)
  reconciling : ∀ {waiting deadline}, m.phase = .reconciling waiting deadline → h.unreconciled = []
  ending : ∀ {waiting deadline}, m.phase = .ending waiting deadline → m.supervised = []

theorem said_of_not_call (hc : event.isCall = false) (now : Instant) (h : ManagerHistory)
    (id : Uuid) : said ((now, event) :: h) id = said h id := by
  rw [said, ManagerHistory.unreconciled_of_not_call hc]
  rfl

theorem windows_of_not_supervised (hf : m.phase = .free) (hs : m.supervised = []) :
    Windows h m where
  free _ id s hid := by
    rw [hs] at hid
    cases hid
  reconciling hp := by cases hf.symm.trans hp
  ending _ := hs

/-- When what is missing has been started, the window is opened anew. -/
theorem Windows.of_startMissing (hs : Sound m acts) (hr : Ready m) (hh : h.unreconciled = []) :
    Windows h m.startMissing.1 where
  free _ id s hid := by
    have ha := startMissing_aligned hs hr id
    rw [hid, Option.map_some, startMissing_desired] at ha
    rw [said, hh, startMissing_desired]
    cases hd : m.desired.lookup id with
    | none =>
      rw [hd] at ha
      cases ha
    | some d =>
      rw [hd] at ha
      have hconfig : s.config = d.config := Option.some.inj ha
      rw [hconfig]
      exact .nothing
  reconciling hp := by cases (startMissing_phase m).symm.trans hp
  ending hp := by cases (startMissing_phase m).symm.trans hp

theorem Windows.of_noted (hw : Windows h m) (ha : m.Alike m') (hp : Continues m.phase m'.phase)
    (hc : event.isCall = false) (now : Instant) : Windows ((now, event) :: h) m' where
  free hp' id s hid := by
    rw [said_of_not_call hc, ha.desired]
    exact hw.free (free_of_continues hp hp') id s (ha.supervised ▸ hid)
  reconciling hp' := by
    obtain ⟨_, _, hm, -⟩ := reconciling_of_continues hp hp'
    rw [ManagerHistory.unreconciled_of_not_call hc]
    exact hw.reconciling hm
  ending hp' := by
    obtain ⟨_, _, hm⟩ := ending_of_continues hp hp'
    rw [ha.supervised]
    exact hw.ending hm

theorem Windows.effect (hw : Windows h m) (hb : Books m acts) (he : m.Effect event m' acts')
    (now : Instant) : Windows ((now, event) :: h) m' := by
  have hs := hb.sound
  cases he with
  | refreshed now' l hf =>
    exact {
      free := fun _ id s hid => (hw.free hf id s hid).refresh now' l
      reconciling := fun hp => by cases hf.symm.trans hp
      ending := fun hp => by cases hf.symm.trans hp }
  | noted hc ha hp _ => exact hw.of_noted ha hp hc now
  | waits _ _ hp _ =>
    exact {
      free := fun hp' => by cases hp.symm.trans hp'
      reconciling := fun _ => rfl
      ending := fun hp' => by cases hp.symm.trans hp' }
  | passes _ ha _ => exact .of_startMissing (hs.keep.of_alike ha) (hs.ready_keep.of_alike ha) rfl
  | resumes hc _ hp ha _ _ =>
    refine .of_startMissing (hs.of_alike ha) ((hb.ready hp).of_alike ha) ?_
    rw [ManagerHistory.unreconciled_of_not_call hc]
    exact hw.reconciling hp
  | leaves _ ha hp =>
    exact {
      free := fun hp' => by cases hp.symm.trans hp'
      reconciling := fun hp' => by cases hp.symm.trans hp'
      ending := fun _ => ha.supervised }
  | leavesAtOnce _ ha hp => exact windows_of_not_supervised hp ha.supervised
  | isGone _ hp ha hp' =>
    exact windows_of_not_supervised hp' (ha.supervised.trans (hw.ending hp))

theorem Run.windows (hr : Run m₀ h m acts) (hb : Books m₀ []) (h₀ : Windows [] m₀) :
    Windows h m := by
  induction hr with
  | start => exact h₀
  | next now event hr hc ih => exact ih.effect (hr.books hb) (step_effect now hc) now

/-- A supervisor is stale exactly when the latest list does not name its tunnel, or a configuration
named without a gap has another live tunnel. -/
theorem isStale_of_window {s : SupervisedTunnel} {words : List (Option TunnelConfig)}
    (hw : Window s.config words (m.desired.lookup id)) :
    m.isStale id s = true ↔ words.head? = some none ∨ Differs s.config words := by
  rw [isStale]
  generalize m.desired.lookup id = od at hw
  cases hw with
  | nothing =>
    show (false || !s.config.sameLive s.config) = true ↔ _
    rw [TunnelConfig.sameLive_refl]
    refine iff_of_false Bool.false_ne_true ?_
    rintro (hw | hw)
    · cases hw
    · exact not_differs_of_gap rfl hw
  | unnamed => exact iff_of_true rfl (.inl rfl)
  | named hflag =>
    rw [hflag]
    refine (or_iff_right fun hnone => ?_).symm
    cases hnone

/-! ## From the beginning of a reconciliation to its end -/

/-- A supervisor is told to stop by a reconciliation exactly when it is stale. -/
theorem mem_staleSerials (h : Sound m acts) {s : SupervisedTunnel}
    (hs : m.supervised.lookup id = some s) :
    s.serial ∈ m.staleSerials ↔ m.isStale id s = true := by
  show s.serial ∈ (m.supervised.filter fun e => m.isStale e.1 e.2).map (·.2.serial) ↔ _
  rw [List.mem_map]
  constructor
  · rintro ⟨⟨k, t⟩, he, hserial⟩
    obtain ⟨hmem, hstale⟩ := List.mem_filter.mp he
    have ht := lookup_of_mem h.supervised_once hmem
    cases h.distinct ht hs hserial
    cases hs.symm.trans ht
    exact hstale
  · intro hstale
    exact ⟨(id, s), List.mem_filter.mpr ⟨mem_of_lookup hs, hstale⟩, rfl⟩

/-- A reconciliation that began at `m` waits at `m'`, or is over there. -/
inductive Underway (m m' : Manager) (done : List ManagerAct) : Prop where
  | waits {waiting : List Nat} {deadline : Instant} :
      m.keep.Alike m' → m'.phase = .reconciling waiting deadline → waiting ⊆ m.staleSerials →
      built done = [] → Underway m m' done
  | finished {m₁ : Manager} :
      m.keep.Alike m₁ → m₁.startMissing.1.Alike m' → m'.phase = .free →
      built done = built m₁.startMissing.2 → Underway m m' done

/-- Since a reconciliation began at `m`, the stale supervisors have been told to stop, others only
if the end of all began in the meantime, and none but stale ones have been aborted. -/
structure Told (m : Manager) (meanwhile : ManagerHistory) (done : List ManagerAct) : Prop where
  stops : ∀ n ∈ m.staleSerials, .stop n ∈ done
  stopped : ∀ n, .stop n ∈ done → n ∈ m.staleSerials ∨ ∃ e ∈ meanwhile, e.2 = .endBegins
  aborted : ∀ n, .abort n ∈ done → n ∈ m.staleSerials

theorem Told.next (ht : Told m meanwhile done) (now : Instant)
    (hs : ∀ n, .stop n ∈ acts' → event = .endBegins)
    (ha : ∀ n, .abort n ∈ acts' → n ∈ m.staleSerials) :
    Told m ((now, event) :: meanwhile) (done ++ acts') where
  stops n hn := List.mem_append_left _ (ht.stops n hn)
  stopped n hn := by
    rcases List.mem_append.mp hn with hn | hn
    · rcases ht.stopped n hn with hn | ⟨e, he, hend⟩
      · exact .inl hn
      · exact .inr ⟨e, List.mem_cons_of_mem _ he, hend⟩
    · exact .inr ⟨(now, event), List.mem_cons_self, hs n hn⟩
  aborted n hn := by
    rcases List.mem_append.mp hn with hn | hn
    · exact ht.aborted n hn
    · exact ha n hn

theorem mem_stops {serials : List Nat} {n : Nat} :
    ManagerAct.stop n ∈ serials.map ManagerAct.stop ↔ n ∈ serials := by
  rw [List.mem_map]
  constructor
  · rintro ⟨k, hk, heq⟩
    cases heq
    exact hk
  · exact fun hn => ⟨n, hn, rfl⟩

theorem not_abort_of_mem_stops {serials : List Nat} {n : Nat} :
    ManagerAct.abort n ∉ serials.map ManagerAct.stop := by
  rw [List.mem_map]
  rintro ⟨k, -, heq⟩
  cases heq

/-- How a reconciliation begins. -/
theorem underway_of_reconcile (hf : m.phase = .free) (now : Instant) :
    Underway m (m.step now .reconcile).1 (m.step now .reconcile).2 ∧
      Told m [] (m.step now .reconcile).2 := by
  have he := effect_reconcile now hf
  generalize (m.step now .reconcile).1 = m', (m.step now .reconcile).2 = done at he
  cases he with
  | noted hc _ _ _ => cases hc
  | waits _ ha hp hw =>
    refine ⟨.waits ha hp hw (built_stops _), ?_⟩
    exact {
      stops := fun n hn => mem_stops.mpr hn
      stopped := fun n hn => .inl (mem_stops.mp hn)
      aborted := fun n hn => absurd hn not_abort_of_mem_stops }
  | @passes m₁ _ _ ha _ =>
    refine ⟨.finished ha (.refl _) (startMissing_phase m₁) ?_, ?_⟩
    · rw [built_append, built_stops, List.nil_append]
    · exact {
        stops := fun n hn => List.mem_append_left _ (mem_stops.mpr hn)
        stopped := fun n hn => by
          rcases List.mem_append.mp hn with hn | hn
          · exact .inl (mem_stops.mp hn)
          · exact absurd rfl (not_stop_of_mem_startMissing hn n).1
        aborted := fun n hn => by
          rcases List.mem_append.mp hn with hn | hn
          · exact absurd hn not_abort_of_mem_stops
          · exact absurd rfl (not_stop_of_mem_startMissing hn n).2 }
  | resumes hc _ _ _ _ _ => cases hc
  | isGone hc _ _ _ => cases hc

variable {m₁ : Manager}

theorem Underway.of_noted (hu : Underway m m₁ done) (ha : m₁.Alike m')
    (hp : Continues m₁.phase m'.phase) (serials : List Nat) :
    Underway m m' (done ++ serials.map .stop) := by
  have hb : built (done ++ serials.map .stop) = built done := by
    rw [built_append, built_stops, List.append_nil]
  cases hu with
  | waits hk hm hw hd =>
    rw [hm] at hp
    generalize hm' : m'.phase = phase at hp
    cases hp with
    | reconciling hw' => exact .waits (hk.trans ha) hm' (List.Subset.trans hw' hw) (hb.trans hd)
  | finished hk hm₁ hm hd =>
    rw [hm] at hp
    generalize hm' : m'.phase = phase at hp
    cases hp
    exact .finished hk (hm₁.trans ha) hm' (hb.trans hd)

/-- Until the next call, a reconciliation only goes on waiting or comes to its end. -/
theorem Underway.effect (hu : Underway m m₁ done) (ht : Told m meanwhile done)
    (he : m₁.Effect event m' acts') (hc : event.isCall = false) (now : Instant) :
    Underway m m' (done ++ acts') ∧ Told m ((now, event) :: meanwhile) (done ++ acts') := by
  cases he with
  | refreshed _ _ _ => cases hc
  | @noted _ _ serials _ ha hp hend =>
    refine ⟨hu.of_noted ha hp serials, ht.next now (fun n hn => hend ?_) (fun n hn => ?_)⟩
    · rintro rfl
      exact List.not_mem_nil hn
    · exact absurd hn not_abort_of_mem_stops
  | waits _ _ _ _ => cases hc
  | passes _ _ _ => cases hc
  | @resumes _ m₂ waiting aborted _ _ _ _ hp ha hp₂ hab =>
    cases hu with
    | waits hk hm hw hd =>
      cases hm.symm.trans hp
      have hab' : ∀ {n}, ManagerAct.abort n ∈ aborted.map ManagerAct.abort → n ∈ aborted := by
        intro n hn
        obtain ⟨k, hk, heq⟩ := List.mem_map.mp hn
        cases heq
        exact hk
      refine ⟨.finished (hk.trans ha) (.refl _) (startMissing_phase m₂) ?_, ht.next now ?_ ?_⟩
      · rw [built_append, hd, built_append, built_aborts]
        rfl
      · intro n hn
        rcases List.mem_append.mp hn with hn | hn
        · obtain ⟨k, -, heq⟩ := List.mem_map.mp hn
          cases heq
        · exact absurd rfl (not_stop_of_mem_startMissing hn n).1
      · intro n hn
        rcases List.mem_append.mp hn with hn | hn
        · exact hw (hab (hab' hn))
        · exact absurd rfl (not_stop_of_mem_startMissing hn n).2
    | finished _ _ hm _ => cases hm.symm.trans hp
  | leaves _ _ _ => cases hc
  | leavesAtOnce _ _ _ => cases hc
  | isGone _ hp _ _ =>
    cases hu with
    | waits _ hm _ _ => cases hm.symm.trans hp
    | finished _ _ hm _ => cases hm.symm.trans hp

theorem Run.underway (hf : m.phase = .free) (now : Instant) {more : List ManagerAct}
    (hr : Run (m.step now .reconcile).1 meanwhile m' more)
    (hc : ∀ e ∈ meanwhile, e.2.isCall = false) :
    Underway m m' ((m.step now .reconcile).2 ++ more) ∧
      Told m meanwhile ((m.step now .reconcile).2 ++ more) := by
  induction hr with
  | start =>
    rw [List.append_nil]
    exact underway_of_reconcile hf now
  | next now' event _ hcall ih =>
    obtain ⟨hu, ht⟩ := ih fun e he => hc e (List.mem_cons_of_mem _ he)
    rw [← List.append_assoc]
    exact hu.effect ht (step_effect now' hcall) (hc _ List.mem_cons_self) now'

/-- When a reconciliation that began at `m` is over, it has served every tunnel: those that were
stale as if they had not been supervised. -/
theorem Underway.served (hs : Sound m acts) (hu : Underway m m' done) (hf : m'.phase = .free)
    (id : Uuid) : ∃ m₁, m.keep.Alike m₁ ∧ Served m₁ id
      ((m.desired.lookup id).map DesiredTunnel.clear) (m'.supervised.lookup id)
      (builtFor done id) := by
  cases hu with
  | waits _ hp _ _ => cases hf.symm.trans hp
  | @finished m₁ hk hm₁ _ hd =>
    have hdesired : m.desired = m₁.desired := hk.desired.symm
    refine ⟨m₁, hk, ?_⟩
    rw [builtFor, hd, hm₁.supervised, hdesired]
    exact served_startMissing (hs.keep.of_alike hk) id

/-! ## Restarting exactly when needed -/

/-- The supervisor of a tunnel stays, on record with configuration `c`: nothing is built for the
tunnel, and the supervisor is not aborted, nor told to stop unless the end of all begins. -/
structure Kept (id : Uuid) (s : SupervisedTunnel) (c : TunnelConfig) (meanwhile : ManagerHistory)
    (m' : Manager) (done : List ManagerAct) : Prop where
  held : m'.supervised.lookup id = some ⟨c, s.serial⟩
  unbuilt : builtFor done id = []
  unaborted : .abort s.serial ∉ done
  unstopped : (∀ e ∈ meanwhile, e.2 ≠ .endBegins) → .stop s.serial ∉ done

/-- The supervisor of a tunnel is told to stop, and exactly one other is built, from configuration
`c`, and holds the tunnel. -/
structure Replaced (id : Uuid) (s : SupervisedTunnel) (c : TunnelConfig) (m' : Manager)
    (done : List ManagerAct) : Prop where
  stopped : .stop s.serial ∈ done
  built : ∃ n, n ≠ s.serial ∧ builtFor done id = [(n, c)] ∧ m'.supervised.lookup id = some ⟨c, n⟩

/-- The supervisor of a tunnel is told to stop, and nothing is built for the tunnel. -/
structure Dropped (id : Uuid) (s : SupervisedTunnel) (m' : Manager) (done : List ManagerAct) :
    Prop where
  stopped : .stop s.serial ∈ done
  unbuilt : builtFor done id = []
  gone : m'.supervised.lookup id = none

theorem not_kept_of_replaced {s : SupervisedTunnel} (hr : Replaced id s c m' done) :
    ¬Kept id s c meanwhile m' done := by
  intro hk
  obtain ⟨n, -, hb, -⟩ := hr.built
  rw [hk.unbuilt] at hb
  cases hb

section Outcome

variable {s : SupervisedTunnel} {d : DesiredTunnel}

/-- A supervisor that is not stale stays. -/
theorem kept_of_served (h : Sound m acts) (hs : m.supervised.lookup id = some s)
    (ht : Told m meanwhile done) (hstale : m.isStale id s = false) (hk : m.keep.Alike m₁)
    (hserved : Served m₁ id (some d) (m'.supervised.lookup id) (builtFor done id)) :
    Kept id s d.config meanwhile m' done := by
  have hs₁ : m₁.supervised.lookup id = some s :=
    hk.supervised ▸ (lookup_keep_eq_some h).mpr ⟨hs, hstale⟩
  have hfresh : s.serial ∉ m.staleSerials := by
    rw [mem_staleSerials h hs, hstale]
    exact Bool.false_ne_true
  have hout : m'.supervised.lookup id = some ⟨d.config, s.serial⟩ ∧ builtFor done id = [] := by
    generalize m'.supervised.lookup id = os, builtFor done id = bs at hserved
    cases hserved with
    | kept hs' =>
      cases hs₁.symm.trans hs'
      exact ⟨rfl, rfl⟩
    | begun hs' _ => cases hs₁.symm.trans hs'
  refine ⟨hout.1, hout.2, fun hab => hfresh (ht.aborted _ hab), fun hno hstop => ?_⟩
  rcases ht.stopped _ hstop with hstop | ⟨e, he, hend⟩
  · exact hfresh hstop
  · exact hno e he hend

theorem lookup_alike_keep_of_stale (h : Sound m acts) (hs : m.supervised.lookup id = some s)
    (hstale : m.isStale id s = true) (hk : m.keep.Alike m₁) : m₁.supervised.lookup id = none := by
  rw [hk.supervised, lookup_keep h, hs, Option.filter_some, hstale]
  rfl

/-- A stale supervisor of a desired tunnel is replaced. -/
theorem replaced_of_served (h : Sound m acts) (hs : m.supervised.lookup id = some s)
    (ht : Told m meanwhile done) (hstale : m.isStale id s = true) (hk : m.keep.Alike m₁)
    (hserved : Served m₁ id (some d) (m'.supervised.lookup id) (builtFor done id)) :
    Replaced id s d.config m' done := by
  have hs₁ := lookup_alike_keep_of_stale h hs hstale hk
  -- the numbers given out since are beyond those in use when the reconciliation began
  have hlen : m₁.started.length = m.started.length := by
    rw [← List.length_map StartedSupervisor.build, ← List.length_map StartedSupervisor.build]
    exact congrArg List.length hk.builds
  refine ⟨ht.stops _ ((mem_staleSerials h hs).mpr hstale), ?_⟩
  generalize m'.supervised.lookup id = os, builtFor done id = bs at hserved
  cases hserved with
  | kept hs' => cases hs₁.symm.trans hs'
  | @begun _ n _ hn =>
    have hlt := h.supervised_lt hs
    exact ⟨n, by omega, rfl, rfl⟩

/-- A stale supervisor of a tunnel that is not desired is dropped. -/
theorem dropped_of_served (h : Sound m acts) (hs : m.supervised.lookup id = some s)
    (ht : Told m meanwhile done) (hstale : m.isStale id s = true) (hk : m.keep.Alike m₁)
    (hserved : Served m₁ id none (m'.supervised.lookup id) (builtFor done id)) :
    Dropped id s m' done := by
  have hs₁ := lookup_alike_keep_of_stale h hs hstale hk
  have hstop := ht.stops _ ((mem_staleSerials h hs).mpr hstale)
  generalize hos : m'.supervised.lookup id = os, hbs : builtFor done id = bs at hserved
  cases hserved
  exact ⟨hstop, hbs, hos.trans hs₁⟩

end Outcome

/-- What becomes of a tunnel that is supervised when a reconciliation begins. If no list has been
taken over since the previous one, its supervisor stays. If the latest list does not name it, its
supervisor is dropped. If the latest list has it as `c`, its supervisor is replaced by one for `c`
exactly when a configuration that is named without a gap has another live tunnel than the one
supervised, and stays in every other case. -/
theorem restarted_iff_of_run {options : ManagerOptions} {createdAt now : Instant}
    {more : List ManagerAct} {s : SupervisedTunnel} (hr : Run { options, createdAt } h m acts)
    (hf : m.phase = .free) (hs : m.supervised.lookup id = some s)
    (hm : Run (m.step now .reconcile).1 meanwhile m' more)
    (hc : ∀ e ∈ meanwhile, e.2.isCall = false) (hf' : m'.phase = .free) :
    let done := (m.step now .reconcile).2 ++ more
    (said h id = [] → Kept id s s.config meanwhile m' done) ∧
      ((said h id).head? = some none → Dropped id s m' done) ∧
      ∀ c, (said h id).head? = some (some c) →
        (Replaced id s c m' done ↔ ∃ b ∈ unbroken (said h id), s.config.sameLive b = false) ∧
          (Kept id s c meanwhile m' done ↔
            ∀ b ∈ unbroken (said h id), s.config.sameLive b = true) := by
  intro done
  have hb := (hr.books (books_new options createdAt)).sound
  have hw := (hr.windows (books_new options createdAt)
    (windows_of_not_supervised rfl rfl)).free hf id s hs
  obtain ⟨hu, ht⟩ := hm.underway hf now hc
  obtain ⟨m₁, hk, hserved⟩ := hu.served hb hf' id
  have hstale := isStale_of_window hw
  generalize m.desired.lookup id = od at hw hserved
  generalize said h id = words at hw hstale ⊢
  cases hw with
  | nothing =>
    have hfresh : m.isStale id s = false := by
      rw [Bool.eq_false_iff, ne_eq, hstale]
      rintro (hw | hw)
      · cases hw
      · exact not_differs_of_gap rfl hw
    exact ⟨fun _ => kept_of_served hb hs ht hfresh hk hserved, nofun, nofun⟩
  | unnamed =>
    have hold : m.isStale id s = true := hstale.mpr (.inl rfl)
    exact ⟨nofun, fun _ => dropped_of_served hb hs ht hold hk hserved, nofun⟩
  | @named words d _ =>
    refine ⟨nofun, nofun, ?_⟩
    rintro c ⟨⟩
    rw [or_iff_right (nofun : ¬(some d.config :: words).head? = some none)] at hstale
    -- it is replaced or stays, never both, so either outcome tells which of the two held
    have hreplaced (hd : Differs s.config (some d.config :: words)) :
        Replaced id s d.config m' done :=
      replaced_of_served (d := d.clear) hb hs ht (hstale.mpr hd) hk hserved
    have hkept (hd : ¬Differs s.config (some d.config :: words)) :
        Kept id s d.config meanwhile m' done :=
      kept_of_served (d := d.clear) hb hs ht (Bool.eq_false_iff.mpr (mt hstale.mp hd)) hk hserved
    constructor
    · refine ⟨fun hr' => ?_, hreplaced⟩
      by_contra hd
      exact not_kept_of_replaced hr' (hkept hd)
    · rw [← not_differs_iff]
      exact ⟨fun hk' hd => not_kept_of_replaced (hreplaced hd) hk', hkept⟩

/-- A tunnel that is listed with another port and then as before is restarted all the same. -/
theorem replaced_after_change_taken_back :
    ∃ m m' acts more,
      Run { options := {}, createdAt := 0 }
        [(3, .refreshed [default]), (2, .refreshed [.reverse ⟨default, default, false, 1⟩]),
          (1, .reconcile), (0, .refreshed [default])] m acts ∧
        Run (m.step 4 .reconcile).1 [(5, .ended 0)] m' more ∧
        Replaced default ⟨default, 0⟩ default m' ((m.step 4 .reconcile).2 ++ more) := by
  have h₁ := Run.next 0 (.refreshed [default]) (@Run.start { options := {}, createdAt := 0 })
    (by decide)
  have h₂ := h₁.next 1 .reconcile (by decide +kernel)
  have h₃ := h₂.next 2 (.refreshed [.reverse ⟨default, default, false, 1⟩]) (by decide +kernel)
  have h₄ := h₃.next 3 (.refreshed [default]) (by decide +kernel)
  refine ⟨_, _, _, _, h₄, .next 5 (.ended 0) .start (by decide +kernel), ?_⟩
  have hout := @restarted_iff_of_run _ _ _ _ _ default _ _ 4 _ ⟨default, 0⟩ h₄ (by decide +kernel)
    (by decide +kernel) (.next 5 (.ended 0) .start (by decide +kernel)) (by decide)
    (by decide +kernel)
  exact (hout.2.2 default (by decide +kernel)).1.mpr ⟨.reverse ⟨default, default, false, 1⟩,
    by decide +kernel, by decide⟩

end Manager
end SshTunnels
