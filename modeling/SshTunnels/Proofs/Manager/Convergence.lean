import Mathlib.Data.List.Induction
import SshTunnels.Proofs.Manager.Starting

/-!
# Convergence

After every reconciliation the manager supervises what was listed last, whatever has been listed
before, whichever listings have failed and whatever the supervisors did in between. A supervisor
that was kept may run a tunnel that was built from an older configuration; it is always one with the
same live tunnel.

The proof carries three things along a run: the books are sound, the desired tunnels are the last
occurrences in the latest list, and a manager that waits within a reconciliation is ready to start
what is missing.
-/

namespace SshTunnels
namespace Manager

variable {m m' : Manager} {acts acts' : List ManagerAct} {event : ManagerEvent}

/-! ## Taking over a list -/

/-- The configuration of a tunnel in a list: its last occurrence. -/
def lastOf (listing : List TunnelConfig) (id : Uuid) : Option TunnelConfig :=
  listing.reverse.find? (·.id == id)

theorem lastOf_concat (l : List TunnelConfig) (c : TunnelConfig) (id : Uuid) :
    lastOf (l ++ [c]) id = if id = c.id then some c else lastOf l id := by
  rw [lastOf, List.reverse_append, List.reverse_singleton, List.singleton_append, List.find?_cons]
  by_cases h : id = c.id
  · rw [if_pos h, beq_iff_eq.mpr h.symm]
  · rw [if_neg h, beq_eq_false_iff_ne.mpr (Ne.symm h)]
    rfl

theorem id_of_lastOf {l : List TunnelConfig} {id : Uuid} {c : TunnelConfig}
    (h : lastOf l id = some c) : c.id = id := by
  rw [lastOf] at h
  have hid := List.find?_some h
  exact beq_iff_eq.mp hid

theorem config_desire (m : Manager) (c : TunnelConfig) : (m.desire c).config = c := by
  rw [desire]
  split <;> rfl

/-- After a list is taken over, a tunnel is desired as the list has it last. -/
theorem lookup_refresh (m : Manager) (now : Instant) (l : List TunnelConfig) (id : Uuid) :
    (m.refresh now l).desired.lookup id = (lastOf l id).map m.desire := by
  show (l.foldl (fun next c => upsert next c.id (m.desire c)) []).lookup id = _
  induction l using List.reverseRecOn with
  | nil => rfl
  | append_singleton l c ih =>
    rw [List.foldl_concat, lookup_upsert, lastOf_concat, ih]
    split <;> rfl

theorem nodup_refresh (m : Manager) (now : Instant) (l : List TunnelConfig) :
    (ids (m.refresh now l).desired).Nodup := by
  show (ids (l.foldl (fun next c => upsert next c.id (m.desire c)) [])).Nodup
  induction l using List.reverseRecOn with
  | nil => exact List.nodup_nil
  | append_singleton l c ih =>
    rw [List.foldl_concat]
    exact nodup_ids_upsert ih _ _

theorem Sound.refresh (h : Sound m acts) (now : Instant) (l : List TunnelConfig) :
    Sound (m.refresh now l) acts :=
  { h with
    desired_once := nodup_refresh m now l
    desired_own := fun {id d} hd => by
      rw [lookup_refresh] at hd
      obtain ⟨c, hc, rfl⟩ := Option.map_eq_some_iff.mp hd
      rw [config_desire]
      exact id_of_lastOf hc }

/-! ## Keeping what is not stale -/

theorem isStale_eq_false_iff {id : Uuid} {s : SupervisedTunnel} :
    m.isStale id s = false ↔ ∃ d, m.desired.lookup id = some d ∧ d.needsRestart = false ∧
      s.config.sameLive d.config = true := by
  rw [isStale]
  cases hd : m.desired.lookup id with
  | none => exact iff_of_false nofun (by rintro ⟨d, ⟨⟩, -⟩)
  | some d =>
    simp only [Bool.or_eq_false_iff, Bool.not_eq_false', Option.some.injEq, exists_eq_left']

theorem lookup_keep (h : Sound m acts) (id : Uuid) :
    m.keep.supervised.lookup id = (m.supervised.lookup id).filter fun s => !m.isStale id s :=
  lookup_filter h.supervised_once _ id

/-- A supervisor is kept exactly if it is not stale. -/
theorem lookup_keep_eq_some (h : Sound m acts) {id : Uuid} {s : SupervisedTunnel} :
    m.keep.supervised.lookup id = some s ↔
      m.supervised.lookup id = some s ∧ m.isStale id s = false := by
  rw [lookup_keep h, Option.filter_eq_some_iff, Bool.not_eq_true']

theorem Sound.keep (h : Sound m acts) : Sound m.keep acts :=
  h.filter _

theorem Sound.ready_keep (h : Sound m acts) : Ready m.keep := by
  intro id s hs
  obtain ⟨d, hd, -, hlive⟩ := isStale_eq_false_iff.mp ((lookup_keep_eq_some h).mp hs).2
  exact ⟨d, hd, hlive⟩

theorem Ready.of_alike (h : Ready m) (ha : m.Alike m') : Ready m' := by
  intro id s hs
  rw [ha.desired]
  rw [ha.supervised] at hs
  exact h id s hs

theorem Sound.dismiss (h : Sound m acts) : Sound { m with supervised := [] } acts :=
  { h with
    supervised_once := List.nodup_nil
    distinct := nofun
    origin := nofun }

/-! ## The books along a run -/

/-- The books are sound, and a manager that waits within a reconciliation is ready. -/
structure Books (m : Manager) (acts : List ManagerAct) : Prop where
  sound : Sound m acts
  ready : ∀ {waiting deadline}, m.phase = .reconciling waiting deadline → Ready m

theorem Books.of_startMissing (h : Sound m acts) (hr : Ready m) :
    Books m.startMissing.1 (acts ++ m.startMissing.2) where
  sound := h.startMissing hr
  ready hp := by
    rw [startMissing_phase] at hp
    cases hp

/-- No event spoils the books. -/
theorem Books.effect (h : Books m acts) (he : m.Effect event m' acts') :
    Books m' (acts ++ acts') := by
  have hs := h.sound
  cases he with
  | refreshed now l hf =>
    rw [List.append_nil]
    refine ⟨hs.refresh now l, fun hp => ?_⟩
    cases hf.symm.trans hp
  | noted _ ha hc _ =>
    refine ⟨(hs.of_alike ha).append (built_stops _), fun hp => ?_⟩
    -- a manager that still waits has waited before, and was ready then
    obtain ⟨_, _, hm, -⟩ := reconciling_of_continues hc hp
    exact (h.ready hm).of_alike ha
  | waits _ ha _ _ =>
    exact ⟨(hs.keep.of_alike ha).append (built_stops _), fun _ => hs.ready_keep.of_alike ha⟩
  | passes _ ha _ =>
    rw [← List.append_assoc]
    exact .of_startMissing ((hs.keep.of_alike ha).append (built_stops _))
      (hs.ready_keep.of_alike ha)
  | resumes _ _ hp ha _ _ =>
    rw [← List.append_assoc]
    exact .of_startMissing ((hs.of_alike ha).append (built_aborts _)) ((h.ready hp).of_alike ha)
  | leaves _ ha hp =>
    refine ⟨(hs.dismiss.of_alike ha).append (built_stops _), fun hp' => ?_⟩
    cases hp.symm.trans hp'
  | leavesAtOnce _ ha hp =>
    refine ⟨(hs.dismiss.of_alike ha).append ?_, fun hp' => ?_⟩
    · rw [built_append, built_stops, built_gauge, List.append_nil]
    · cases hp.symm.trans hp'
  | isGone _ _ ha hp =>
    refine ⟨(hs.of_alike ha).append ?_, fun hp' => ?_⟩
    · rw [built_append, built_aborts, built_gauge, List.append_nil]
    · cases hp.symm.trans hp'

theorem books_new (options : ManagerOptions) (createdAt : Instant) :
    Books { options, createdAt } [] where
  sound := {
    desired_once := List.nodup_nil
    desired_own := nofun
    supervised_once := List.nodup_nil
    recorded := rfl
    numbered := rfl
    distinct := nofun
    origin := nofun }
  ready hp := nomatch hp

variable {m₀ : Manager} {h : ManagerHistory}

/-- The books of a manager are in order at every moment of every run. -/
theorem Run.books (hr : Run m₀ h m acts) (h₀ : Books m₀ []) : Books m acts := by
  induction hr with
  | start => exact h₀
  | next now event _ hc ih => exact ih.effect (step_effect now hc)

/-! ## What is desired along a run -/

/-- The desired tunnels are the last occurrences in a list. -/
def Lists (m : Manager) (listing : List TunnelConfig) : Prop :=
  ∀ id, (m.desired.lookup id).map (·.config) = lastOf listing id

theorem lists_refresh (m : Manager) (now : Instant) (l : List TunnelConfig) :
    (m.refresh now l).Lists l := by
  intro id
  rw [lookup_refresh, Option.map_map]
  cases hl : lastOf l id with
  | none => rfl
  | some c => exact congrArg some (config_desire m c)

theorem Lists.of_alike {l : List TunnelConfig} (h : m.Lists l) (ha : m.Alike m') : m'.Lists l :=
  fun id => ha.desired ▸ h id

theorem Lists.startMissing {l : List TunnelConfig} (h : m.Lists l) : m.startMissing.1.Lists l := by
  intro id
  rw [startMissing_desired, ← h id]
  cases m.desired.lookup id with
  | none => rfl
  | some d => rfl

theorem Lists.effect {h : ManagerHistory} (hl : m.Lists h.listing)
    (he : m.Effect event m' acts') (now : Instant) :
    m'.Lists (ManagerHistory.listing ((now, event) :: h)) := by
  cases he with
  | refreshed _ l _ => exact lists_refresh m _ l
  | noted hc ha _ _ =>
    rw [ManagerHistory.listing_of_not_call hc]
    exact hl.of_alike ha
  | waits _ ha _ _ => exact hl.of_alike (m := m.keep) ha
  | passes _ ha _ => exact (hl.of_alike (m := m.keep) ha).startMissing
  | resumes hc _ _ ha _ _ =>
    rw [ManagerHistory.listing_of_not_call hc]
    exact (hl.of_alike ha).startMissing
  | leaves _ ha _ => exact hl.of_alike (m := { m with supervised := [] }) ha
  | leavesAtOnce _ ha _ => exact hl.of_alike (m := { m with supervised := [] }) ha
  | isGone hc _ ha _ =>
    rw [ManagerHistory.listing_of_not_call hc]
    exact hl.of_alike ha

/-- What is desired is what was listed last. -/
theorem Run.lists (hr : Run m₀ h m acts) (h₀ : m₀.Lists []) : m.Lists h.listing := by
  induction hr with
  | start => exact h₀
  | next now event _ hc ih => exact ih.effect (step_effect now hc) now

/-! ## After a reconciliation -/

/-- The supervised tunnels are the desired ones, no flag is set, and the number of tunnels has been
reported. -/
structure Settled (m : Manager) (acts : List ManagerAct) : Prop where
  aligned : ∀ id, (m.supervised.lookup id).map (·.config) = (m.desired.lookup id).map (·.config)
  unflagged : ∀ id d, m.desired.lookup id = some d → d.needsRestart = false
  counted : (acts.filterMap ManagerAct.gauge?).getLast? = some m.supervised.length

theorem Settled.of_startMissing (h : Sound m acts) (hr : Ready m) (before : List ManagerAct) :
    Settled m.startMissing.1 (before ++ m.startMissing.2) where
  aligned := startMissing_aligned h hr
  unflagged id d hd := by
    rw [startMissing_desired] at hd
    obtain ⟨d', -, rfl⟩ := Option.map_eq_some_iff.mp hd
    rfl
  counted := by
    rw [List.filterMap_append, List.getLast?_append, startMissing_gauge]
    rfl

/-- What is noted of supervisors leaves a manager settled. -/
theorem Settled.of_alike (h : Settled m acts) (ha : m.Alike m') (serials : List Nat) :
    Settled m' (acts ++ serials.map .stop) where
  aligned id := by
    rw [ha.desired, ha.supervised]
    exact h.aligned id
  unflagged id d hd := h.unflagged id d (ha.desired ▸ hd)
  counted := by
    have hnone : (serials.map ManagerAct.stop).filterMap ManagerAct.gauge? = [] :=
      List.filterMap_eq_nil_iff.mpr (List.forall_mem_map.mpr fun _ _ => rfl)
    rw [List.filterMap_append, hnone, List.append_nil, ha.supervised]
    exact h.counted

/-- A manager is settled when its last call, a reconciliation, is done; then it is not on its way
out. -/
structure Settles (h : ManagerHistory) (m : Manager) (acts : List ManagerAct) : Prop where
  ending : ∀ {waiting deadline}, m.phase = .ending waiting deadline → h.isReconciled = false
  settled : m.phase = .free → h.isReconciled = true → Settled m acts

theorem Settles.effect (hs : Settles h m acts) (hb : Books m acts) (he : m.Effect event m' acts')
    (now : Instant) : Settles ((now, event) :: h) m' (acts ++ acts') := by
  have hsound := hb.sound
  cases he with
  | refreshed now l hf => exact ⟨fun _ => rfl, nofun⟩
  | @noted _ _ serials hc ha hp _ =>
    constructor
    · intro waiting deadline hp'
      obtain ⟨_, _, hm⟩ := ending_of_continues hp hp'
      rw [ManagerHistory.isReconciled_of_not_call hc]
      exact hs.ending hm
    · intro hp' hr
      rw [ManagerHistory.isReconciled_of_not_call hc] at hr
      exact (hs.settled (free_of_continues hp hp') hr).of_alike ha serials
  | waits _ _ hp _ =>
    constructor
    · intro waiting deadline hp'
      cases hp.symm.trans hp'
    · intro hp' _
      cases hp.symm.trans hp'
  | @passes m₁ _ _ ha _ =>
    constructor
    · intro waiting deadline hp'
      cases (startMissing_phase m₁).symm.trans hp'
    · intro _ _
      rw [← List.append_assoc]
      exact .of_startMissing (hsound.keep.of_alike ha) (hsound.ready_keep.of_alike ha) _
  | @resumes _ m₁ _ _ _ _ hc _ hp ha _ _ =>
    constructor
    · intro waiting deadline hp'
      cases (startMissing_phase m₁).symm.trans hp'
    · intro _ _
      rw [← List.append_assoc]
      exact .of_startMissing (hsound.of_alike ha) ((hb.ready hp).of_alike ha) _
  | leaves _ _ _ => exact ⟨fun _ => rfl, nofun⟩
  | leavesAtOnce _ _ _ => exact ⟨fun _ => rfl, nofun⟩
  | isGone hc hp _ hp' =>
    constructor
    · intro waiting deadline hp''
      cases hp'.symm.trans hp''
    · intro _ hr
      -- whoever waited to end was shut down after the last reconciliation
      rw [ManagerHistory.isReconciled_of_not_call hc, hs.ending hp] at hr
      cases hr

theorem Run.settles (hr : Run m₀ h m acts) (hb : Books m₀ []) (h₀ : Settles [] m₀ []) :
    Settles h m acts := by
  induction hr with
  | start => exact h₀
  | next now event hr hc ih => exact ih.effect (hr.books hb) (step_effect now hc) now

/-! ## Convergence -/

/-- A manager that has done `acts` is in line with a list: it supervises each listed tunnel once and
no other, on record with its last configuration. What was built under the number of a supervisor was
built once and is the same live tunnel. No flag is set, and the last report counts the tunnels. -/
structure Converged (m : Manager) (acts : List ManagerAct) (listing : List TunnelConfig) :
    Prop where
  once : (ids m.supervised).Nodup
  configs : ∀ id, (m.supervised.lookup id).map (·.config) = lastOf listing id
  built : ∀ id s, m.supervised.lookup id = some s →
    ∃ c, (built acts).filter (·.1 == s.serial) = [(s.serial, c)] ∧ c.sameLive s.config = true
  unflagged : ∀ e ∈ m.desired, e.2.needsRestart = false
  counted : (acts.filterMap ManagerAct.gauge?).getLast? = some m.supervised.length

theorem converged_of_settled {l : List TunnelConfig} (hs : Settled m acts) (hb : Sound m acts)
    (hl : m.Lists l) : Converged m acts l where
  once := hb.supervised_once
  configs id := (hs.aligned id).trans (hl id)
  built id s hid := by
    obtain ⟨c, hc, hlive⟩ := hb.origin hid
    exact ⟨c, hb.built_once hc, hlive⟩
  unflagged e he := hs.unflagged e.1 e.2 (lookup_of_mem hb.desired_once he)
  counted := hs.counted

/-- Once its deadline has passed, a manager waits no longer. -/
theorem free_of_timedOut {now deadline : Instant} (hd : m.due? = some deadline)
    (hn : deadline ≤ now) : (m.step now .timedOut).1.phase = .free := by
  cases hp : m.phase with
  | free =>
    simp only [due?, hp] at hd
    cases hd
  | reconciling waiting deadline' =>
    simp only [due?, hp, Option.some.injEq] at hd
    simp only [step, hp, hd, if_pos hn, proceed]
    exact startMissing_phase _
  | ending waiting deadline' =>
    simp only [due?, hp, Option.some.injEq] at hd
    simp only [step, hp, hd, if_pos hn, proceed]

/-- After every reconciliation a manager has converged to what was listed last, whatever has been
listed before and whatever the supervisors did. A reconciliation is over at its deadline at the
latest, and a history from which the failed listings are erased leads to the same manager. -/
theorem converged_of_run {options : ManagerOptions} {createdAt : Instant}
    (hr : Run { options, createdAt } h m acts) :
    (m.phase = .free → h.isReconciled = true → Converged m acts h.listing) ∧
      (∀ now deadline, m.due? = some deadline → deadline ≤ now →
        (m.step now .timedOut).1.phase = .free) ∧
      ∀ m' acts', Run { options, createdAt } (h.filter fun e => !e.2.isFailedListing) m' acts' ↔
        m' = m ∧ acts' = acts := by
  have hb := hr.books (books_new options createdAt)
  have hl := hr.lists fun _ => rfl
  have hs := hr.settles (books_new options createdAt) ⟨nofun, nofun⟩
  refine ⟨fun hf hrec => ?_, fun now deadline hd hn => free_of_timedOut hd hn, ?_⟩
  · exact converged_of_settled (hs.settled hf hrec) hb.sound hl
  · intro m' acts'
    constructor
    · exact fun hr' => hr.erase_failed.unique hr'
    · rintro ⟨rfl, rfl⟩
      exact hr.erase_failed

/-- A tunnel is listed, and after a failed listing it is listed twice more, with its bookkeeping
changed in the end: its one supervisor stays, on record as it was listed last. -/
theorem converged_after_relabel :
    ∃ m, Run { options := {}, createdAt := 0 }
        [(4, .reconcile), (3, .refreshed [default, (default : TunnelConfig).setEnabled true]),
          (2, .listingFailed (.list "no answer")), (1, .reconcile), (0, .refreshed [default])] m
        [.start 0 default, .gauge 1, .gauge 1] ∧
      Converged m [.start 0 default, .gauge 1, .gauge 1]
        [default, (default : TunnelConfig).setEnabled true] := by
  have h₁ := Run.next 0 (.refreshed [default]) (@Run.start { options := {}, createdAt := 0 })
    (by decide)
  have h₂ := h₁.next 1 .reconcile (by decide +kernel)
  have h₃ := h₂.next 2 (.listingFailed (.list "no answer")) (by decide)
  have h₄ := h₃.next 3 (.refreshed [default, (default : TunnelConfig).setEnabled true])
    (by decide +kernel)
  have h₅ := h₄.next 4 .reconcile (by decide +kernel)
  exact ⟨_, h₅, (converged_of_run h₅).1 (by decide +kernel) (by decide)⟩

end Manager
end SshTunnels
