import SshTunnels.Proofs.Manager.Supervisors

/-!
# Who is told to stop

Only supervisors that have been started are told to stop, and nobody is aborted who has not been
told to stop. Whoever has been told to stop holds no tunnel, unless the end of all has begun
(`Run.heeding`).
-/

namespace SshTunnels
namespace Manager

variable {m₀ m m' : Manager} {h : ManagerHistory} {acts acts' : List ManagerAct}
  {event : ManagerEvent} {id : Uuid} {n : Nat}

/-! ## At one event -/

theorem holder_of_lookup {t : SupervisedTunnel} (ht : m.supervised.lookup id = some t) :
    m.holder? id = some t.serial := by
  rw [holder?, ht]
  rfl

theorem mem_serials_release {gone : Uuid × SupervisedTunnel → Bool} (hs : Sound m acts)
    (hn : n ∈ (m.release gone).2) : ∃ id, m.holder? id = some n := by
  obtain ⟨e, he, rfl⟩ := List.mem_map.mp hn
  exact ⟨e.1, holder_of_lookup (lookup_of_mem hs.supervised_once (List.mem_filter.mp he).1)⟩

/-- A call tells holders to stop, and the end of all any supervisor. -/
theorem told_step (hs : Sound m acts) (now : Instant) (hn : .stop n ∈ (m.step now event).2) :
    event.isCall = true ∧ (∃ id, m.holder? id = some n) ∨
      event = .endBegins ∧ ∃ s ∈ m.started, s.serial = n := by
  cases event with
  | refreshed l => cases hp : m.phase <;> simp only [step, hp] at hn <;> cases hn
  | listingFailed e => cases hn
  | reconcile | shutdown =>
    cases hp : m.phase with
    | free =>
      simp only [step, hp, stop_mem_proceed_append, mem_stops] at hn
      exact .inl ⟨rfl, mem_serials_release hs hn⟩
    | reconciling _ _ | ending _ _ =>
      simp only [step, hp] at hn
      cases hn
  | endBegins =>
    have hmem := unfinished_subset _ _ (mem_stops.mp hn)
    exact .inr ⟨rfl, List.mem_map.mp hmem⟩
  | ended serial =>
    cases hp : m.phase with
    | free =>
      simp only [step, hp] at hn
      cases hn
    | reconciling _ _ | ending _ _ =>
      simp only [step, hp] at hn
      exact absurd rfl (not_stop_of_mem_proceed hn n).1
  | timedOut =>
    cases hp : m.phase with
    | free =>
      simp only [step, hp] at hn
      cases hn
    | reconciling _ _ | ending _ _ =>
      simp only [step, hp] at hn
      split at hn
      · rw [stop_mem_proceed_append] at hn
        exact absurd hn not_stop_of_mem_aborts
      · cases hn

/-- The end of all tells everyone to stop who has not ended. -/
theorem stop_mem_endBegins {s : StartedSupervisor} (hs : s ∈ m.started) (ho : s.isOver = false)
    (now : Instant) : .stop s.serial ∈ (m.step now .endBegins).2 :=
  mem_stops.mpr (mem_unfinished (List.mem_map_of_mem hs) hs ho)

/-- Nobody holds a tunnel whom a call has told to stop. -/
theorem holder_ne_of_stop (hs : Sound m acts) (he : m.Effect event m' acts')
    (hc : event.isCall = true) (hn : .stop n ∈ acts') : m'.holder? id ≠ some n := by
  -- a stale supervisor is not among those that are kept
  have hkeep : n ∈ m.staleSerials → ∀ s, m.keep.supervised.lookup id = some s → s.serial ≠ n := by
    rintro hn s hlookup rfl
    obtain ⟨hlookup, hfresh⟩ := (lookup_keep_eq_some hs).mp hlookup
    rw [(mem_staleSerials hs hlookup).mp hn] at hfresh
    cases hfresh
  have hnone : { m with supervised := [] }.Alike m' → m'.holder? id ≠ some n := by
    intro ha
    rw [holder?, ha.supervised]
    exact (Option.some_ne_none n).symm
  rw [holder?]
  rintro hholder
  obtain ⟨s, hlookup, rfl⟩ := Option.map_eq_some_iff.mp hholder
  cases he with
  | refreshed _ _ _ => cases hn
  | noted hcall _ _ _ => cases hcall.symm.trans hc
  | waits _ ha _ _ =>
    rw [ha.supervised] at hlookup
    exact hkeep (mem_stops.mp hn) s hlookup rfl
  | @passes m₁ _ _ ha _ =>
    have hn : s.serial ∈ m.staleSerials := (List.mem_append.mp hn).elim mem_stops.mp
      fun h => absurd rfl (not_stop_of_mem_startMissing h s.serial).1
    have hserved := served_startMissing (hs.keep.of_alike ha) id
    rw [hlookup] at hserved
    generalize hos : some s = os, (m₁.desired.lookup id).map DesiredTunnel.clear = od,
      builtFor m₁.startMissing.2 id = bs at hserved
    cases hserved with
    | ignored =>
      rw [ha.supervised] at hos
      exact hkeep hn s hos.symm rfl
    | @kept s' _ hs' =>
      cases hos
      rw [ha.supervised] at hs'
      exact hkeep hn s' hs' rfl
    | begun _ hnew =>
      cases hos
      -- the number is new, but who is told to stop has been started
      obtain ⟨k, hk⟩ := mem_serials_release hs hn
      obtain ⟨s', hs', heq⟩ := Option.map_eq_some_iff.mp hk
      obtain ⟨c, hc, -⟩ := hs.origin hs'
      have hlt := (hs.keep.of_alike ha).serial_lt (ha.builds ▸ hc)
      rw [heq] at hlt
      exact absurd hnew (Nat.not_le_of_gt hlt)
  | resumes hcall _ _ _ _ _ => cases hcall.symm.trans hc
  | leaves _ ha _ => exact hnone ha hholder
  | leavesAtOnce _ ha _ => exact hnone ha hholder
  | isGone hcall _ _ _ => cases hcall.symm.trans hc

/-! ## Along a run -/

/-- Along a run, those who are told to stop have been started, and hold no tunnel unless the end of
all has begun; those who are aborted have been told to stop. -/
structure Heeding (h : ManagerHistory) (m : Manager) (acts : List ManagerAct) : Prop where
  started : ∀ n, .stop n ∈ acts → ∃ s ∈ m.started, s.serial = n
  told : ∀ n, .abort n ∈ acts → .stop n ∈ acts
  left : ∀ id n, m.holder? id = some n → .stop n ∈ acts → m.isEnding = true
  begun : ∀ t, (t, .endBegins) ∈ h → m.isEnding = true

theorem exists_started_step (now : Instant) (hs : ∃ s ∈ m.started, s.serial = n) :
    ∃ s ∈ (m.step now event).1.started, s.serial = n := by
  obtain ⟨s, hs, rfl⟩ := hs
  rw [started_step]
  exact ⟨_, List.mem_append_left _ (List.mem_map_of_mem hs), rfl⟩

theorem Run.heeding {options : ManagerOptions} {createdAt : Instant}
    (hr : Run { options, createdAt } h m acts) : Heeding h m acts := by
  induction hr with
  | start => exact ⟨nofun, nofun, nofun, nofun⟩
  | @next h m acts now event hr hc ih =>
    have hs := (hr.books (books_new options createdAt)).sound
    have hs' := ((hr.next now event hc).books (books_new options createdAt)).sound
    have hroster := hr.roster (books_new options createdAt) (roster_new options createdAt)
    constructor
    · intro n hn
      refine exists_started_step now ?_
      rcases List.mem_append.mp hn with hn | hn
      · exact ih.started n hn
      · rcases told_step hs now hn with ⟨-, id, hid⟩ | ⟨-, hmem⟩
        · obtain ⟨s, hs, hserial, -⟩ := hroster.known hid
          exact ⟨s, hs, hserial⟩
        · exact hmem
    · intro n hn
      rcases List.mem_append.mp hn with hn | hn
      · exact List.mem_append_left _ (ih.told n hn)
      · exact List.mem_append_left _ ((hr.careful now hc).aborts n hn).1
    · intro id n hid hn
      rw [isEnding_step]
      rcases List.mem_append.mp hn with hn | hn
      · have hh := handled_step hs now hc id
        rw [hid] at hh
        generalize hho : m.holder? id = holder, hbs : builtFor (m.step now event).2 id = bs at hh
        cases hh with
        | stays => exact .inl (ih.left id n hho hn)
        | @begins _ _ c _ =>
          -- the number is new, but who has been told to stop has been started before
          obtain ⟨s, hmem, rfl⟩ := ih.started n hn
          have hnew := (mem_builtFor.mp (hbs ▸ List.mem_singleton_self (s.serial, c))).1
          exact absurd hnew fun hnew => not_built_before hs' (build_mem_built hs hmem) hnew
      · rcases told_step hs now hn with ⟨hcall, -⟩ | ⟨rfl, -⟩
        · exact absurd hid (holder_ne_of_stop hs (step_effect now hc) hcall hn)
        · exact .inr rfl
    · intro t ht
      rw [isEnding_step]
      rcases List.mem_cons.mp ht with ht | ht
      · cases ht
        exact .inr rfl
      · exact .inl (ih.begun t ht)

end Manager
end SshTunnels
