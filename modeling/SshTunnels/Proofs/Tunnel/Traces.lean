import SshTunnels.Proofs.Tunnel.Hosting

/-!
# Traces of runs

What a run has reported when it is over. A boot that fails reports the steps that it made and the
failure; a run that was cancelled while it was connecting reports nothing more; and a run that
opened closes, and reports a fault only if it ended by one (`Trace`).

`TunnelRun.Course` says what a run has reported so far, wherever it stands, and `Course.step` that
this lasts, whatever happens to it.
-/

namespace SshTunnels

/-- The reports of the boot steps made, in order. -/
abbrev Booted (steps : List BootStep) (reports : List LifecycleReport) : Prop :=
  List.Forall₂ (fun step report => ∃ tags, report = .bootEvent step.name tags) steps reports

/-- What a run of a kind of tunnel has reported when it is over, and how it ended. -/
inductive Trace (kind : TunnelKind) : List LifecycleReport → Except TunnelError Unit → Prop where
  /-- A boot step failed: the error names it, and only the steps before it are reported. -/
  | failedBoot {done later : List BootStep} {failed : BootStep} {boots : List LifecycleReport}
      {source : TunnelError} : BootStep.ofKind kind = done ++ failed :: later →
      Booted done boots → source.isBoot = false →
      Trace kind (.start :: boots ++ [.bootError (.boot failed.name source), .stop])
        (.error (.boot failed.name source))
  /-- A standard tunnel was cancelled while it was connecting. -/
  | calledOff {boots : List LifecycleReport} : kind = .standard → Booted [.loadKeys] boots →
      Trace kind (.start :: boots ++ [.stop]) (.ok ())
  /-- The tunnel opened and was cancelled. -/
  | stopped {boots : List LifecycleReport} : Booted (BootStep.ofKind kind) boots →
      Trace kind (.start :: boots ++ [.opened, .closed, .stop]) (.ok ())
  /-- The tunnel opened and lost what it rests on. -/
  | failed {boots : List LifecycleReport} {e : TunnelError} :
      Booted (BootStep.ofKind kind) boots → e.isBoot = false →
      Trace kind (.start :: boots ++ [.opened, .closed, .error e, .stop]) (.error e)

namespace TunnelRun

variable {run : TunnelRun} {event : RunEvent} {done later : List BootStep} {next : BootStep}
  {boots : List LifecycleReport} {fault : Option TunnelError} {e : TunnelError}

/-- What a run has reported so far. -/
inductive Course (run : TunnelRun) : Prop where
  | booting {done later : List BootStep} {next : BootStep} {boots : List LifecycleReport} :
      run.phase = .booting next later → BootStep.ofKind run.kind = done ++ next :: later →
      Booted done boots → run.reports = .start :: boots → Course run
  | serving {boots : List LifecycleReport} : run.phase = .serving →
      Booted (BootStep.ofKind run.kind) boots → run.reports = .start :: boots ++ [.opened] →
      Course run
  | ended {fault : Option TunnelError} : run.phase = .ended fault →
      Trace run.kind run.reports (fault.elim (.ok ()) .error) → Course run

theorem course_start (kind : TunnelKind) : Course (.start kind) := by
  cases kind with
  | standard | reverse =>
    refine .booting rfl ?_ .nil rfl
    rfl

theorem booted_concat (hb : Booted done boots) (step : BootStep) (tags : Tags) :
    Booted (done ++ [step]) (boots ++ [.bootEvent step.name tags]) :=
  List.rel_append hb (.cons ⟨tags, rfl⟩ .nil)

/-- The step that was made is reported, and the next one is due, or the run opens. -/
theorem course_stepDone (hp : run.phase = .booting next later)
    (hk : BootStep.ofKind run.kind = done ++ next :: later) (hb : Booted done boots)
    (hr : run.reports = .start :: boots) (tags : Tags) : (run.step (.stepDone tags)).Course := by
  have hb' := booted_concat hb next tags
  cases later with
  | nil =>
    have hbooted : Booted (BootStep.ofKind (run.step (.stepDone tags)).kind)
        (boots ++ [.bootEvent next.name tags]) := by
      rw [kind_step, hk]
      exact hb'
    refine .serving ?_ hbooted ?_
    · simp only [step, hp]
    · simp only [step, hp, hr]
      rfl
  | cons next' later =>
    have hphase : (run.step (.stepDone tags)).phase = .booting next' later := by
      simp only [step, hp]
    refine .booting hphase ?_ hb' ?_
    · simp only [step, hp, hk, List.append_assoc]
      rfl
    · simp only [step, hp, hr]
      rfl

/-- The step that failed is named by the error. -/
theorem course_stepFailed (hp : run.phase = .booting next later)
    (hk : BootStep.ofKind run.kind = done ++ next :: later) (hb : Booted done boots)
    (hr : run.reports = .start :: boots) (he : e.isBoot = false) :
    (run.step (.stepFailed e)).Course := by
  have hboot : TunnelError.atBoot next.name e = .boot next.name e := by
    rw [TunnelError.atBoot, he]
    rfl
  rw [step_failed hp, hboot]
  refine .ended rfl ?_
  simp only [finish, hr, List.append_assoc]
  exact .failedBoot hk hb he

/-- Only a standard tunnel connects, and it has loaded its keys then. -/
theorem eq_of_ofKind_eq {kind : TunnelKind}
    (hk : BootStep.ofKind kind = done ++ .sshConnect :: later) :
    kind = .standard ∧ done = [.loadKeys] := by
  cases kind with
  | standard =>
    match done with
    | [] => cases hk
    | [_] =>
      cases hk
      exact ⟨rfl, rfl⟩
    | _ :: _ :: rest =>
      have hmem : BootStep.sshConnect ∈ [BootStep.listen] := by
        rw [(List.cons.inj (List.cons.inj hk).2).2]
        exact List.mem_append_right _ List.mem_cons_self
      exact absurd hmem (by decide)
  | reverse =>
    have hmem : BootStep.sshConnect ∈ BootStep.ofKind .reverse := by simp [hk]
    exact absurd hmem (by decide)

theorem Course.step (hc : run.Course) (hplain : event.IsPlain) : (run.step event).Course := by
  cases hc with
  | @booting done later next boots hp hk hb hr =>
    cases event with
    | stepDone tags => exact course_stepDone hp hk hb hr tags
    | stepFailed e => exact course_stepFailed hp hk hb hr hplain
    | cancelled =>
      cases next with
      | sshConnect =>
        obtain ⟨hkind, rfl⟩ := eq_of_ofKind_eq hk
        rw [step_calledOff hp]
        refine .ended rfl ?_
        simp only [finish, hr, List.append_nil]
        exact .calledOff hkind hb
      | loadKeys | listen | register =>
        simp only [TunnelRun.step, hp]
        exact .booting hp hk hb hr
    | lost e =>
      simp only [TunnelRun.step, hp]
      exact .booting hp hk hb hr
  | serving hp hb hr =>
    cases event with
    | stepDone _ | stepFailed _ =>
      simp only [TunnelRun.step, hp]
      exact .serving hp hb hr
    | cancelled =>
      rw [step_stopped hp]
      refine .ended rfl ?_
      simp only [finish, hr, List.append_assoc]
      exact .stopped hb
    | lost e =>
      have he : e.isBoot = false := hplain
      rw [step_lost hp he]
      refine .ended rfl ?_
      simp only [finish, hr, List.append_assoc]
      exact .failed hb he
  | ended hp ht =>
    have hsame : run.step event = run := by simp only [TunnelRun.step, hp]
    rw [hsame]
    exact .ended hp ht

theorem Course.trace (hc : run.Course) {res : Except TunnelError Unit}
    (hres : run.result? = some res) : Trace run.kind run.reports res := by
  cases hc with
  | booting hp _ _ _ | serving hp _ _ =>
    simp only [result?, hp] at hres
    cases hres
  | @ended fault hp ht =>
    cases fault <;> (simp only [result?, hp] at hres; cases hres; exact ht)

/-- A run ends well only by being cancelled. -/
theorem cancelled_of_step (ho : (run.step event).result? = some (.ok ())) :
    run.result? = some (.ok ()) ∨ event = .cancelled := by
  unfold step at ho
  split at ho
  · split at ho <;> cases ho
  · cases ho
  · exact .inr rfl
  · exact .inr rfl
  · cases ho
  · exact .inl ho

end TunnelRun

namespace HostedRun

variable {r : HostedRun} {registry : Registry} {p : Registry × HostedRun}

/-- A run on its course: it is of its tunnel's kind, and has ended well only if it was cancelled. -/
structure OnCourse (r : HostedRun) : Prop where
  kind : r.run.kind = r.config.kind
  course : r.run.Course
  cancelled : r.run.result? = some (.ok ()) → r.isCancelled = true

theorem onCourse_begin (config : TunnelConfig) (options : TunnelOptions) :
    (begin config options).OnCourse := by
  refine ⟨?_, TunnelRun.course_start _, fun ho => ?_⟩
  · cases config <;> rfl
  · cases config <;> cases ho

theorem OnCourse.moment (hr : r.OnCourse) (registry : Registry) (m : RunMoment) :
    (r.moment registry m).2.OnCourse := by
  have hheard := (r.turn_moment registry m).heard
  generalize (r.moment registry m).2 = r' at hheard
  obtain ⟨hconfig, hcancelled, hsame | ⟨event, hplain, hcancel, hstep⟩⟩ := hheard
  · refine ⟨?_, hsame ▸ hr.course, ?_⟩
    · rw [hsame, hconfig, hr.kind]
    · rw [hsame, hcancelled]
      exact hr.cancelled
  · refine ⟨?_, hstep ▸ hr.course.step hplain, ?_⟩
    · rw [hstep, hconfig, TunnelRun.kind_step, hr.kind]
    · rw [hstep, hcancelled]
      intro ho
      rcases TunnelRun.cancelled_of_step ho with hold | heq
      · exact hr.cancelled hold
      · exact hcancel heq

end HostedRun

/-! ## What a trace says -/

section Reports

variable {kind : TunnelKind} {reports : List LifecycleReport} {res : Except TunnelError Unit}

/-- Among the reports of boot steps there is nothing else. -/
theorem Booted.not_mem {steps : List BootStep} (hb : Booted steps reports)
    (report : LifecycleReport) (hne : ∀ name tags, report ≠ .bootEvent name tags) :
    report ∉ reports := by
  induction hb with
  | nil => exact List.not_mem_nil
  | cons hboot _ ih =>
    obtain ⟨tags, rfl⟩ := hboot
    exact List.not_mem_cons_of_ne_of_not_mem (hne _ _) ih

/-- A run closes once if it opened, and opens once at most. -/
theorem Trace.count_eq (ht : Trace kind reports res) :
    reports.count .opened = reports.count .closed ∧ reports.count .opened ≤ 1 := by
  have hnone {steps : List BootStep} {boots : List LifecycleReport} (hb : Booted steps boots) :
      boots.count .opened = 0 ∧ boots.count .closed = 0 :=
    ⟨List.count_eq_zero.mpr (hb.not_mem _ fun _ _ => nofun),
      List.count_eq_zero.mpr (hb.not_mem _ fun _ _ => nofun)⟩
  cases ht with
  | failedBoot _ hb _ | calledOff _ hb | stopped hb | failed hb _ => simp [hnone hb]

/-- A failed boot is reported only of a run that never opened. -/
theorem Trace.not_opened {e : TunnelError} (ht : Trace kind reports res)
    (he : .bootError e ∈ reports) : .opened ∉ reports := by
  cases ht with
  | failedBoot _ hb _ => simpa using hb.not_mem .opened fun _ _ => nofun
  | calledOff _ hb | stopped hb | failed hb _ =>
    have hnone := hb.not_mem (.bootError e) fun _ _ => nofun
    simp [hnone] at he

/-- Another fault is reported only of a run that opened. -/
theorem Trace.opened {e : TunnelError} (ht : Trace kind reports res) (he : .error e ∈ reports) :
    .opened ∈ reports := by
  cases ht with
  | failedBoot _ hb _ | calledOff _ hb =>
    have hnone := hb.not_mem (.error e) fun _ _ => nofun
    simp [hnone] at he
  | stopped _ | failed _ _ => simp

end Reports

/-- What a run that is over has reported. -/
structure Traced (r : HostedRun) (res : Except TunnelError Unit) : Prop where
  /-- The reports have one of the forms that they can have. -/
  trace : Trace r.config.kind r.run.reports res
  /-- Opening and closing go together. -/
  paired : r.run.reports.count .opened = r.run.reports.count .closed ∧
    r.run.reports.count .opened ≤ 1
  /-- A failed boot is reported only of a run that never opened. -/
  unopened : ∀ e, .bootError e ∈ r.run.reports → .opened ∉ r.run.reports
  /-- Another fault is reported only of a run that opened. -/
  opened : ∀ e, .error e ∈ r.run.reports → .opened ∈ r.run.reports
  /-- A run ends well only if it was cancelled. -/
  cancelled : res = .ok () → r.isCancelled = true

namespace RunHost

/-- Every run that is over has left one of the traces, whatever it met and whatever other runs there
were. -/
theorem traced_of_reachable {s : RunHost} {r : HostedRun} {res : Except TunnelError Unit}
    (hs : Reachable s) (hr : r ∈ s.runs) (hres : r.run.result? = some res) : Traced r res := by
  have hcourse : r.OnCourse := hs.forall_runs (p := fun _ r => r.OnCourse)
    (fun _ => HostedRun.onCourse_begin) (fun _ _ h => ⟨h.kind, h.course, fun _ => rfl⟩)
    (fun _ _ _ _ h => h) (fun registry _ m h => h.moment registry m) r hr
  have ht := hcourse.course.trace hres
  rw [hcourse.kind] at ht
  refine ⟨ht, ht.count_eq, fun _ => ht.not_opened, fun _ => ht.opened, ?_⟩
  rintro rfl
  exact hcourse.cancelled hres

/-- A reverse tunnel opens and is registered anew by a second run of it; the first run finds that
out, and the second is cancelled. -/
theorem traced_when_replaced :
    ∃ s e, Reachable s ∧ ∃ first ∈ s.runs, ∃ second ∈ s.runs,
      first.run.result? = some (.error e) ∧ Traced first (.error e) ∧
      first.run.reports.map (·.title) = ["tunnel.start", "tunnel.boot.load_keys",
        "tunnel.boot.listen", "tunnel.boot.register", "tunnel.open", "tunnel.close",
        "tunnel.error", "tunnel.stop"] ∧
      second.run.result? = some (.ok ()) ∧ Traced second (.ok ()) := by
  let config : TunnelConfig := .reverse ⟨default, default, true, 4000⟩
  let events : List HostEvent := bootReverse config 0 ++ bootReverse config 1 ++
    [.moment 0 .findsReplaced, .cancels 1, .moment 1 .heedsCancel]
  have hs := Reachable.start.foldl events
  have hcheck : ((events.foldl step {}).runs[0]?.any fun first =>
      (events.foldl step {}).runs[1]?.any fun second =>
        first.run.result? = some (.error (.forward "tunnel registration was replaced")) &&
        first.run.reports.map (·.title) = ["tunnel.start", "tunnel.boot.load_keys",
          "tunnel.boot.listen", "tunnel.boot.register", "tunnel.open", "tunnel.close",
          "tunnel.error", "tunnel.stop"] &&
        second.run.result? = some (.ok ())) = true := by
    decide +kernel
  obtain ⟨first, hfirst, hcheck⟩ := (Option.any_eq_true _ _).mp hcheck
  obtain ⟨second, hsecond, hcheck⟩ := (Option.any_eq_true _ _).mp hcheck
  simp only [Bool.and_eq_true, decide_eq_true_eq] at hcheck
  obtain ⟨⟨hlost, htitles⟩, hcancelled⟩ := hcheck
  have hmem := List.mem_of_getElem? hfirst
  have hmem' := List.mem_of_getElem? hsecond
  exact ⟨_, _, hs, first, hmem, second, hmem', hlost, traced_of_reachable hs hmem hlost, htitles,
    hcancelled, traced_of_reachable hs hmem' hcancelled⟩

end RunHost
end SshTunnels
