import SshTunnels.Proofs.Tunnel.Hosting

/-!
# What runs leave behind

A run gets hold of its listener, its session or registration and its connections one after the
other, and it can end after each. `HostedRun.Keeps` says what a run has wherever it stands, and
that it has given all of it back when it is over; `Keeps.moment` that this lasts, whatever the run
meets. What the other runs do to the registry meanwhile cannot bring a registration back
(`Keeps.of_precedes`), since they register under new numbers.

A run takes back its own registration by its number. So a run that ends after its tunnel was
registered anew leaves the newer registration alone.
-/

namespace SshTunnels

/-- The far side answered: the session is live, or has been closed since. -/
def SshSession.IsUp (session : SshSession) : Prop :=
  session = .live ∨ session = .closed

/-- What is left of a run. -/
structure Released (registry : Registry) (r : HostedRun) : Prop where
  /-- Its listener is closed. -/
  listener : r.isListening = false
  /-- The SSH session that it dialed was asked to end or had been closed, or it was dropped with a
  connect that was cancelled, before the run opened. -/
  session : r.session ≠ .absent → r.session = .told ∨ r.session = .closed ∨
    r.session = .dropped ∧ r.isCancelled = true ∧ .opened ∉ r.run.reports
  /-- The tokens of all its connections are cancelled. -/
  connections : ∀ isCancelled ∈ r.connections, isCancelled = true
  /-- Its registration is no longer there. -/
  registration : ∀ g, r.registration = some g → ∀ e ∈ registry.entries, e.registration ≠ g

namespace HostedRun

/-- What an open run has: its listener, and its session or its registration. -/
structure Equipped (r : HostedRun) : Prop where
  listener : r.isListening = true
  standard : r.config.kind = .standard → r.session.IsUp ∧ r.registration = none
  reverse : r.config.kind = .reverse → r.session = .absent ∧ r.registration.isSome

/-- What a booting run has by the step that it makes next: its SSH session, and whether it has its
listener. -/
inductive Boots (kind : TunnelKind) (session : SshSession) (isListening : Bool) :
    BootStep → List BootStep → Prop where
  | loading {later : List BootStep} : BootStep.ofKind kind = .loadKeys :: later →
      session = .absent → isListening = false → Boots kind session isListening .loadKeys later
  | connecting : kind = .standard → (session ≠ .absent → session.IsUp) → isListening = false →
      Boots kind session isListening .sshConnect [.listen]
  | listening : kind = .standard → session.IsUp → isListening = false →
      Boots kind session isListening .listen []
  | listeningFirst : kind = .reverse → session = .absent → isListening = false →
      Boots kind session isListening .listen [.register]
  | registering : kind = .reverse → session = .absent → isListening = true →
      Boots kind session isListening .register []

/-- A run that has not opened yet has no registration and no connections. -/
structure Unopened (r : HostedRun) : Prop where
  reports : .opened ∉ r.run.reports
  registration : r.registration = none
  connections : r.connections = []

/-- What a run has, by where it stands. -/
inductive Holds (registry : Registry) (r : HostedRun) : Prop where
  | booting {next : BootStep} {later : List BootStep} : r.run.phase = .booting next later →
      Boots r.config.kind r.session r.isListening next later → r.Unopened → Holds registry r
  | serving : r.run.phase = .serving → r.Equipped → Holds registry r
  | ended (fault : Option TunnelError) : r.run.phase = .ended fault → Released registry r →
      Holds registry r

/-- What a run keeps: it is of its tunnel's kind, its registration is of its tunnel and has a number
that was given out, and it has what it has to have where it stands. -/
structure Keeps (registry : Registry) (r : HostedRun) : Prop where
  kind : r.run.kind = r.config.kind
  issued : ∀ g, r.registration = some g → g.id = r.config.id ∧ g.serial < registry.nextSerial
  holds : Holds registry r

variable {r : HostedRun} {registry before after : Registry} {p : Registry × HostedRun}
  {next : BootStep} {later : List BootStep} {tags : Tags} {e : TunnelError}

theorem keeps_begin (registry : Registry) (config : TunnelConfig) (options : TunnelOptions) :
    Keeps registry (begin config options) := by
  cases config with
  | standard _ | reverse _ =>
    refine ⟨rfl, nofun, .booting rfl (.loading rfl rfl rfl) ⟨?_, rfl, rfl⟩⟩
    simp [begin, TunnelRun.start, BootStep.ofKind, TunnelConfig.kind]

theorem Keeps.cancel (hk : Keeps registry r) : Keeps registry r.cancel := by
  refine ⟨hk.kind, hk.issued, ?_⟩
  cases hk.holds with
  | booting hp hb hu =>
    exact .booting hp hb
      ⟨hu.reports, hu.registration, by simp [HostedRun.cancel, hu.connections]⟩
  | serving hp he => exact .serving hp ⟨he.listener, he.standard, he.reverse⟩
  | ended fault hp hr =>
    refine .ended fault hp ⟨hr.listener, fun hs => ?_, by simp [HostedRun.cancel], hr.registration⟩
    exact (hr.session hs).imp_right (Or.imp_right fun h => ⟨h.1, rfl, h.2.2⟩)

/-- A registration that has left the registry does not come back: new ones have new numbers. -/
theorem Keeps.of_precedes (hk : Keeps before r) (h : before.Precedes after) : Keeps after r := by
  refine ⟨hk.kind, fun g hg => ?_, ?_⟩
  · obtain ⟨hid, hlt⟩ := hk.issued g hg
    exact ⟨hid, Nat.lt_of_lt_of_le hlt h.numbers⟩
  · cases hk.holds with
    | booting hp hb hu => exact .booting hp hb hu
    | serving hp he => exact .serving hp he
    | ended fault hp hr =>
      refine .ended fault hp ⟨hr.listener, hr.session, hr.connections, fun g hg e he heq => ?_⟩
      rcases h.entries e he with hold | hnew
      · exact hr.registration g hg e hold heq
      · subst heq
        exact absurd hnew (Nat.not_le.mpr (hk.issued _ hg).2)

/-! ## Ways out -/

/-- A session that is asked to end was live, or it had been closed. -/
theorem ended_of_isUp {session : SshSession} (h : session ≠ .absent → session.IsUp) :
    let after := if session = .live then .told else session
    after ≠ .absent → after = .told ∨ after = .closed := by
  cases session with
  | absent => exact absurd rfl
  | live => exact fun _ => .inl rfl
  | closed => exact fun _ => .inr rfl
  | told | dropped => exact absurd (h nofun) (by simp [SshSession.IsUp])

/-- A run that has not opened has nothing to give back but a listener and a session. -/
theorem Unopened.released (hu : r.Unopened) (hl : r.isListening = false)
    (hs : r.session ≠ .absent → r.session = .told ∨ r.session = .closed) :
    Released registry r where
  listener := hl
  session h := (hs h).imp_right .inl
  connections := by simp [hu.connections]
  registration := by simp [hu.registration]

/-- A run whose boot fails does not open. -/
theorem Unopened.failed (hu : r.Unopened) (hp : r.run.phase = .booting next later) :
    (r.hear registry (.stepFailed e)).2.Unopened := by
  refine ⟨?_, (registration_hear _ _ _).trans hu.registration, ?_⟩
  · simp [run_hear, TunnelRun.step, TunnelRun.finish, hp, hu.reports]
  · unfold hear TunnelRun.acts
    split
    case h_3 => split <;> exact hu.connections
    case h_5 | h_6 => contradiction
    all_goals exact hu.connections

/-- A run whose boot fails gives back what it got so far. A connect fails before the server is
dialed, or because no key was accepted. -/
theorem Boots.failed (hb : Boots r.config.kind r.session r.isListening next later) (hu : r.Unopened)
    (hp : r.run.phase = .booting next later) (hkind : r.run.kind = r.config.kind)
    (he : next = .sshConnect → r.session = .absent ∨ ∃ user address, e = .authFailed user address) :
    Released (r.hear registry (.stepFailed e)).1 (r.hear registry (.stepFailed e)).2 := by
  have hu' : (r.hear registry (.stepFailed e)).2.Unopened := hu.failed hp
  cases hb with
  | loading _ hs hl =>
    have hacts : r.run.acts (.stepFailed e) = [] := by simp [TunnelRun.acts, hp]
    rw [hear, hacts] at hu' ⊢
    exact hu'.released hl (absurd hs)
  | connecting _ hs hl =>
    have hacts : r.run.acts (.stepFailed e) = [.disconnect] ∨
        r.run.acts (.stepFailed e) = [] ∧ r.session = .absent := by
      rcases he rfl with habsent | ⟨user, address, rfl⟩
      · cases e <;> simp [TunnelRun.acts, hp, habsent]
      · exact .inl (by simp [TunnelRun.acts, hp])
    rcases hacts with hacts | ⟨hacts, habsent⟩
    · rw [hear, hacts] at hu' ⊢
      exact hu'.released hl (ended_of_isUp hs)
    · rw [hear, hacts] at hu' ⊢
      exact hu'.released hl (absurd habsent)
  | listening hk hs hl =>
    have hacts : r.run.acts (.stepFailed e) = [.disconnect] := by
      simp [TunnelRun.acts, hp, hkind, hk]
    rw [hear, hacts] at hu' ⊢
    exact hu'.released hl (ended_of_isUp fun _ => hs)
  | listeningFirst hk hs hl =>
    have hacts : r.run.acts (.stepFailed e) = [] := by simp [TunnelRun.acts, hp, hkind, hk]
    rw [hear, hacts] at hu' ⊢
    exact hu'.released hl (absurd hs)
  | registering _ hs hl =>
    have hacts : r.run.acts (.stepFailed e) = [.closeListener] := by simp [TunnelRun.acts, hp]
    rw [hear, hacts] at hu' ⊢
    exact hu'.released rfl (absurd hs)

/-- A run that is cancelled while it is connecting drops the session that it was getting. -/
theorem Boots.calledOff (hb : Boots r.config.kind r.session r.isListening .sshConnect later)
    (hu : r.Unopened) (hp : r.run.phase = .booting .sshConnect later)
    (hc : r.isCancelled = true) :
    Released (r.hear registry .cancelled).1 (r.hear registry .cancelled).2 := by
  have hacts : r.run.acts .cancelled = [.dropConnecting] := by simp [TunnelRun.acts, hp]
  cases hb with
  | connecting _ hs hl =>
    rw [hear, hacts]
    refine ⟨hl, fun h => ?_, by simp [act, hu.connections], by simp [act, hu.registration]⟩
    have hopen : .opened ∉ (r.run.step .cancelled).reports := by
      simp [TunnelRun.step, TunnelRun.finish, hp, hu.reports]
    by_cases hlive : r.session = .live
    · exact .inr (.inr ⟨if_pos hlive, hc, hopen⟩)
    · have hsame : (if r.session = .live then .dropped else r.session) = r.session := if_neg hlive
      refine .inr (.inl (hsame.trans ((hs fun habsent => ?_).resolve_left hlive)))
      exact h (hsame.trans habsent)

/-- A run that was open gives back all that it had. -/
theorem Equipped.ended {event : RunEvent} (he : r.Equipped) (hp : r.run.phase = .serving)
    (hkind : r.run.kind = r.config.kind) (hends : event = .cancelled ∨ ∃ e, event = .lost e) :
    Released (r.hear registry event).1 (r.hear registry event).2 := by
  cases hk : r.config.kind with
  | standard =>
    have hacts : r.run.acts event = [.cancelConnections, .closeListener, .disconnect] := by
      rcases hends with rfl | ⟨e, rfl⟩ <;> simp [TunnelRun.acts, hp, hkind, hk]
    obtain ⟨hup, hnone⟩ := he.standard hk
    rw [hear, hacts]
    exact ⟨rfl, fun h => (ended_of_isUp (fun _ => hup) h).imp_right .inl, by simp [act],
      by simp [act, hnone]⟩
  | reverse =>
    have hacts :
        r.run.acts event = [.cancelConnections, .closeQueue, .release, .closeListener] := by
      rcases hends with rfl | ⟨e, rfl⟩ <;> simp [TunnelRun.acts, hp, hkind, hk]
    obtain ⟨habsent, hsome⟩ := he.reverse hk
    obtain ⟨g, hg⟩ := Option.isSome_iff_exists.mp hsome
    rw [hear, hacts]
    refine ⟨rfl, absurd habsent, by simp [act], fun g' hg' e hmem => ?_⟩
    obtain rfl : g = g' := Option.some.inj (hg.symm.trans hg')
    have hmem' : e ∈ (registry.release g).entries := by simpa [act, hg] using hmem
    exact (Registry.mem_release.mp hmem').2

/-! ## What a run keeps -/

theorem Keeps.booting (hk : Keeps registry r) (hp : r.run.phase = .booting next later) :
    Boots r.config.kind r.session r.isListening next later ∧ r.Unopened := by
  cases hk.holds with
  | booting hp' hb hu =>
    rw [hp] at hp'
    cases hp'
    exact ⟨hb, hu⟩
  | serving hp' _ | ended _ hp' _ => exact absurd (hp.symm.trans hp') nofun

theorem Keeps.serving (hk : Keeps registry r) (hp : r.run.phase = .serving) : r.Equipped := by
  cases hk.holds with
  | booting hp' _ _ | ended _ hp' _ => exact absurd (hp.symm.trans hp') nofun
  | serving _ he => exact he

theorem Keeps.released (hk : Keeps registry r) (hends : r.run.result?.isSome) :
    Released registry r := by
  cases hk.holds with
  | booting hp _ _ | serving hp _ => simp [TunnelRun.result?, hp] at hends
  | ended _ _ hr => exact hr

/-- After a boot step that is not the last one, the run is about to make the next. -/
theorem holds_of_next {next' : BootStep} (hp : r.run.phase = .booting next (next' :: later))
    (hu : r.Unopened) (hb : Boots r.config.kind r.session r.isListening next' later) :
    Holds (r.hear registry (.stepDone tags)).1 (r.hear registry (.stepDone tags)).2 := by
  have hrun : r.run.step (.stepDone tags) = { r.run with
      phase := .booting next' later
      reports := r.run.reports ++ [.bootEvent next.name tags] } := by
    simp only [TunnelRun.step, hp]
  rw [hear_stepDone, hrun]
  exact .booting rfl hb ⟨by simp [hu.reports], hu.registration, hu.connections⟩

/-- After the last boot step the run is open. -/
theorem holds_of_last (hp : r.run.phase = .booting next []) (he : r.Equipped) :
    Holds (r.hear registry (.stepDone tags)).1 (r.hear registry (.stepDone tags)).2 := by
  rw [hear_stepDone]
  refine .serving ?_ ⟨he.listener, he.standard, he.reverse⟩
  simp only [TunnelRun.step, hp]

theorem holds_of_keysLoaded (hp : r.run.phase = .booting .loadKeys later)
    (hb : Boots r.config.kind r.session r.isListening .loadKeys later) (hu : r.Unopened) :
    Holds (r.hear registry (.stepDone tags)).1 (r.hear registry (.stepDone tags)).2 := by
  cases hb with
  | loading horder hs hl =>
    cases hkind : r.config.kind with
    | standard =>
      rw [hkind] at horder
      cases horder
      exact holds_of_next hp hu (.connecting hkind (absurd hs) hl)
    | reverse =>
      rw [hkind] at horder
      cases horder
      exact holds_of_next hp hu (.listeningFirst hkind hs hl)

theorem holds_of_listened (hp : r.run.phase = .booting .listen later)
    (hb : Boots r.config.kind r.session false .listen later) (hu : r.Unopened)
    (hl : r.isListening = true) :
    Holds (r.hear registry (.stepDone tags)).1 (r.hear registry (.stepDone tags)).2 := by
  cases hb with
  | listening hkind hs =>
    refine holds_of_last hp ⟨hl, fun _ => ⟨hs, hu.registration⟩, fun h => ?_⟩
    exact absurd (hkind.symm.trans h) nofun
  | listeningFirst hkind hs => exact holds_of_next hp hu (.registering hkind hs hl)

theorem holds_of_failed (hp : r.run.phase = .booting next later)
    (hb : Boots r.config.kind r.session r.isListening next later) (hu : r.Unopened)
    (hkind : r.run.kind = r.config.kind)
    (he : next = .sshConnect → r.session = .absent ∨ ∃ user address, e = .authFailed user address) :
    Holds (r.hear registry (.stepFailed e)).1 (r.hear registry (.stepFailed e)).2 := by
  refine .ended (some (.atBoot next.name e)) ?_ (hb.failed hu hp hkind he)
  rw [run_hear, TunnelRun.step_failed hp]
  rfl

/-- An event that cannot happen to a run where it stands changes nothing. -/
theorem hear_of_ignored {event : RunEvent} (hstep : r.run.step event = r.run)
    (hacts : r.run.acts event = []) : r.hear registry event = (registry, r) := by
  rw [hear, hacts, hstep]
  rfl

theorem holds_of_cancelled (hk : Keeps registry r) (hc : r.isCancelled = true) :
    Holds (r.hear registry .cancelled).1 (r.hear registry .cancelled).2 := by
  cases hk.holds with
  | @booting next later hp hb hu =>
    cases next with
    | sshConnect =>
      refine .ended none ?_ (hb.calledOff hu hp hc)
      rw [run_hear, TunnelRun.step_calledOff hp]
      rfl
    | loadKeys | listen | register =>
      rw [hear_of_ignored (by simp only [TunnelRun.step, hp]) (by simp only [TunnelRun.acts, hp])]
      exact .booting hp hb hu
  | serving hp he =>
    refine .ended none ?_ (he.ended hp hk.kind (.inl rfl))
    rw [run_hear, TunnelRun.step_stopped hp]
    rfl
  | ended fault hp hr =>
    rw [hear_of_ignored (by simp only [TunnelRun.step, hp]) (by simp only [TunnelRun.acts, hp])]
    exact .ended fault hp hr

theorem holds_of_lost (hk : Keeps registry r) (hplain : e.isBoot = false) :
    Holds (r.hear registry (.lost e)).1 (r.hear registry (.lost e)).2 := by
  cases hk.holds with
  | booting hp hb hu =>
    rw [hear_of_ignored (by simp only [TunnelRun.step, hp]) (by simp only [TunnelRun.acts, hp])]
    exact .booting hp hb hu
  | serving hp he =>
    refine .ended (some e) ?_ (he.ended hp hk.kind (.inr ⟨e, rfl⟩))
    rw [run_hear, TunnelRun.step_lost hp hplain]
    rfl
  | ended fault hp hr =>
    rw [hear_of_ignored (by simp only [TunnelRun.step, hp]) (by simp only [TunnelRun.acts, hp])]
    exact .ended fault hp hr

/-- A session that its far side closes was up. -/
theorem holds_of_sessionClosed (hh : Holds registry r) (hs : r.session = .live) :
    Holds registry { r with session := .closed } := by
  cases hh with
  | booting hp hb hu =>
    refine .booting hp ?_ ⟨hu.reports, hu.registration, hu.connections⟩
    cases hb with
    | loading _ habsent _ | listeningFirst _ habsent _ | registering _ habsent _ =>
      exact absurd (hs.symm.trans habsent) nofun
    | connecting hkind _ hl => exact .connecting hkind (fun _ => .inr rfl) hl
    | listening hkind _ hl => exact .listening hkind (.inr rfl) hl
  | serving hp he =>
    refine .serving hp ⟨he.listener, fun h => ⟨.inr rfl, (he.standard h).2⟩, fun h => ?_⟩
    exact absurd (hs.symm.trans (he.reverse h).1) nofun
  | ended fault hp hr =>
    have hdialed : r.session ≠ .absent := fun habsent => absurd (hs.symm.trans habsent) nofun
    rcases hr.session hdialed with h | h | ⟨h, -⟩ <;> exact absurd (hs.symm.trans h) nofun

/-- A run that is about to listen is not listening yet. -/
theorem Boots.deaf (hb : Boots r.config.kind r.session r.isListening .listen later) :
    Boots r.config.kind r.session false .listen later := by
  have hl : r.isListening = false := by cases hb <;> assumption
  exact hl ▸ hb

theorem holds_of_turn (hk : Keeps registry r) (ht : r.Turn registry p) : Holds p.1 p.2 := by
  cases ht with
  | nothing => exact hk.holds
  | keysLoaded hp =>
    obtain ⟨hb, hu⟩ := hk.booting hp
    exact holds_of_keysLoaded hp hb ⟨hu.reports, hu.registration, hu.connections⟩
  | noKeys hp _ =>
    obtain ⟨hb, hu⟩ := hk.booting hp
    exact holds_of_failed hp hb ⟨hu.reports, hu.registration, hu.connections⟩ hk.kind nofun
  | dialed hp =>
    obtain ⟨hb, hu⟩ := hk.booting hp
    refine .booting hp ?_ ⟨hu.reports, hu.registration, hu.connections⟩
    cases hb with
    | connecting hkind _ hl => exact .connecting hkind (fun _ => .inl rfl) hl
  | notDialed hp habsent =>
    obtain ⟨hb, hu⟩ := hk.booting hp
    exact holds_of_failed hp hb hu hk.kind fun _ => .inl habsent
  | connected hp hdialed =>
    obtain ⟨hb, hu⟩ := hk.booting hp
    cases hb with
    | connecting hkind hs hl => exact holds_of_next hp hu (.listening hkind (hs hdialed) hl)
  | refused hp =>
    obtain ⟨hb, hu⟩ := hk.booting hp
    exact holds_of_failed hp hb hu hk.kind fun _ => .inr ⟨_, _, rfl⟩
  | listened hp =>
    obtain ⟨hb, hu⟩ := hk.booting hp
    exact holds_of_listened hp hb.deaf ⟨hu.reports, hu.registration, hu.connections⟩ rfl
  | notListened hp _ =>
    obtain ⟨hb, hu⟩ := hk.booting hp
    exact holds_of_failed hp hb.deaf ⟨hu.reports, hu.registration, hu.connections⟩ hk.kind nofun
  | registered hp hreg =>
    obtain ⟨hb, hu⟩ := hk.booting hp
    cases hb with
    | registering hkind hs hl =>
      refine holds_of_last hp ⟨hl, fun h => ?_, fun _ => ⟨hs, rfl⟩⟩
      exact absurd (hkind.symm.trans h) nofun
  | notRegistered hp _ =>
    obtain ⟨hb, hu⟩ := hk.booting hp
    exact holds_of_failed hp hb hu hk.kind nofun
  | cancelled hc => exact holds_of_cancelled hk hc
  | accepted hp =>
    have he := hk.serving hp
    exact .serving hp ⟨he.listener, he.standard, he.reverse⟩
  | sessionClosed hs => exact holds_of_sessionClosed hk.holds hs
  | lost he => exact holds_of_lost hk he

theorem Keeps.moment (hk : Keeps registry r) (m : RunMoment) :
    Keeps (r.moment registry m).1 (r.moment registry m).2 := by
  have ht := r.turn_moment registry m
  generalize r.moment registry m = p at ht
  obtain ⟨hconfig, hkind⟩ := ht.kind_eq
  refine ⟨by rw [hconfig, hkind, hk.kind], fun g hg => ?_, holds_of_turn hk ht⟩
  rw [hconfig]
  rcases ht.registry_cases with ⟨hsame, -⟩ | ⟨_, t, g', _, -, hid, hreg, hg', -⟩
  · obtain ⟨hid, hlt⟩ := hk.issued g (hsame ▸ hg)
    exact ⟨hid, Nat.lt_of_lt_of_le hlt ht.precedes.numbers⟩
  · obtain rfl : g' = g := Option.some.inj (hg'.symm.trans hg)
    obtain ⟨-, rfl, heq⟩ := Registry.register_ok hreg
    rw [heq]
    exact ⟨hid, Nat.lt_succ_self _⟩

/-! ## What a run does to the registry, and to what it has -/

/-- What a run had got is still known of it later. -/
structure Remembers (later earlier : HostedRun) : Prop where
  session : earlier.session ≠ .absent → later.session ≠ .absent
  registration : ∀ g, earlier.registration = some g → later.registration = some g
  connections : earlier.connections.length ≤ later.connections.length

theorem remembers_act (p : Registry × HostedRun) (a : RunAct) : (act p a).2.Remembers p.2 := by
  cases a with
  | cancelConnections => exact ⟨id, fun _ => id, by simp [act]⟩
  | closeQueue | release | closeListener => exact ⟨id, fun _ => id, Nat.le_refl _⟩
  | disconnect | dropConnecting =>
    refine ⟨fun h => ?_, fun _ => id, Nat.le_refl _⟩
    simp only [act]
    split
    · decide
    · exact h

theorem remembers_foldl_act (acts : List RunAct) (p : Registry × HostedRun) :
    (acts.foldl act p).2.Remembers p.2 := by
  induction acts generalizing p with
  | nil => exact ⟨id, fun _ => id, Nat.le_refl _⟩
  | cons a acts ih =>
    have hfirst := remembers_act p a
    have hrest := ih (act p a)
    exact ⟨fun h => hrest.session (hfirst.session h),
      fun g h => hrest.registration g (hfirst.registration g h),
      hfirst.connections.trans hrest.connections⟩

theorem remembers_hear (r : HostedRun) (registry : Registry) (event : RunEvent) :
    (r.hear registry event).2.Remembers r := by
  have h := remembers_foldl_act (r.run.acts event) (registry, { r with run := r.run.step event })
  exact ⟨h.session, h.registration, h.connections⟩

theorem Keeps.remembers (hk : Keeps registry r) (ht : r.Turn registry p) : p.2.Remembers r := by
  have hears (r' : HostedRun) (event : RunEvent) (hsame : r'.session = r.session ∧
      r'.registration = r.registration ∧ r'.connections = r.connections) :
      (r'.hear registry event).2.Remembers r := by
    obtain ⟨hs, hg, hc⟩ := hsame
    have h := remembers_hear r' registry event
    exact ⟨hs ▸ h.session, hg ▸ h.registration, hc ▸ h.connections⟩
  cases ht with
  | nothing => exact ⟨id, fun _ => id, Nat.le_refl _⟩
  | dialed _ | sessionClosed _ => exact ⟨nofun, fun _ => id, Nat.le_refl _⟩
  | accepted _ => exact ⟨id, fun _ => id, by simp⟩
  | registered hp _ =>
    have hnone := (hk.booting hp).2.registration
    rw [hear_stepDone]
    exact ⟨id, fun g hg => absurd (hnone.symm.trans hg) nofun, Nat.le_refl _⟩
  | keysLoaded _ | noKeys _ _ | notDialed _ _ | connected _ _ | refused _ | listened _
  | notListened _ _ | notRegistered _ _ | cancelled _ | lost _ =>
    exact hears _ _ ⟨rfl, rfl, rfl⟩

/-- A run that ends takes its own registration out of the registry, and nothing else. -/
theorem Turn.own (ht : r.Turn registry p) (hends : p.2.run.result?.isSome)
    (hreleased : Released p.1 p.2) (e : RegistryEntry) :
    e ∈ p.1.entries ↔ e ∈ registry.entries ∧ r.registration ≠ some e.registration := by
  rcases ht.registry_cases with ⟨hsame, hcases⟩ | ⟨later, _, _, _, hp, -, -, -, hrun⟩
  · have hgone (he : e ∈ p.1.entries) : r.registration ≠ some e.registration := fun heq =>
      hreleased.registration _ (hsame.trans heq) e he rfl
    rcases hcases with heq | ⟨g, hg, heq⟩
    · rw [heq] at hgone ⊢
      exact ⟨fun he => ⟨he, hgone he⟩, And.left⟩
    · rw [heq, Registry.mem_release, hg, ne_eq, ne_eq, Option.some.injEq, eq_comm]
  · -- a run that registers goes on
    rw [hrun] at hends
    cases later <;> simp [TunnelRun.result?, TunnelRun.step, hp] at hends

/-- What a run meets takes away no registration of another tunnel, and none of its own tunnel that
is newer than its own. -/
theorem Keeps.spares (hk : Keeps registry r) (ht : r.Turn registry p) {e : RegistryEntry}
    (he : e ∈ registry.entries) (hother : e.tunnel.id ≠ r.config.id ∨
      ∃ g, r.registration = some g ∧ g.serial < e.serial) : e ∈ p.1.entries := by
  rcases ht.registry_cases with ⟨-, heq | ⟨g, hg, heq⟩⟩ | ⟨_, t, _, _, hp, hid, hreg, -, -⟩
  · exact heq ▸ he
  · rw [heq, Registry.mem_release]
    refine ⟨he, ?_⟩
    rintro rfl
    rcases hother with hne | ⟨g, hg', hlt⟩
    · exact hne (hk.issued _ hg).1
    · cases hg.symm.trans hg'
      exact absurd hlt (Nat.lt_irrefl _)
  · have hnone := (hk.booting hp).2.registration
    obtain ⟨-, -, heq⟩ := Registry.register_ok hreg
    rw [heq, Registry.mem_enroll, hid]
    rcases hother with hne | ⟨g, hg, -⟩
    · exact .inl ⟨he, hne⟩
    · exact absurd (hnone.symm.trans hg) nofun

end HostedRun

/-- A run on a server with this registry leaves nothing behind. -/
structure LeavesNothing (registry : Registry) (r : HostedRun) : Prop where
  /-- While it is open it has its listener, and its session or its registration. -/
  equipped : r.run.isServing = true → r.Equipped
  /-- Whatever it meets, what it had got is still known. -/
  remembers : ∀ m, (r.moment registry m).2.Remembers r
  /-- When it is over, it has given back all that it had. -/
  released : r.run.result?.isSome → Released registry r
  /-- If it ends by what it meets, its own registration is out of the registry, and nothing else. -/
  own : ∀ m, (r.moment registry m).2.run.result?.isSome → ∀ e,
    e ∈ (r.moment registry m).1.entries ↔
      e ∈ registry.entries ∧ r.registration ≠ some e.registration
  /-- Whatever it meets, the registrations of other tunnels stay, and those of its own tunnel that
  are newer than its own. -/
  spares : ∀ m, ∀ e ∈ registry.entries, (e.tunnel.id ≠ r.config.id ∨
    ∃ g, r.registration = some g ∧ g.serial < e.serial) → e ∈ (r.moment registry m).1.entries

namespace RunHost

variable {s : RunHost} {r : HostedRun}

theorem Reachable.keeps (hs : Reachable s) (hr : r ∈ s.runs) : r.Keeps s.registry :=
  hs.forall_runs (p := HostedRun.Keeps) HostedRun.keeps_begin (fun _ _ h => h.cancel)
    (fun _ _ _ hlater h => h.of_precedes hlater) (fun _ _ m h => h.moment m) r hr

/-- No run leaves anything behind, whatever it met and whatever other runs there were. -/
theorem leavesNothing_of_reachable (hs : Reachable s) (hr : r ∈ s.runs) :
    LeavesNothing s.registry r := by
  have hk := hs.keeps hr
  have ht (m : RunMoment) := r.turn_moment s.registry m
  exact ⟨fun h => hk.serving (beq_iff_eq.mp h), fun m => hk.remembers (ht m), hk.released,
    fun m hends => (ht m).own hends ((hk.moment m).released hends),
    fun m _ he hother => hk.spares (ht m) he hother⟩

/-- A reverse tunnel with a user is registered anew by a second run of it. The first run finds that
out and ends: its listener is closed and its user's connection is cancelled, and the registration
of the second run stays. -/
theorem leavesNothing_when_replaced :
    ∃ s, Reachable s ∧ ∃ first ∈ s.runs, ∃ second ∈ s.runs,
      first.config = second.config ∧ first.run.result?.isSome ∧ second.run.isServing = true ∧
      LeavesNothing s.registry first ∧ first.connections = [true] ∧
      LeavesNothing s.registry second ∧
      s.registry.entries.map (fun e => some e.registration) = [second.registration] := by
  let config : TunnelConfig := .reverse ⟨default, default, true, 4000⟩
  let events : List HostEvent := bootReverse config 0 ++ [.moment 0 .accepts] ++
    bootReverse config 1 ++ [.moment 0 .findsReplaced]
  have hs := Reachable.start.foldl events
  have hcheck : ((events.foldl step {}).runs[0]?.any fun first =>
      (events.foldl step {}).runs[1]?.any fun second =>
        first.config = second.config && first.run.result?.isSome && second.run.isServing &&
        first.connections = [true] && (events.foldl step {}).registry.entries.map
          (fun e => some e.registration) = [second.registration]) = true := by
    decide +kernel
  obtain ⟨first, hfirst, hcheck⟩ := (Option.any_eq_true _ _).mp hcheck
  obtain ⟨second, hsecond, hcheck⟩ := (Option.any_eq_true _ _).mp hcheck
  simp only [Bool.and_eq_true, decide_eq_true_eq] at hcheck
  obtain ⟨⟨⟨⟨hconfig, hends⟩, hserving⟩, hconns⟩, hregistry⟩ := hcheck
  have hmem := List.mem_of_getElem? hfirst
  have hmem' := List.mem_of_getElem? hsecond
  exact ⟨_, hs, first, hmem, second, hmem', hconfig, hends, hserving,
    leavesNothing_of_reachable hs hmem, hconns, leavesNothing_of_reachable hs hmem', hregistry⟩

end RunHost
end SshTunnels
