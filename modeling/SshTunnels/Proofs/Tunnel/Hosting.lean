import SshTunnels.Keepalive
import SshTunnels.Options
import SshTunnels.Proofs.Reverse.Registrations
import SshTunnels.Proofs.Traversal
import SshTunnels.Tunnel.Run

/-!
# Runs side by side

Runs of tunnels on one server, any number of them at a time, also several of one tunnel. They share
the registry of reverse tunnels; each has a listener, an SSH session or a registration, and
connections of its own. At any moment a run can be cancelled, and its tunnel can be taken out of the
registry or registered by another run.

A run meets what its surroundings have in store: keys that are there or are not, an SSH server that
answers, lets it in or hangs up, a port that is free or taken. `HostedRun.Turn` lists what can come
of it, and `HostedRun.turn_moment` says that nothing else can: none of the errors that reach a run
is marked as the failure of a boot step. `RunHost.Reachable.forall_runs` carries what one run keeps
over to all runs of a server, where the others may change the registry at any time.
-/

namespace SshTunnels

/-! ## Sources of keys -/

/-- A source of keys with faults of its own: none is marked as the failure of a boot step. -/
structure PlainKeys extends KeySource where
  isBoot_tunnelKeys : ∀ tunnel kind e, tunnelKeys tunnel kind = .error e → e.isBoot = false
  isBoot_fetch : ∀ key e, fetch key = .error e → e.isBoot = false

namespace PlainKeys

/-- Keys in memory. -/
def ofMemory (m : MemoryKeys) : PlainKeys where
  toKeySource := .ofMemory m
  isBoot_tunnelKeys _ _ _ h := by cases h
  isBoot_fetch key e h := by
    simp only [KeySource.ofMemory, MemoryKeys.get] at h
    split at h
    · cases h
    · cases h
      rfl

/-- Keys in the store. -/
def ofStore (s : Store) : PlainKeys where
  toKeySource := .ofStore s
  isBoot_tunnelKeys tunnel kind e h := by
    simp only [KeySource.ofStore, Store.tunnelKeys] at h
    split at h
    · cases h
    · cases h
      rfl
  isBoot_fetch key e h := by
    simp only [KeySource.ofStore, Store.getKey] at h
    split at h
    · cases h
    · cases h
      rfl
    · cases h
      rfl

variable {source : PlainKeys} {tunnel : Uuid} {kind : TunnelKind} {e : TunnelError}

theorem isBoot_mapM_fetch {refs : List Uuid} (h : refs.mapM source.fetch = .error e) :
    e.isBoot = false := by
  obtain ⟨before, key, after, -, -, hkey⟩ := exists_first_of_mapM_eq_error h
  exact source.isBoot_fetch key e hkey

theorem isBoot_contents (h : source.contents tunnel kind = .error e) : e.isBoot = false := by
  rw [KeySource.contents] at h
  cases hk : source.tunnelKeys tunnel kind with
  | error e' =>
    rw [hk] at h
    cases h
    exact source.isBoot_tunnelKeys tunnel kind e hk
  | ok refs =>
    rw [hk] at h
    cases refs with
    | nil =>
      cases h
      rfl
    | cons key refs => exact isBoot_mapM_fetch h

theorem isBoot_readAll {κ : Type} {read : Bytes → Except SshError κ} {contents : List Bytes}
    (h : KeySource.readAll read contents = .error e) : e.isBoot = false := by
  rw [KeySource.readAll] at h
  split at h
  · cases h
  · cases h
    rfl

theorem isBoot_privateKeys (h : source.privateKeys tunnel = .error e) : e.isBoot = false := by
  rw [KeySource.privateKeys] at h
  cases hc : source.contents tunnel .standard with
  | error e' =>
    rw [hc] at h
    cases h
    exact isBoot_contents hc
  | ok contents =>
    rw [hc] at h
    exact isBoot_readAll h

theorem isBoot_authorizedKeys (h : source.authorizedKeys tunnel = .error e) :
    e.isBoot = false := by
  rw [KeySource.authorizedKeys] at h
  cases hc : source.contents tunnel .reverse with
  | error e' =>
    rw [hc] at h
    cases h
    exact isBoot_contents hc
  | ok contents =>
    rw [hc] at h
    exact isBoot_readAll h

end PlainKeys

/-! ## The registry over time -/

/-- One registry comes before another: numbers are not given out again, and an entry that is new has
a new number. -/
structure Registry.Precedes (before after : Registry) : Prop where
  numbers : before.nextSerial ≤ after.nextSerial
  entries : ∀ e ∈ after.entries, e ∈ before.entries ∨ before.nextSerial ≤ e.serial

namespace Registry

theorem precedes_refl (r : Registry) : r.Precedes r :=
  ⟨Nat.le_refl _, fun _ => .inl⟩

theorem precedes_removeIf (r : Registry) (gone : RegistryEntry → Bool) :
    r.Precedes (r.removeIf gone) :=
  ⟨Nat.le_refl _, fun _ he => .inl (mem_removeIf.mp he).1⟩

theorem precedes_register {r r' : Registry} {t : RegisteredTunnel} {g : Registration}
    (h : r.register t = .ok (g, r')) : r.Precedes r' := by
  obtain ⟨-, -, rfl⟩ := register_ok h
  refine ⟨Nat.le_succ _, fun e he => ?_⟩
  rcases mem_enroll.mp he with ⟨hmem, -⟩ | rfl
  · exact .inl hmem
  · exact .inr (Nat.le_refl _)

end Registry

/-! ## Runs and their surroundings -/

/-- The SSH session of a run: not dialed yet, live, closed by its far side, asked to end, or dropped
while it was being connected. -/
inductive SshSession where
  | absent
  | live
  | closed
  | told
  | dropped
  deriving DecidableEq, Repr

/-- Why an SSH server cannot be dialed: it does not answer in time, or the connection breaks
down. -/
inductive DialFault where
  | timedOut
  | broken (detail : String)
  deriving DecidableEq, Repr

/-- The error of a tunnel that cannot dial. -/
def DialFault.error (o : TunnelOptions) : DialFault → TunnelError
  | .timedOut => .timeout "ssh dial" o.dialTimeout
  | .broken detail => .ssh detail

theorem DialFault.isBoot_error (o : TunnelOptions) (fault : DialFault) :
    (fault.error o).isBoot = false := by
  cases fault <;> rfl

/-- A run on the server: its tunnel, whether its token is cancelled, the keys of its agents, its
listener, its SSH session, its registration, and for each of its connections whether the token of
this connection is cancelled. -/
structure HostedRun where
  config : TunnelConfig
  options : TunnelOptions
  run : TunnelRun
  isCancelled : Bool := false
  keys : List PublicKey := []
  isListening : Bool := false
  session : SshSession := .absent
  registration : Option Registration := none
  connections : List Bool := []
  deriving DecidableEq, Repr

/-- What a run meets. -/
inductive RunMoment where
  | loadsKeys (source : PlainKeys)
  | dials
  | dialFails (fault : DialFault)
  | signsIn (accepted : Bool)
  | listens (outcome : Except IoError Unit)
  | registers
  | heedsCancel
  | accepts
  | sessionCloses
  | findsSessionClosed
  | findsListenerBroken (error : IoError)
  | findsReplaced

namespace HostedRun

/-- A run of a tunnel at its start. -/
def begin (config : TunnelConfig) (options : TunnelOptions) : HostedRun :=
  { config, options, run := .start config.kind }

/-- The run's token is cancelled, and with it those of its connections. -/
def cancel (r : HostedRun) : HostedRun :=
  { r with isCancelled := true, connections := r.connections.map fun _ => true }

/-- Carries out an act of a run. The queue of a registration is of no concern here. -/
def act (p : Registry × HostedRun) : RunAct → Registry × HostedRun
  | .cancelConnections =>
    (p.1, { p.2 with connections := p.2.connections.map fun _ => true })
  | .closeQueue => p
  | .release => (p.2.registration.elim p.1 p.1.release, p.2)
  | .closeListener => (p.1, { p.2 with isListening := false })
  | .disconnect =>
    (p.1, { p.2 with session := if p.2.session = .live then .told else p.2.session })
  | .dropConnecting =>
    (p.1, { p.2 with session := if p.2.session = .live then .dropped else p.2.session })

/-- The run hears of an event, and does what it has to do then. -/
def hear (r : HostedRun) (registry : Registry) (event : RunEvent) : Registry × HostedRun :=
  (r.run.acts event).foldl act (registry, { r with run := r.run.step event })

/-- The run is about to make a boot step. -/
def isAt (r : HostedRun) (step : BootStep) : Bool :=
  match r.run.phase with
  | .booting next _ => next == step
  | _ => false

/-- What comes of signing in at an SSH server: it accepts one of the keys, or none. -/
def signedIn (c : StandardTunnel) (o : TunnelOptions) (accepted : Bool) : RunEvent :=
  let user := c.sshUserOr o.defaultUser
  TunnelRun.connected c.sshHost user
    (if accepted then .ok () else .error (.authFailed user s!"{c.sshHost}:{c.sshPort}"))

/-- What becomes of a run, and of the registry, by what the run meets. What it cannot meet where it
stands makes no difference. -/
def moment (r : HostedRun) (registry : Registry) : RunMoment → Registry × HostedRun
  | .loadsKeys source =>
    if r.isAt .loadKeys then
      match r.config with
      | .standard c => r.hear registry (TunnelRun.keysLoaded (source.privateKeys c.id))
      | .reverse c =>
        { r with keys := (source.authorizedKeys c.id).toOption.getD [] }.hear registry
          (TunnelRun.keysLoaded (source.authorizedKeys c.id))
    else (registry, r)
  | .dials =>
    if r.isAt .sshConnect ∧ r.session = .absent then (registry, { r with session := .live })
    else (registry, r)
  | .dialFails fault =>
    if r.isAt .sshConnect ∧ r.session = .absent then
      r.hear registry (.stepFailed (fault.error r.options))
    else (registry, r)
  | .signsIn accepted =>
    match r.config with
    | .standard c =>
      if r.isAt .sshConnect ∧ r.session ≠ .absent then
        r.hear registry (signedIn c r.options accepted)
      else (registry, r)
    | .reverse _ => (registry, r)
  | .listens outcome =>
    if r.isAt .listen then
      { r with isListening := outcome.isOk }.hear registry
        (TunnelRun.listening s!"{r.options.bindHost}:{r.config.tunnelPort}" outcome)
    else (registry, r)
  | .registers =>
    if r.isAt .register then
      match registry.register ⟨r.config.id, r.config.tunnelPort, r.keys⟩ with
      | .ok (g, registry) =>
        { r with registration := some g }.hear registry
          (TunnelRun.registered r.config.tunnelPort (.ok ()))
      | .error e => r.hear registry (TunnelRun.registered r.config.tunnelPort (.error e))
    else (registry, r)
  | .heedsCancel => if r.isCancelled then r.hear registry .cancelled else (registry, r)
  | .accepts =>
    if r.run.isServing then
      (registry, { r with connections := r.connections ++ [r.isCancelled] })
    else (registry, r)
  | .sessionCloses =>
    if r.session = .live then (registry, { r with session := .closed }) else (registry, r)
  | .findsSessionClosed =>
    if r.session = .closed then r.hear registry (.lost Keepalive.lost) else (registry, r)
  | .findsListenerBroken e => r.hear registry (.lost (.listener e))
  | .findsReplaced =>
    if r.registration.any fun g => registry.ended.contains g.serial then
      r.hear registry (.lost (.forward "tunnel registration was replaced"))
    else (registry, r)

end HostedRun

/-- The registry, and all runs so far in the order in which they began. -/
structure RunHost where
  registry : Registry := {}
  runs : List HostedRun := []

/-- What happens on the server: a run begins or is cancelled, a tunnel is taken out of the registry,
or a run meets something. -/
inductive HostEvent where
  | begins (config : TunnelConfig) (options : TunnelOptions)
  | cancels (run : Nat)
  | deregister (id : Uuid)
  | moment (run : Nat) (m : RunMoment)

namespace RunHost

/-- What an event makes of the server. -/
def step (s : RunHost) : HostEvent → RunHost
  | .begins config options => { s with runs := s.runs ++ [.begin config options] }
  | .cancels n => { s with runs := s.runs.modify n HostedRun.cancel }
  | .deregister id => { s with registry := s.registry.deregister id }
  | .moment n m =>
    match s.runs[n]? with
    | none => s
    | some r => ⟨(r.moment s.registry m).1, s.runs.set n (r.moment s.registry m).2⟩

/-- A run of a reverse tunnel begins, as the next after `n` others, and boots. The one key that it
finds is of an algorithm that a domain defines. -/
def bootReverse (config : TunnelConfig) (n : Nat) : List HostEvent :=
  let keys : MemoryKeys :=
    ⟨[(.ofNat 1, Bytes.ofString "a@b AAAAA2FAYgAAAAEB")], [⟨config.id, .reverse, .ofNat 1⟩]⟩
  [.begins config {}, .moment n (.loadsKeys (.ofMemory keys)), .moment n (.listens (.ok ())),
    .moment n .registers]

/-- What a server can come to. -/
inductive Reachable : RunHost → Prop where
  | start : Reachable {}
  | next {s : RunHost} (event : HostEvent) : Reachable s → Reachable (s.step event)

end RunHost

/-! ## What becomes of a run -/

/-- The failure of an event is not marked as one of a boot step. -/
def RunEvent.IsPlain : RunEvent → Prop
  | .stepFailed e | .lost e => e.isBoot = false
  | .stepDone _ | .cancelled => True

namespace TunnelRun

variable {run : TunnelRun} {next : BootStep} {later : List BootStep}

theorem kind_step (run : TunnelRun) (event : RunEvent) : (run.step event).kind = run.kind := by
  unfold step
  split
  · split <;> rfl
  all_goals rfl

theorem step_failed (hp : run.phase = .booting next later) (e : TunnelError) :
    run.step (.stepFailed e) =
      run.finish [.bootError (.atBoot next.name e)] (some (.atBoot next.name e)) := by
  simp only [step, hp]

theorem step_calledOff (hp : run.phase = .booting .sshConnect later) :
    run.step .cancelled = run.finish [] none := by
  simp only [step, hp]

theorem step_stopped (hp : run.phase = .serving) :
    run.step .cancelled = run.finish [.closed] none := by
  simp only [step, hp]

theorem step_lost (hp : run.phase = .serving) {e : TunnelError} (he : e.isBoot = false) :
    run.step (.lost e) = run.finish [.closed, .error e] (some e) := by
  simp only [step, hp, he]
  rfl

end TunnelRun

namespace HostedRun

/-- What becomes of a run, and of the registry, by what the run meets. -/
inductive Turn (r : HostedRun) (registry : Registry) : Registry × HostedRun → Prop where
  | nothing : Turn r registry (registry, r)
  | keysLoaded {later : List BootStep} {keys : List PublicKey} {tags : Tags} :
      r.run.phase = .booting .loadKeys later →
      Turn r registry ({ r with keys }.hear registry (.stepDone tags))
  | noKeys {later : List BootStep} {keys : List PublicKey} {e : TunnelError} :
      r.run.phase = .booting .loadKeys later → e.isBoot = false →
      Turn r registry ({ r with keys }.hear registry (.stepFailed e))
  | dialed {later : List BootStep} : r.run.phase = .booting .sshConnect later →
      Turn r registry (registry, { r with session := .live })
  | notDialed {later : List BootStep} {fault : DialFault} :
      r.run.phase = .booting .sshConnect later → r.session = .absent →
      Turn r registry (r.hear registry (.stepFailed (fault.error r.options)))
  | connected {later : List BootStep} {tags : Tags} :
      r.run.phase = .booting .sshConnect later → r.session ≠ .absent →
      Turn r registry (r.hear registry (.stepDone tags))
  | refused {later : List BootStep} {user address : String} :
      r.run.phase = .booting .sshConnect later →
      Turn r registry (r.hear registry (.stepFailed (.authFailed user address)))
  | listened {later : List BootStep} {tags : Tags} : r.run.phase = .booting .listen later →
      Turn r registry ({ r with isListening := true }.hear registry (.stepDone tags))
  | notListened {later : List BootStep} {e : TunnelError} :
      r.run.phase = .booting .listen later → e.isBoot = false →
      Turn r registry ({ r with isListening := false }.hear registry (.stepFailed e))
  | registered {later : List BootStep} {g : Registration} {registry' : Registry} {tags : Tags} :
      r.run.phase = .booting .register later →
      registry.register ⟨r.config.id, r.config.tunnelPort, r.keys⟩ = .ok (g, registry') →
      Turn r registry ({ r with registration := some g }.hear registry' (.stepDone tags))
  | notRegistered {later : List BootStep} {e : TunnelError} :
      r.run.phase = .booting .register later → e.isBoot = false →
      Turn r registry (r.hear registry (.stepFailed e))
  | cancelled : r.isCancelled = true → Turn r registry (r.hear registry .cancelled)
  | accepted : r.run.phase = .serving →
      Turn r registry (registry, { r with connections := r.connections ++ [r.isCancelled] })
  | sessionClosed : r.session = .live →
      Turn r registry (registry, { r with session := .closed })
  | lost {e : TunnelError} : e.isBoot = false → Turn r registry (r.hear registry (.lost e))

variable {r : HostedRun} {registry : Registry} {m : RunMoment} {event : RunEvent}

theorem phase_of_isAt {step : BootStep} (h : r.isAt step = true) :
    ∃ later, r.run.phase = .booting step later := by
  rw [isAt] at h
  split at h
  · next next later hp => exact ⟨later, by rw [hp, beq_iff_eq.mp h]⟩
  · cases h

theorem turn_loadsKeys (r : HostedRun) (registry : Registry) (source : PlainKeys) :
    Turn r registry (r.moment registry (.loadsKeys source)) := by
  simp only [moment]
  split
  · next h =>
    obtain ⟨later, hp⟩ := phase_of_isAt h
    split
    · next c _ =>
      cases hk : source.privateKeys c.id with
      | ok keys => exact .keysLoaded hp
      | error e => exact .noKeys hp (PlainKeys.isBoot_privateKeys hk)
    · next c _ =>
      cases hk : source.authorizedKeys c.id with
      | ok keys => exact .keysLoaded hp
      | error e => exact .noKeys hp (PlainKeys.isBoot_authorizedKeys hk)
  · exact .nothing

theorem turn_registers (r : HostedRun) (registry : Registry) :
    Turn r registry (r.moment registry .registers) := by
  simp only [moment]
  split
  · next h =>
    obtain ⟨later, hp⟩ := phase_of_isAt h
    split
    · next g registry' hreg => exact .registered hp hreg
    · next e hreg =>
      obtain ⟨_, -, -, -, rfl⟩ := Registry.register_error hreg
      exact .notRegistered hp rfl
  · exact .nothing

/-- What becomes of a run by what it meets is one of these. -/
theorem turn_moment (r : HostedRun) (registry : Registry) (m : RunMoment) :
    Turn r registry (r.moment registry m) := by
  cases m with
  | loadsKeys source => exact r.turn_loadsKeys registry source
  | dials =>
    simp only [moment]
    split
    · next h =>
      obtain ⟨later, hp⟩ := phase_of_isAt h.1
      exact .dialed hp
    · exact .nothing
  | dialFails fault =>
    simp only [moment]
    split
    · next h =>
      obtain ⟨later, hp⟩ := phase_of_isAt h.1
      exact .notDialed hp h.2
    · exact .nothing
  | signsIn accepted =>
    simp only [moment]
    split
    · split
      · next h =>
        obtain ⟨later, hp⟩ := phase_of_isAt h.1
        cases accepted with
        | true => exact .connected hp h.2
        | false => exact .refused hp
      · exact .nothing
    · exact .nothing
  | listens outcome =>
    simp only [moment]
    split
    · next h =>
      obtain ⟨later, hp⟩ := phase_of_isAt h
      cases outcome with
      | ok _ => exact .listened hp
      | error e => exact .notListened hp rfl
    · exact .nothing
  | registers => exact r.turn_registers registry
  | heedsCancel =>
    simp only [moment]
    split
    · next h => exact .cancelled h
    · exact .nothing
  | accepts =>
    simp only [moment]
    split
    · next h => exact .accepted (beq_iff_eq.mp h)
    · exact .nothing
  | sessionCloses =>
    simp only [moment]
    split
    · next h => exact .sessionClosed h
    · exact .nothing
  | findsSessionClosed =>
    simp only [moment]
    split
    · exact .lost rfl
    · exact .nothing
  | findsListenerBroken e => exact .lost rfl
  | findsReplaced =>
    simp only [moment]
    split
    · exact .lost rfl
    · exact .nothing

/-- The acts of a run are about what it holds, and change nothing else of it. -/
theorem run_foldl_act (acts : List RunAct) (p : Registry × HostedRun) :
    (acts.foldl act p).2.run = p.2.run ∧ (acts.foldl act p).2.config = p.2.config ∧
      (acts.foldl act p).2.isCancelled = p.2.isCancelled ∧
      (acts.foldl act p).2.registration = p.2.registration := by
  induction acts generalizing p with
  | nil => exact ⟨rfl, rfl, rfl, rfl⟩
  | cons a acts ih =>
    obtain ⟨hrun, hconfig, hcancelled, hregistration⟩ := ih (act p a)
    rw [List.foldl_cons, hrun, hconfig, hcancelled, hregistration]
    cases a <;> exact ⟨rfl, rfl, rfl, rfl⟩

theorem run_hear (r : HostedRun) (registry : Registry) (event : RunEvent) :
    (r.hear registry event).2.run = r.run.step event :=
  (run_foldl_act _ _).1

theorem config_hear (r : HostedRun) (registry : Registry) (event : RunEvent) :
    (r.hear registry event).2.config = r.config :=
  (run_foldl_act _ _).2.1

theorem isCancelled_hear (r : HostedRun) (registry : Registry) (event : RunEvent) :
    (r.hear registry event).2.isCancelled = r.isCancelled :=
  (run_foldl_act _ _).2.2.1

theorem registration_hear (r : HostedRun) (registry : Registry) (event : RunEvent) :
    (r.hear registry event).2.registration = r.registration :=
  (run_foldl_act _ _).2.2.2

/-- What a run hears of leaves the registry as it is, or takes back the run's registration. -/
theorem registry_hear (r : HostedRun) (registry : Registry) (event : RunEvent) :
    (r.hear registry event).1 = registry ∨
      ∃ g, r.registration = some g ∧ (r.hear registry event).1 = registry.release g := by
  unfold hear TunnelRun.acts
  split
  case h_3 => split <;> exact .inl rfl
  case h_5 | h_6 =>
    split
    · exact .inl rfl
    · cases hg : r.registration with
      | none => exact .inl (by simp [act])
      | some g => exact .inr ⟨g, rfl, by simp [act]⟩
  all_goals exact .inl rfl

/-- A boot step that is made ends nothing. -/
theorem hear_stepDone (r : HostedRun) (registry : Registry) (tags : Tags) :
    r.hear registry (.stepDone tags) =
      (registry, { r with run := r.run.step (.stepDone tags) }) := by
  have hacts : r.run.acts (.stepDone tags) = [] := by
    cases hp : r.run.phase with
    | booting next later => cases next <;> simp only [TunnelRun.acts, hp]
    | serving | ended fault => simp only [TunnelRun.acts, hp]
  rw [hear, hacts]
  rfl

variable {p : Registry × HostedRun}

/-- What a run meets registers its tunnel, or it leaves the run's registration as it is; then it
takes this registration back, or it leaves the registry as it is. -/
theorem Turn.registry_cases (ht : r.Turn registry p) :
    (p.2.registration = r.registration ∧ (p.1 = registry ∨
      ∃ g, r.registration = some g ∧ p.1 = registry.release g)) ∨
    ∃ later t g tags, r.run.phase = .booting .register later ∧ t.id = r.config.id ∧
      registry.register t = .ok (g, p.1) ∧ p.2.registration = some g ∧
      p.2.run = r.run.step (.stepDone tags) := by
  have hears (r' : HostedRun) (event : RunEvent) (hr : r'.registration = r.registration) :
      (r'.hear registry event).2.registration = r.registration ∧
        ((r'.hear registry event).1 = registry ∨
          ∃ g, r.registration = some g ∧ (r'.hear registry event).1 = registry.release g) :=
    ⟨(registration_hear _ _ _).trans hr, hr ▸ registry_hear r' registry event⟩
  cases ht with
  | nothing | dialed _ | accepted _ | sessionClosed _ => exact .inl ⟨rfl, .inl rfl⟩
  | registered hp hreg =>
    rw [hear_stepDone]
    exact .inr ⟨_, _, _, _, hp, rfl, hreg, rfl, rfl⟩
  | keysLoaded _ | noKeys _ _ | notDialed _ _ | connected _ _ | refused _ | listened _
  | notListened _ _ | notRegistered _ _ | cancelled _ | lost _ =>
    refine .inl (hears _ _ ?_)
    rfl

theorem Turn.precedes (ht : r.Turn registry p) : registry.Precedes p.1 := by
  rcases ht.registry_cases with ⟨-, heq | ⟨g, -, heq⟩⟩ | ⟨_, _, _, _, -, -, hreg, -, -⟩
  · rw [heq]
    exact registry.precedes_refl
  · rw [heq]
    exact registry.precedes_removeIf _
  · exact Registry.precedes_register hreg

/-- What a run meets reaches it as one event, if at all: as a plain one, and as a cancellation only
if its token is cancelled. -/
theorem Turn.heard (ht : r.Turn registry p) :
    p.2.config = r.config ∧ p.2.isCancelled = r.isCancelled ∧ (p.2.run = r.run ∨
      ∃ event, event.IsPlain ∧ (event = .cancelled → r.isCancelled = true) ∧
        p.2.run = r.run.step event) := by
  have hears (r' : HostedRun) (registry' : Registry) (event : RunEvent)
      (hsame : r'.run = r.run ∧ r'.config = r.config ∧ r'.isCancelled = r.isCancelled)
      (hp : event.IsPlain) (hc : event = .cancelled → r.isCancelled = true) :
      (r'.hear registry' event).2.config = r.config ∧
        (r'.hear registry' event).2.isCancelled = r.isCancelled ∧
        ((r'.hear registry' event).2.run = r.run ∨
          ∃ event', event'.IsPlain ∧ (event' = .cancelled → r.isCancelled = true) ∧
            (r'.hear registry' event).2.run = r.run.step event') := by
    obtain ⟨hrun, hconfig, hcancelled⟩ := hsame
    refine ⟨(config_hear _ _ _).trans hconfig, (isCancelled_hear _ _ _).trans hcancelled,
      .inr ⟨event, hp, hc, ?_⟩⟩
    rw [run_hear, hrun]
  cases ht with
  | nothing | dialed _ | accepted _ | sessionClosed _ => exact ⟨rfl, rfl, .inl rfl⟩
  | keysLoaded _ | connected _ _ | listened _ | registered _ _ =>
    exact hears _ _ _ ⟨rfl, rfl, rfl⟩ trivial nofun
  | notDialed _ _ => exact hears _ _ _ ⟨rfl, rfl, rfl⟩ (DialFault.isBoot_error _ _) nofun
  | noKeys _ he | notListened _ he | notRegistered _ he | lost he =>
    exact hears _ _ _ ⟨rfl, rfl, rfl⟩ he nofun
  | refused _ => exact hears _ _ _ ⟨rfl, rfl, rfl⟩ rfl nofun
  | cancelled hc => exact hears _ _ _ ⟨rfl, rfl, rfl⟩ trivial fun _ => hc

/-- What a run meets does not change its tunnel. -/
theorem Turn.kind_eq (ht : r.Turn registry p) :
    p.2.config = r.config ∧ p.2.run.kind = r.run.kind := by
  obtain ⟨hconfig, -, hsame | ⟨event, -, -, hstep⟩⟩ := ht.heard
  · exact ⟨hconfig, by rw [hsame]⟩
  · exact ⟨hconfig, by rw [hstep, TunnelRun.kind_step]⟩

end HostedRun

namespace RunHost

variable {s : RunHost} {event : HostEvent} {r : HostedRun}

theorem Reachable.foldl (hs : Reachable s) (events : List HostEvent) :
    Reachable (events.foldl step s) := by
  induction events generalizing s with
  | nil => exact hs
  | cons event events ih => exact ih (hs.next event)

/-- What every run has at its start and keeps, when it is cancelled, in all that it meets and
whatever becomes of the registry meanwhile, every run has at any time. -/
theorem Reachable.forall_runs {p : Registry → HostedRun → Prop}
    (hbegin : ∀ registry config options, p registry (.begin config options))
    (hcancel : ∀ registry r, p registry r → p registry r.cancel)
    (hlater : ∀ before after r, before.Precedes after → p before r → p after r)
    (hmoment : ∀ registry r m, p registry r →
      p (r.moment registry m).1 (r.moment registry m).2) (hs : Reachable s) :
    ∀ r ∈ s.runs, p s.registry r := by
  induction hs with
  | start => exact fun _ hr => absurd hr List.not_mem_nil
  | @next s event _ ih =>
    intro r hr
    cases event with
    | begins config options =>
      rcases List.mem_append.mp hr with hmem | hnew
      · exact ih r hmem
      · exact List.mem_singleton.mp hnew ▸ hbegin _ config options
    | cancels n =>
      obtain ⟨i, hi⟩ := List.mem_iff_getElem?.mp hr
      simp only [step] at hi
      rw [List.getElem?_modify, Option.map_eq_map, Option.map_eq_some_iff] at hi
      obtain ⟨old, hold, heq⟩ := hi
      have hp := ih old (List.mem_of_getElem? hold)
      split at heq
      · exact heq ▸ hcancel _ old hp
      · exact heq ▸ hp
    | deregister id => exact hlater _ _ r (Registry.precedes_removeIf _ _) (ih r hr)
    | moment n m =>
      cases hold : s.runs[n]? with
      | none =>
        simp only [step, hold] at hr ⊢
        exact ih r hr
      | some old =>
        simp only [step, hold] at hr ⊢
        rcases List.mem_or_eq_of_mem_set hr with hmem | rfl
        · exact hlater _ _ r (old.turn_moment s.registry m).precedes (ih r hmem)
        · exact hmoment _ old m (ih old (List.mem_of_getElem? hold))

end RunHost
end SshTunnels
