import SshTunnels.Reverse.Admission

/-!
# Exchanges with agents

What can happen at the SSH server, in any order: tunnels are registered and taken out, their queues
are drained and closed, agents connect, present keys, ask for forwards, take them back and leave,
and watchers look after granted requests. A request for a forward is two events, the look-up of its
port and its delivery, and everybody else may act in between; only its own connection waits.

Admission rests on two parts of the server: the registry, and what each connection has signed in
with. `step_effect` says once what an event can do to these two.
-/

namespace SshTunnels

/-- What happens at the SSH server. -/
inductive AgentEvent where
  | register (tunnel : RegisteredTunnel) (capacity : Nat)
  | deregister (id : Uuid)
  | release (registration : Registration)
  | closeQueue (registration : Nat)
  | takeRequest (registration : Nat)
  | connect (peer : Option String)
  | authenticate (connection : Nat) (key : PublicKey)
  | lookUp (connection : Nat) (address : String) (port : Nat)
  | deliver (connection : Nat)
  | cancelForward (connection : Nat) (port : Nat)
  | disconnect (connection : Nat)
  | watch (request : Nat)
  deriving DecidableEq, Repr

/-- What the SSH server answers. -/
inductive AgentReply where
  | done
  | registered (registration : Registration)
  | conflict (error : TunnelError)
  | taken (request : Option Nat)
  | connected (connection : Nat)
  | answered (accepted : Bool)
  deriving DecidableEq, Repr

/-- What has happened at the SSH server, each event with its reply, the latest first. -/
abbrev AgentHistory := List (AgentEvent × AgentReply)

namespace AgentServer

/-- What an event makes of the server, and the reply to it. -/
def step (s : AgentServer) : AgentEvent → AgentServer × AgentReply
  | .register tunnel capacity =>
    match s.register tunnel capacity with
    | .ok (registration, s) => (s, .registered registration)
    | .error e => (s, .conflict e)
  | .deregister id => (s.deregister id, .done)
  | .release registration => (s.release registration, .done)
  | .closeQueue registration => (s.closeQueue registration, .done)
  | .takeRequest registration =>
    match s.takeRequest registration with
    | some (request, s) => (s, .taken (some request))
    | none => (s, .taken none)
  | .connect peer => ((s.connect peer).2, .connected (s.connect peer).1)
  | .authenticate c key => ((s.authenticate c key).2, .answered (s.authenticate c key).1)
  | .lookUp c address port => ((s.lookUp c address port).2, .answered (s.lookUp c address port).1)
  | .deliver c => ((s.deliver c).2, .answered (s.deliver c).1)
  | .cancelForward c port => ((s.cancelForward c port).2, .answered (s.cancelForward c port).1)
  | .disconnect c => (s.disconnect c, .done)
  | .watch request => (s.watch request, .done)

/-- A request of the connection is on its way. -/
def isBusy (s : AgentServer) (c : Nat) : Bool :=
  (s.pending? c).isSome

/-- The event can happen: a connection with a request on its way does nothing else until it has been
delivered. -/
def allows (s : AgentServer) : AgentEvent → Bool
  | .authenticate c _ | .lookUp c _ _ | .cancelForward c _ | .disconnect c => !s.isBusy c
  | .deliver c => s.isBusy c
  | _ => true

/-- `Run h s`: the events of `h`, replied to as it says, have brought an empty server to `s`. -/
inductive Run : AgentHistory → AgentServer → Prop where
  | start : Run [] {}
  | next {h : AgentHistory} {s : AgentServer} (event : AgentEvent) :
      Run h s → s.allows event = true → Run ((event, (s.step event).2) :: h) (s.step event).1

/-! ## What admission rests on -/

/-- What each connection has signed in with, and the tunnels that this lets it forward for. -/
def credentials (s : AgentServer) : List (Option PublicKey × List AuthorizedTunnel) :=
  s.connections.map fun conn => (conn.key, conn.authorized)

/-- The event and its reply register a tunnel, begin a connection or let an agent in. -/
def isAdmission : AgentEvent → AgentReply → Bool
  | .register _ _, .registered _ => true
  | .connect _, .connected _ => true
  | .authenticate _ _, .answered accepted => accepted
  | _, _ => false

/-- What an event makes of the registry and of the credentials. -/
inductive Effect (s s' : AgentServer) : AgentEvent → AgentReply → Prop where
  /-- A tunnel is registered. -/
  | registered {tunnel : RegisteredTunnel} {capacity : Nat} {registration : Registration} :
      s.registry.register tunnel = .ok (registration, s'.registry) →
      s'.credentials = s.credentials →
      Effect s s' (.register tunnel capacity) (.registered registration)
  /-- An agent connects. -/
  | connected {peer : Option String} :
      s'.registry = s.registry → s'.credentials = s.credentials ++ [(none, [])] →
      Effect s s' (.connect peer) (.connected s.credentials.length)
  /-- An agent is let in. -/
  | signedIn {c : Nat} {key : PublicKey} :
      s'.registry = s.registry → s.registry.authorizedTunnels key ≠ [] →
      s'.credentials =
        s.credentials.modify c (fun _ => (some key, s.registry.authorizedTunnels key)) →
      Effect s s' (.authenticate c key) (.answered true)
  /-- Nobody is let in, and tunnels at most leave. -/
  | thinned {event : AgentEvent} {reply : AgentReply} :
      isAdmission event reply = false →
      s'.registry.entries.Sublist s.registry.entries → s'.credentials = s.credentials →
      Effect s s' event reply

/-! Lists with one element added or changed. -/

theorem getElem?_concat_cases {α : Type} {l : List α} {a b : α} {i : Nat}
    (h : (l ++ [a])[i]? = some b) : (l.length ≠ i ∧ l[i]? = some b) ∨ (l.length = i ∧ b = a) := by
  rcases Nat.lt_trichotomy i l.length with hlt | heq | hgt
  · rw [List.getElem?_append_left hlt] at h
    exact .inl ⟨Nat.ne_of_gt hlt, h⟩
  · rw [heq, List.getElem?_concat_length] at h
    exact .inr ⟨heq.symm, (Option.some.inj h).symm⟩
  · have hnone : (l ++ [a])[i]? = none := by
      rw [List.getElem?_eq_none_iff, List.length_append, List.length_singleton]
      exact hgt
    rw [hnone] at h
    cases h

theorem getElem?_modify_cases {α : Type} {l : List α} {a b : α} {n i : Nat}
    (h : (l.modify n fun _ => a)[i]? = some b) : (n ≠ i ∧ l[i]? = some b) ∨ (n = i ∧ b = a) := by
  by_cases hn : n = i
  · rw [hn, List.getElem?_modify_eq, Option.map_eq_map, Option.map_eq_some_iff] at h
    obtain ⟨_, -, hb⟩ := h
    exact .inr ⟨hn, hb.symm⟩
  · rw [List.getElem?_modify_ne _ _ hn] at h
    exact .inl ⟨hn, h⟩

theorem map_modify {α β : Type} {g : α → β} {f : α → α} {f' : β → β}
    (hf : ∀ a, g (f a) = f' (g a)) (l : List α) (i : Nat) :
    (l.modify i f).map g = (l.map g).modify i f' := by
  refine List.ext_getElem? fun j => ?_
  rw [List.getElem?_map, List.getElem?_modify, List.getElem?_modify, List.getElem?_map]
  cases l[j]? with
  | none => rfl
  | some a =>
    by_cases h : i = j
    · simp [h, hf]
    · simp [h]

/-- Changing a connection leaves the credentials alone if it leaves alone what it signed in with. -/
theorem credentials_modify {f : AgentConnection → AgentConnection}
    (hf : ∀ conn, ((f conn).key, (f conn).authorized) = (conn.key, conn.authorized))
    (s : AgentServer) (c : Nat) : (s.modifyConnection c f).credentials = s.credentials :=
  (map_modify hf s.connections c).trans (List.modify_id c _)

theorem credentials_endForward (s : AgentServer) (c : Nat) :
    (s.endForward c).credentials = s.credentials := by
  rw [endForward]
  split
  · rfl
  · exact credentials_modify (fun _ => by rfl) _ c

theorem registry_endForward (s : AgentServer) (c : Nat) :
    (s.endForward c).registry = s.registry := by
  rw [endForward]
  split <;> rfl

/-! ## What an event can do -/

variable {s s' : AgentServer}

/-- An event that leaves both parts as they are. -/
theorem effect_nothing {event : AgentEvent} {reply : AgentReply}
    (he : isAdmission event reply = false) (hr : s'.registry = s.registry)
    (hc : s'.credentials = s.credentials) : Effect s s' event reply :=
  .thinned he (hr ▸ List.Sublist.refl _) hc

/-- A registration at the server is one at its registry, with a queue. -/
theorem register_cases (s : AgentServer) (t : RegisteredTunnel) (capacity : Nat) :
    (∃ g registry, s.registry.register t = .ok (g, registry) ∧
      s.step (.register t capacity) = ({ s with
        registry, queues := s.queues ++ [⟨g.serial, max 1 capacity, [], true⟩] }, .registered g)) ∨
    ∃ e, s.registry.register t = .error e ∧ s.step (.register t capacity) = (s, .conflict e) := by
  cases hr : s.registry.register t with
  | error e =>
    have hs : s.register t capacity = .error e := by
      rw [register, hr]
      rfl
    exact .inr ⟨e, rfl, by simp only [step, hs]⟩
  | ok out =>
    obtain ⟨g, registry⟩ := out
    have hs : s.register t capacity = .ok (g, { s with
        registry, queues := s.queues ++ [⟨g.serial, max 1 capacity, [], true⟩] }) := by
      rw [register, hr]
      rfl
    exact .inl ⟨g, registry, rfl, by simp only [step, hs]⟩

theorem effect_register (s : AgentServer) (t : RegisteredTunnel) (capacity : Nat) :
    Effect s (s.step (.register t capacity)).1 (.register t capacity)
      (s.step (.register t capacity)).2 := by
  rcases s.register_cases t capacity with ⟨g, registry, hr, hs⟩ | ⟨e, -, hs⟩
  · rw [hs]
    exact .registered hr rfl
  · rw [hs]
    exact effect_nothing rfl rfl rfl

/-- A key that is authorized for nothing is refused without a change. -/
theorem authenticate_cases (s : AgentServer) (c : Nat) (key : PublicKey) :
    (s.registry.authorizedTunnels key = [] ∧ s.authenticate c key = (false, s)) ∨
    (s.registry.authorizedTunnels key ≠ [] ∧
      s.authenticate c key = (true, s.modifyConnection c fun conn =>
        { conn with key := some key, authorized := s.registry.authorizedTunnels key })) := by
  cases hm : s.registry.authorizedTunnels key with
  | nil => exact .inl ⟨rfl, by simp only [authenticate, hm]⟩
  | cons first rest => exact .inr ⟨List.cons_ne_nil _ _, by simp only [authenticate, hm]⟩

theorem effect_authenticate (s : AgentServer) (c : Nat) (key : PublicKey) :
    Effect s (s.step (.authenticate c key)).1 (.authenticate c key)
      (s.step (.authenticate c key)).2 := by
  rcases s.authenticate_cases c key with ⟨-, hs⟩ | ⟨hne, hs⟩
  · simp only [step, hs]
    exact effect_nothing rfl rfl rfl
  · simp only [step, hs]
    exact .signedIn rfl hne (map_modify (fun _ => by rfl) s.connections c)

/-- The registration that a request is for: the connection has no forward yet, the port is one that
the connection signed in for, and the tunnel that it signed in for still holds it. -/
theorem target?_eq_some_iff {conn : AgentConnection} {port : Nat} {entry : RegistryEntry} :
    s.target? conn port = some entry ↔ conn.forward = none ∧ port < UInt16.size ∧
      ∃ allowed, conn.authorized.find? (·.port.toNat == port) = some allowed ∧
        s.registry.holder? allowed.port = some entry ∧ entry.tunnel.id = allowed.id := by
  rw [target?]
  constructor
  · intro h
    split at h
    · cases h
    · next hfree =>
      simp only [Bool.or_eq_true, decide_eq_true_eq, not_or, Option.not_isSome_iff_eq_none,
        Nat.not_le] at hfree
      simp only [Option.bind_eq_bind, Option.bind_eq_some_iff] at h
      obtain ⟨allowed, hallowed, entry', hentry, hid⟩ := h
      split at hid
      · next hsame =>
        cases hid
        exact ⟨hfree.1, hfree.2, allowed, hallowed, hentry, beq_iff_eq.mp hsame⟩
      · cases hid
  · rintro ⟨hidle, hport, allowed, hallowed, hentry, hid⟩
    simp [hidle, Nat.not_le.mpr hport, hallowed, hentry, hid]

/-- The registration that a request is for is one of a tunnel that the connection signed in for and
that still holds its port. -/
theorem target?_eq_some {conn : AgentConnection} {port : Nat} {entry : RegistryEntry}
    (h : s.target? conn port = some entry) :
    ∃ allowed ∈ conn.authorized, allowed.port.toNat = port ∧
      s.registry.holder? allowed.port = some entry ∧ entry.tunnel.id = allowed.id := by
  obtain ⟨-, -, allowed, hallowed, hentry, hid⟩ := target?_eq_some_iff.mp h
  have hport := List.find?_some hallowed
  exact ⟨allowed, List.mem_of_find?_eq_some hallowed, beq_iff_eq.mp hport, hentry, hid⟩

/-- A connection's request for a registered tunnel. -/
def targetFor (entry : RegistryEntry) (address : String) : ForwardTarget :=
  ⟨⟨entry.tunnel.id, entry.tunnel.port⟩, entry.serial, address⟩

/-- A look-up sends the connection's request on its way to the registration that it is for, and else
it is refused without a change. -/
theorem lookUp_cases (s : AgentServer) (c : Nat) (address : String) (port : Nat) :
    (∃ conn entry, s.connections[c]? = some conn ∧ s.target? conn port = some entry ∧
      s.lookUp c address port = (true, s.modifyConnection c fun conn =>
        { conn with pending := some (targetFor entry address) })) ∨
    ((∀ conn, s.connections[c]? = some conn → s.target? conn port = none) ∧
      s.lookUp c address port = (false, s)) := by
  cases hc : s.connections[c]? with
  | none =>
    refine .inr ⟨nofun, ?_⟩
    simp only [lookUp, hc, Option.bind_none]
  | some conn =>
    cases ht : s.target? conn port with
    | none =>
      refine .inr ⟨fun conn' heq => ?_, ?_⟩
      · cases heq
        exact ht
      · simp only [lookUp, hc, Option.bind_some, ht]
    | some entry =>
      refine .inl ⟨conn, entry, rfl, ht, ?_⟩
      simp only [lookUp, hc, Option.bind_some, ht]
      rfl

theorem effect_lookUp (s : AgentServer) (c : Nat) (address : String) (port : Nat) :
    Effect s (s.step (.lookUp c address port)).1 (.lookUp c address port)
      (s.step (.lookUp c address port)).2 := by
  simp only [step]
  rcases s.lookUp_cases c address port with ⟨_, _, -, -, hs⟩ | ⟨-, hs⟩
  · rw [hs]
    exact effect_nothing rfl rfl (credentials_modify (fun _ => by rfl) _ c)
  · rw [hs]
    exact effect_nothing rfl rfl rfl

/-- The server once the request of a connection has arrived, whether it is granted or not. -/
def arrive (s : AgentServer) (c : Nat) : AgentServer :=
  s.modifyConnection c fun conn => { conn with pending := none }

/-- A delivery grants the request that is on its way if its queue has room, or refuses it; it is on
its way no more. A connection without a request on its way has nothing to deliver. -/
theorem deliver_cases (s : AgentServer) (c : Nat) :
    (∃ conn t, s.connections[c]? = some conn ∧ conn.pending = some t ∧
      s.hasRoom t.registration = true ∧
      s.deliver c = (true, (s.arrive c).grant c conn.peer t)) ∨
    (∃ conn t, s.connections[c]? = some conn ∧ conn.pending = some t ∧
      s.hasRoom t.registration = false ∧ s.deliver c = (false, s.arrive c)) ∨
    (s.pending? c = none ∧ s.deliver c = (false, s)) := by
  cases hc : s.connections[c]? with
  | none =>
    refine .inr (.inr ⟨?_, ?_⟩)
    · simp only [pending?, hc, Option.bind_none]
    · simp only [deliver, hc]
  | some conn =>
    cases hp : conn.pending with
    | none =>
      refine .inr (.inr ⟨?_, ?_⟩)
      · simp only [pending?, hc, Option.bind_some, hp]
      · simp only [deliver, hc, hp]
    | some t =>
      cases hroom : s.hasRoom t.registration with
      | true =>
        refine .inl ⟨conn, t, rfl, hp, hroom, ?_⟩
        simp only [deliver, hc, hp]
        exact if_pos hroom
      | false =>
        refine .inr (.inl ⟨conn, t, rfl, hp, hroom, ?_⟩)
        simp only [deliver, hc, hp]
        exact if_neg (Bool.eq_false_iff.mp hroom)

theorem credentials_arrive (s : AgentServer) (c : Nat) :
    (s.arrive c).credentials = s.credentials :=
  credentials_modify (fun _ => by rfl) s c

theorem credentials_grant (s : AgentServer) (c : Nat) (peer : Option String) (t : ForwardTarget) :
    (s.grant c peer t).credentials = s.credentials :=
  credentials_modify (fun _ => by rfl) _ c

theorem effect_deliver (s : AgentServer) (c : Nat) :
    Effect s (s.step (.deliver c)).1 (.deliver c) (s.step (.deliver c)).2 := by
  simp only [step]
  rcases s.deliver_cases c with ⟨conn, t, -, -, -, hs⟩ | ⟨_, _, -, -, -, hs⟩ | ⟨-, hs⟩
  · rw [hs]
    exact effect_nothing rfl rfl
      ((credentials_grant _ c conn.peer t).trans (credentials_arrive s c))
  · rw [hs]
    exact effect_nothing rfl rfl (credentials_arrive s c)
  · rw [hs]
    exact effect_nothing rfl rfl rfl

/-- A look-up finds a registration for a connection that has one for its request. -/
theorem lookUp_found {c : Nat} {address : String} {port : Nat}
    (h : (s.lookUp c address port).1 = true) :
    ∃ conn entry, s.connections[c]? = some conn ∧ s.target? conn port = some entry := by
  rcases s.lookUp_cases c address port with ⟨conn, entry, hc, ht, -⟩ | ⟨-, hs⟩
  · exact ⟨conn, entry, hc, ht⟩
  · rw [hs] at h
    cases h

/-- A forward without anything between look-up and delivery is granted only if the look-up has found
a registration. -/
theorem lookUp_of_forward {c : Nat} {address : String} {port : Nat}
    (h : (s.forward c address port).1 = true) : (s.lookUp c address port).1 = true := by
  rw [forward] at h
  split at h
  · next heq => rw [heq]
  · cases h

/-- An agent takes its forward back and is told to leave, or nothing happens. -/
theorem cancelForward_cases (s : AgentServer) (c : Nat) (port : Nat) :
    s.cancelForward c port =
      (true, (s.endForward c).modifyConnection c fun conn => { conn with isLeaving := true }) ∨
    s.cancelForward c port = (false, s) := by
  unfold cancelForward
  split
  · exact .inr rfl
  · split
    · exact .inl rfl
    · exact .inr rfl

theorem effect_cancelForward (s : AgentServer) (c : Nat) (port : Nat) :
    Effect s (s.step (.cancelForward c port)).1 (.cancelForward c port)
      (s.step (.cancelForward c port)).2 := by
  simp only [step]
  rcases s.cancelForward_cases c port with hs | hs
  · rw [hs]
    exact effect_nothing rfl (registry_endForward s c)
      ((credentials_modify (fun _ => by rfl) _ c).trans (credentials_endForward s c))
  · rw [hs]
    exact effect_nothing rfl rfl rfl

/-- A watcher closes its request and tells the agent to leave, or nothing happens. -/
theorem watch_cases (s : AgentServer) (r : Nat) :
    (∃ c, s.watch r =
      (s.closeRequest r).modifyConnection c fun conn => { conn with isLeaving := true }) ∨
    s.watch r = s := by
  unfold watch
  split
  · exact .inr rfl
  · next g _ =>
    split
    · exact .inl ⟨g.connection, rfl⟩
    · exact .inr rfl

theorem effect_watch (s : AgentServer) (r : Nat) :
    Effect s (s.step (.watch r)).1 (.watch r) (s.step (.watch r)).2 := by
  simp only [step]
  rcases s.watch_cases r with ⟨c, hs⟩ | hs
  · rw [hs]
    exact effect_nothing rfl rfl (credentials_modify (fun _ => by rfl) _ _)
  · rw [hs]
    exact effect_nothing rfl rfl rfl

/-- A tunnel takes the first request of its queue, if there is one. -/
theorem takeRequest_cases (s : AgentServer) (n : Nat) :
    (∃ queue r rest, s.queue? n = some queue ∧ queue.waiting = r :: rest ∧
      s.step (.takeRequest n) =
        (s.modifyQueue n fun q => { q with waiting := rest }, .taken (some r))) ∨
    s.step (.takeRequest n) = (s, .taken none) := by
  cases hq : s.queue? n with
  | none =>
    have hs : s.takeRequest n = none := by
      rw [takeRequest, hq]
      rfl
    exact .inr (by simp only [step, hs])
  | some queue =>
    cases hw : queue.waiting with
    | nil =>
      have hs : s.takeRequest n = none := by
        simp only [takeRequest, hq, hw, Option.bind_eq_bind, Option.bind_some]
      exact .inr (by simp only [step, hs])
    | cons r rest =>
      have hs : s.takeRequest n =
          some (r, s.modifyQueue n fun q => { q with waiting := rest }) := by
        simp only [takeRequest, hq, hw, Option.bind_eq_bind, Option.bind_some]
      exact .inl ⟨queue, r, rest, rfl, hw, by simp only [step, hs]⟩

theorem effect_takeRequest (s : AgentServer) (n : Nat) :
    Effect s (s.step (.takeRequest n)).1 (.takeRequest n) (s.step (.takeRequest n)).2 := by
  rcases s.takeRequest_cases n with ⟨queue, r, rest, -, -, hs⟩ | hs
  · rw [hs]
    exact effect_nothing rfl rfl rfl
  · rw [hs]
    exact effect_nothing rfl rfl rfl

/-- What an event makes of the registry and of the credentials is one of the effects. -/
theorem step_effect (s : AgentServer) (event : AgentEvent) :
    Effect s (s.step event).1 event (s.step event).2 := by
  cases event with
  | register t capacity => exact effect_register s t capacity
  | deregister id => exact .thinned rfl List.filter_sublist rfl
  | release g => exact .thinned rfl List.filter_sublist rfl
  | closeQueue n => exact effect_nothing rfl rfl rfl
  | takeRequest n => exact effect_takeRequest s n
  | connect peer =>
    have hlen : s.connections.length = s.credentials.length := (List.length_map _).symm
    simp only [step, connect, hlen]
    exact .connected rfl List.map_append
  | authenticate c key => exact effect_authenticate s c key
  | lookUp c address port => exact effect_lookUp s c address port
  | deliver c => exact effect_deliver s c
  | cancelForward c port => exact effect_cancelForward s c port
  | disconnect c =>
    exact effect_nothing rfl (registry_endForward s c)
      ((credentials_modify (fun _ => by rfl) _ c).trans (credentials_endForward s c))
  | watch r => exact effect_watch s r

end AgentServer
end SshTunnels
