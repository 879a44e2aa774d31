import SshTunnels.Proofs.Reverse.SigningIn

/-!
# Requests on their way

Between the look-up of a port and the delivery of the request other connections and tunnels act. By
the time the request arrives, another tunnel may hold the port, or the registration that was found
may have ended. What holds of a request on its way is what was true when its port was looked up
(`Run.sought`): its connection had signed in for the tunnel that held the port then, and nothing has
happened on the connection since.
-/

namespace SshTunnels

/-- The connection that an event happens on. -/
def AgentEvent.connection? : AgentEvent → Option Nat
  | .authenticate c _ | .lookUp c _ _ | .deliver c | .cancelForward c _ | .disconnect c => some c
  | .register .. | .deregister _ | .release _ | .closeQueue _ | .takeRequest _ | .connect _
  | .watch _ => none

namespace AgentServer

variable {s s' : AgentServer} {h : AgentHistory} {c n : Nat} {conn : AgentConnection}
  {entry : RegistryEntry} {address : String} {port : Nat} {key : PublicKey} {t : ForwardTarget}
  {event : AgentEvent}

/-! ## Tunnels that accepted a key -/

/-- When the connection was let in last, it was with this key, and a tunnel was registered that
authorized the key. -/
def Accepted (c : Nat) (key : PublicKey) (tunnel : AuthorizedTunnel) (h : AgentHistory) : Prop :=
  ∃ since before s e, h = since ++ (.authenticate c key, .answered true) :: before ∧
    Run before s ∧ e ∈ s.registry.entries ∧ e.tunnel.authorizes key = true ∧
    e.tunnel.id = tunnel.id ∧ e.tunnel.port = tunnel.port ∧
    ∀ x ∈ since, ∀ other, x ≠ (.authenticate c other, .answered true)

/-- Each of the tunnels that a connection signed in for accepted its key. -/
theorem SignedIn.accepted {tunnels : List AuthorizedTunnel} (hs : SignedIn c key tunnels h)
    {tunnel : AuthorizedTunnel} (hmem : tunnel ∈ tunnels) : Accepted c key tunnel h := by
  obtain ⟨since, before, s, heq, hrun, -, rfl, hsince⟩ := hs
  obtain ⟨e, he, hauthorizes, rfl⟩ := Registry.mem_authorizedTunnels.mp hmem
  exact ⟨since, before, s, e, heq, hrun, he, hauthorizes, rfl, rfl, hsince⟩

/-! ## Look-ups -/

/-- A connection's request for a port is sent on its way: the connection has no forward yet, and it
signed in for the tunnel that holds the port. -/
structure Admits (h : AgentHistory) (s : AgentServer) (c port : Nat) (conn : AgentConnection)
    (entry : RegistryEntry) : Prop where
  connection : s.connections[c]? = some conn
  idle : conn.forward = none
  inRange : port < UInt16.size
  signedIn : ∃ key tunnels, SignedIn c key tunnels h ∧ ⟨entry.tunnel.id, .ofNat port⟩ ∈ tunnels
  holder : s.registry.holder? (.ofNat port) = some entry

theorem Run.target?_eq_some_iff (hr : Run h s) (hc : s.connections[c]? = some conn) :
    s.target? conn port = some entry ↔ Admits h s c port conn entry := by
  rw [AgentServer.target?_eq_some_iff]
  constructor
  · rintro ⟨hidle, hport, allowed, hf, hentry, hid⟩
    obtain ⟨key, tunnels, hsigned, hmem, rfl⟩ := (hr.find?_authorized hc).mp hf
    refine ⟨hc, hidle, hport, ⟨key, tunnels, hsigned, ?_⟩, ?_⟩
    · rw [UInt16.ofNat_toNat, hid]
      exact hmem
    · rw [UInt16.ofNat_toNat]
      exact hentry
  · rintro ⟨-, hidle, hport, ⟨key, tunnels, hsigned, hmem⟩, hentry⟩
    refine ⟨hidle, hport, ⟨entry.tunnel.id, .ofNat port⟩, ?_, hentry, rfl⟩
    exact (hr.find?_authorized hc).mpr
      ⟨key, tunnels, hsigned, hmem, UInt16.toNat_ofNat_of_lt' hport⟩

/-- A look-up finds a registration exactly if the request is admitted, and is refused without a
change if it is not. -/
theorem Run.lookUp_cases (hr : Run h s) (c : Nat) (address : String) (port : Nat) :
    (∃ conn entry, Admits h s c port conn entry ∧
      s.lookUp c address port = (true, s.modifyConnection c fun conn =>
        { conn with pending := some (targetFor entry address) })) ∨
    ((¬ ∃ conn entry, Admits h s c port conn entry) ∧ s.lookUp c address port = (false, s)) := by
  rcases AgentServer.lookUp_cases s c address port with ⟨conn, entry, hc, ht, hs⟩ | ⟨hnone, hs⟩
  · exact .inl ⟨conn, entry, (hr.target?_eq_some_iff hc).mp ht, hs⟩
  · refine .inr ⟨?_, hs⟩
    rintro ⟨conn, entry, ha⟩
    have ht := (hr.target?_eq_some_iff ha.connection).mpr ha
    rw [hnone conn ha.connection] at ht
    cases ht

theorem Run.lookUp_found_iff (hr : Run h s) (c : Nat) (address : String) (port : Nat) :
    (s.lookUp c address port).1 = true ↔ ∃ conn entry, Admits h s c port conn entry := by
  rcases hr.lookUp_cases c address port with ⟨conn, entry, ha, hs⟩ | ⟨hnone, hs⟩
  · rw [hs]
    exact iff_of_true rfl ⟨conn, entry, ha⟩
  · rw [hs]
    exact iff_of_false nofun hnone

/-- An admitted request is on its way to the registration of the tunnel that holds the port. -/
theorem Run.lookUp_of_admits (hr : Run h s) (ha : Admits h s c port conn entry)
    (address : String) : s.lookUp c address port = (true, s.modifyConnection c fun conn =>
      { conn with pending := some (targetFor entry address) }) := by
  have ht := (hr.target?_eq_some_iff ha.connection).mpr ha
  simp only [lookUp, ha.connection, Option.bind_some, ht]
  rfl

/-! ## What happens on the way -/

/-- The forward of a connection. -/
def forward? (s : AgentServer) (c : Nat) : Option ActiveForward :=
  s.connections[c]?.bind (·.forward)

/-- Changing a connection shows at that connection. -/
theorem getElem?_modifyConnection (s : AgentServer) (n c : Nat)
    (f : AgentConnection → AgentConnection) : (s.modifyConnection n f).connections[c]? =
      if n = c then s.connections[c]?.map f else s.connections[c]? := by
  rw [modifyConnection, List.getElem?_modify]
  split
  · rfl
  · cases s.connections[c]? with
    | none => rfl
    | some conn => rfl

/-- A change that leaves forwards alone, or that is made to another connection. -/
theorem forward?_modifyConnection {f : AgentConnection → AgentConnection}
    (hf : n ≠ c ∨ ∀ conn, (f conn).forward = conn.forward) (s : AgentServer) :
    (s.modifyConnection n f).forward? c = s.forward? c := by
  rw [forward?, getElem?_modifyConnection, forward?]
  split
  · next heq =>
    have hsame := hf.resolve_left (fun hne => hne heq)
    cases s.connections[c]? with
    | none => rfl
    | some conn => simp [hsame]
  · rfl

/-- A change that leaves alone what is on its way, or that is made to another connection. -/
theorem pending?_modifyConnection {f : AgentConnection → AgentConnection}
    (hf : n ≠ c ∨ ∀ conn, (f conn).pending = conn.pending) (s : AgentServer) :
    (s.modifyConnection n f).pending? c = s.pending? c := by
  rw [pending?, getElem?_modifyConnection, pending?]
  split
  · next heq =>
    have hsame := hf.resolve_left (fun hne => hne heq)
    cases s.connections[c]? with
    | none => rfl
    | some conn => simp [hsame]
  · rfl

theorem pending?_endForward (s : AgentServer) (n c : Nat) :
    (s.endForward n).pending? c = s.pending? c := by
  rw [endForward]
  split
  · rfl
  · exact pending?_modifyConnection (.inr fun _ => by rfl) _

theorem forward?_endForward (hn : n ≠ c) (s : AgentServer) :
    (s.endForward n).forward? c = s.forward? c := by
  rw [endForward]
  split
  · rfl
  · exact forward?_modifyConnection (.inl hn) _

/-- A new connection has no forward and no request on its way. -/
theorem getElem?_connect (s : AgentServer) (peer : Option String) (c : Nat) :
    (s.connect peer).2.connections[c]? = s.connections[c]? ∨
    s.connections[c]? = none ∧ (s.connect peer).2.connections[c]? = some { peer } := by
  rcases Nat.lt_trichotomy c s.connections.length with hlt | rfl | hgt
  · exact .inl (List.getElem?_append_left hlt)
  · exact .inr ⟨List.getElem?_eq_none (Nat.le_refl _), List.getElem?_concat_length⟩
  · refine .inl ?_
    rw [List.getElem?_eq_none (Nat.le_of_lt hgt), List.getElem?_eq_none]
    rw [connect, List.length_append]
    exact hgt

/-- An event leaves alone what is on its way on a connection, unless it is the look-up or the
delivery, and the connection's forward, unless it happens on this connection. -/
structure Keeps (s s' : AgentServer) (event : AgentEvent) (c : Nat) : Prop where
  pending : (∀ address port, event ≠ .lookUp c address port) → event ≠ .deliver c →
    s'.pending? c = s.pending? c
  forward : event.connection? ≠ some c → s'.forward? c = s.forward? c

theorem keeps_of_same (hc : s'.connections[c]? = s.connections[c]?) : Keeps s s' event c where
  pending _ _ := by rw [pending?, hc, pending?]
  forward _ := by rw [forward?, hc, forward?]

/-- Ending the forward of a connection, on which the event happens. -/
theorem keeps_endForward {f : AgentConnection → AgentConnection}
    (hp : ∀ conn, (f conn).pending = conn.pending) (he : event.connection? = some n)
    (s : AgentServer) : Keeps s ((s.endForward n).modifyConnection n f) event c where
  pending _ _ := (pending?_modifyConnection (.inr hp) _).trans (pending?_endForward s n c)
  forward hc := by
    have hn : n ≠ c := fun heq => hc (heq ▸ he)
    exact (forward?_modifyConnection (.inl hn) _).trans (forward?_endForward hn s)

/-- What an event leaves alone. -/
theorem step_keeps (s : AgentServer) (event : AgentEvent) (c : Nat) :
    Keeps s (s.step event).1 event c := by
  cases event with
  | register t capacity =>
    rcases s.register_cases t capacity with ⟨_, _, -, hs⟩ | ⟨_, -, hs⟩
    · exact keeps_of_same (by rw [hs])
    · exact keeps_of_same (by rw [hs])
  | deregister | release | closeQueue => exact keeps_of_same rfl
  | takeRequest n =>
    rcases s.takeRequest_cases n with ⟨_, _, _, -, -, hs⟩ | hs
    · exact keeps_of_same (by rw [hs]; rfl)
    · exact keeps_of_same (by rw [hs])
  | connect peer =>
    rcases s.getElem?_connect peer c with heq | ⟨hnone, heq⟩
    · exact keeps_of_same heq
    · simp only [step]
      constructor
      · intro _ _
        rw [pending?, heq, pending?, hnone]
        rfl
      · intro _
        rw [forward?, heq, forward?, hnone]
        rfl
  | authenticate n key =>
    simp only [step]
    rcases s.authenticate_cases n key with ⟨-, hs⟩ | ⟨-, hs⟩
    · exact keeps_of_same (by rw [hs])
    · rw [hs]
      exact ⟨fun _ _ => pending?_modifyConnection (.inr fun _ => by rfl) s,
        fun _ => forward?_modifyConnection (.inr fun _ => by rfl) s⟩
  | lookUp n address port =>
    simp only [step]
    rcases s.lookUp_cases n address port with ⟨_, _, -, -, hs⟩ | ⟨-, hs⟩
    · rw [hs]
      refine ⟨fun hl _ => pending?_modifyConnection (.inl ?_) s,
        fun _ => forward?_modifyConnection (.inr fun _ => by rfl) s⟩
      rintro rfl
      exact hl address port rfl
    · exact keeps_of_same (by rw [hs])
  | deliver n =>
    by_cases hn : n = c
    · exact ⟨fun _ hd => absurd (hn ▸ rfl) hd, fun hc => absurd (congrArg some hn) hc⟩
    · -- both the delivery and the grant change another connection
      refine keeps_of_same ?_
      simp only [step]
      rcases s.deliver_cases n with ⟨_, _, -, -, -, hs⟩ | ⟨_, _, -, -, -, hs⟩ | ⟨-, hs⟩
      · rw [hs, grant, getElem?_modifyConnection, if_neg hn]
        exact (getElem?_modifyConnection s n c _).trans (if_neg hn)
      · rw [hs, arrive, getElem?_modifyConnection, if_neg hn]
      · rw [hs]
  | cancelForward n port =>
    simp only [step]
    rcases s.cancelForward_cases n port with hs | hs
    · rw [hs]
      exact keeps_endForward (fun _ => by rfl) rfl s
    · exact keeps_of_same (by rw [hs])
  | disconnect n => exact keeps_endForward (fun _ => by rfl) rfl s
  | watch r =>
    simp only [step]
    rcases s.watch_cases r with ⟨n, hs⟩ | hs
    · rw [hs]
      exact ⟨fun _ _ => pending?_modifyConnection (.inr fun _ => by rfl) _,
        fun _ => forward?_modifyConnection (.inr fun _ => by rfl) _⟩
    · exact keeps_of_same (by rw [hs])

/-- A request that is on its way: it was admitted when its port was looked up, and nothing has
happened on its connection since. -/
def Sought (h : AgentHistory) (c : Nat) (t : ForwardTarget) : Prop :=
  ∃ since before s port conn entry,
    h = since ++ (.lookUp c t.address port, .answered true) :: before ∧ Run before s ∧
    Admits before s c port conn entry ∧ t = targetFor entry t.address ∧
    ∀ x ∈ since, x.1.connection? ≠ some c

theorem Sought.cons (hs : Sought h c t) {x : AgentEvent × AgentReply}
    (hx : x.1.connection? ≠ some c) : Sought (x :: h) c t := by
  obtain ⟨since, before, s, port, conn, entry, rfl, hrun, ha, ht, hsince⟩ := hs
  exact ⟨x :: since, before, s, port, conn, entry, rfl, hrun, ha, ht,
    List.forall_mem_cons.mpr ⟨hx, hsince⟩⟩

/-- What is on its way on a connection has been looked up; the connection has no forward. -/
def OnItsWay (h : AgentHistory) (s : AgentServer) : Prop :=
  ∀ c t, s.pending? c = some t → s.forward? c = none ∧ Sought h c t

/-- A connection with a request on its way goes on with it before it does anything else. -/
theorem connection?_of_busy (hp : s.pending? c = some t) (ha : s.allows event = true)
    (hd : event ≠ .deliver c) : event.connection? ≠ some c := by
  have hbusy : s.isBusy c = true := by rw [isBusy, hp]; rfl
  intro he
  cases event with
  | authenticate | lookUp | cancelForward | disconnect =>
    cases he
    rw [allows, hbusy] at ha
    cases ha
  | deliver =>
    cases he
    exact hd rfl
  | register | deregister | release | closeQueue | takeRequest | connect | watch => cases he

/-- Nothing is on its way once it has been delivered. -/
theorem pending?_deliver (s : AgentServer) (c : Nat) : (s.deliver c).2.pending? c = none := by
  have harrive : (s.arrive c).pending? c = none := by
    rw [pending?, arrive, getElem?_modifyConnection, if_pos rfl]
    cases s.connections[c]? with
    | none => rfl
    | some conn => rfl
  rcases s.deliver_cases c with ⟨conn, t, -, -, -, hs⟩ | ⟨_, _, -, -, -, hs⟩ | ⟨hnone, hs⟩
  · rw [hs]
    exact (pending?_modifyConnection (.inr fun _ => by rfl) _).trans harrive
  · rw [hs]
    exact harrive
  · rw [hs]
    exact hnone

/-- What a look-up sends on its way. -/
theorem Run.sought_of_lookUp (hr : Run h s) (hidle : s.pending? c = none)
    (hp : (s.lookUp c address port).2.pending? c = some t) :
    (s.lookUp c address port).2.forward? c = none ∧
      Sought ((.lookUp c address port, .answered (s.lookUp c address port).1) :: h) c t := by
  rcases hr.lookUp_cases c address port with ⟨conn, entry, ha, hs⟩ | ⟨-, hs⟩
  · rw [hs] at hp ⊢
    rw [pending?, getElem?_modifyConnection, if_pos rfl, ha.connection] at hp
    cases hp
    refine ⟨?_, [], h, s, port, conn, entry, rfl, hr, ha, rfl, by simp⟩
    rw [forward?_modifyConnection (.inr fun _ => by rfl), forward?, ha.connection]
    exact ha.idle
  · rw [hs] at hp
    cases hidle.symm.trans hp

/-- Whatever is on its way at any moment has been looked up. -/
theorem Run.sought (hr : Run h s) : OnItsWay h s := by
  induction hr with
  | start => exact nofun
  | @next h s event hrun hallows ih =>
    intro c t hp
    by_cases hd : event = .deliver c
    · subst hd
      cases (s.pending?_deliver c).symm.trans hp
    · by_cases hl : ∃ address port, event = .lookUp c address port
      · obtain ⟨address, port, rfl⟩ := hl
        refine hrun.sought_of_lookUp ?_ hp
        -- the connection could not ask with a request on its way
        rw [allows, isBusy, Bool.not_eq_true', Option.isSome_eq_false_iff,
          Option.isNone_iff_eq_none] at hallows
        exact hallows
      · have hkeeps := s.step_keeps event c
        rw [hkeeps.pending (fun address port heq => hl ⟨address, port, heq⟩) hd] at hp
        have hc := connection?_of_busy hp hallows hd
        rw [hkeeps.forward hc]
        exact ⟨(ih c t hp).1, (ih c t hp).2.cons hc⟩

end AgentServer
end SshTunnels
