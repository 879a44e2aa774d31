import SshTunnels.Proofs.Reverse.Delivery
import SshTunnels.Proofs.Reverse.Requests

/-!
# Isolation of agents

Which forwards are granted, and whom their requests reach. The look-up of a port sends a request on
its way exactly if the connection signed in for the tunnel that holds the port at that moment. The
delivery grants it exactly if the queue of the registration that was found is open and has room by
then; the request goes into that queue and nowhere else, even if the registration has been replaced
on the way. So no request reaches a tunnel that did not accept the connection's key (`Run.vouched`),
and an open request is the one forward of its connection (`Run.current`). `step_handling` says once
what an event can do to the requests.
-/

namespace SshTunnels
namespace AgentServer

variable {s s' : AgentServer} {h : AgentHistory} {c n r : Nat} {conn : AgentConnection}
  {key : PublicKey} {peer : Option String} {t : ForwardTarget}

/-! ## Requests and the forwards of connections -/

/-- The request that a connection's forward stands for. -/
def activeRequest (s : AgentServer) (c : Nat) : Option Nat :=
  (s.connections[c]?.bind (·.forward)).map (·.request)

theorem activeRequest_of_forward {f : ActiveForward}
    (hf : s.connections[c]?.bind (·.forward) = some f) : s.activeRequest c = some f.request := by
  rw [activeRequest, hf]
  rfl

/-- A change that leaves forwards alone, or that is made to another connection. -/
theorem activeRequest_modifyConnection {f : AgentConnection → AgentConnection}
    (hf : n ≠ c ∨ ∀ conn, (f conn).forward = conn.forward) (s : AgentServer) :
    (s.modifyConnection n f).activeRequest c = s.activeRequest c := by
  rw [activeRequest, ← forward?, forward?_modifyConnection hf, forward?, ← activeRequest]

/-- An open request is the forward of its connection. -/
def Current (s : AgentServer) : Prop :=
  ∀ r g, s.granted[r]? = some g → g.request.isClosed = false →
    s.activeRequest g.connection = some r

theorem Current.of_same (hs : Current s) (hg : s'.granted = s.granted)
    (ha : ∀ c, s'.activeRequest c = s.activeRequest c) : Current s' := by
  intro r g hr hopen
  rw [ha]
  exact hs r g (hg ▸ hr) hopen

/-- What a request has become once one was closed. -/
theorem getElem?_closeRequest {g : GrantedForward} {m : Nat}
    (hr : (s.closeRequest m).granted[r]? = some g) : ∃ old, s.granted[r]? = some old ∧
      (r ≠ m ∧ g = old ∨ g = { old with request := old.request.close }) := by
  rw [closeRequest, List.getElem?_modify, Option.map_eq_map, Option.map_eq_some_iff] at hr
  obtain ⟨old, hold, heq⟩ := hr
  refine ⟨old, hold, ?_⟩
  split at heq
  · exact .inr heq.symm
  · next hne => exact .inl ⟨Ne.symm hne, heq.symm⟩

/-- A request that is open once one was closed is another one. -/
theorem getElem?_closeRequest_of_open {g : GrantedForward} {m : Nat}
    (hr : (s.closeRequest m).granted[r]? = some g) (hopen : g.request.isClosed = false) :
    r ≠ m ∧ s.granted[r]? = some g := by
  obtain ⟨old, hold, ⟨hne, rfl⟩ | rfl⟩ := getElem?_closeRequest hr
  · exact ⟨hne, hold⟩
  · cases hopen

theorem Current.closeRequest (hs : Current s) (m : Nat) : Current (s.closeRequest m) := by
  intro r g hr hopen
  exact hs r g (getElem?_closeRequest_of_open hr hopen).2 hopen

/-- When the forward of a connection ends, its request is closed. -/
theorem Current.endForward (hs : Current s) (c : Nat) : Current (s.endForward c) := by
  rw [AgentServer.endForward]
  split
  · exact hs
  · next f hf =>
    intro r g hr hopen
    obtain ⟨hne, hold⟩ := getElem?_closeRequest_of_open hr hopen
    have hactive := hs r g hold hopen
    -- the request of this forward is the one that is closed
    have hc : c ≠ g.connection := by
      rintro rfl
      rw [activeRequest_of_forward hf] at hactive
      exact hne (Option.some.inj hactive).symm
    rw [activeRequest_modifyConnection (.inl hc)]
    exact hactive

theorem getElem?_grant {g : GrantedForward} (hr : (s.grant c peer t).granted[r]? = some g) :
    s.granted[r]? = some g ∨ s.granted.length = r ∧ g =
      ⟨⟨t.tunnel.id, t.address, t.tunnel.port, peer, false⟩, c, t.registration⟩ := by
  rcases getElem?_concat_cases hr with ⟨-, hold⟩ | ⟨rfl, hnew⟩
  · exact .inl hold
  · exact .inr ⟨rfl, hnew⟩

theorem activeRequest_grant (hc : s.connections[c]? = some conn) :
    (s.grant c peer t).activeRequest c = some s.granted.length := by
  rw [activeRequest, grant, getElem?_modifyConnection, if_pos rfl]
  simp [modifyQueue, hc]

theorem Current.grant (hs : Current s) (hc : s.connections[c]? = some conn)
    (hidle : s.forward? c = none) : Current (s.grant c peer t) := by
  intro r g hr hopen
  rcases getElem?_grant hr with hold | ⟨rfl, rfl⟩
  · have hactive := hs r g hold hopen
    -- the connection had no forward, so an open request is not one of its own
    have hne : c ≠ g.connection := by
      rintro rfl
      rw [activeRequest, ← forward?, hidle] at hactive
      cases hactive
    rw [AgentServer.grant, activeRequest_modifyConnection (.inl hne)]
    exact hactive
  · exact activeRequest_grant hc

theorem activeRequest_arrive (s : AgentServer) (n c : Nat) :
    (s.arrive n).activeRequest c = s.activeRequest c :=
  activeRequest_modifyConnection (.inr fun _ => by rfl) s

/-- What an event makes of the granted requests and of the forwards of connections. -/
inductive Handling (s s' : AgentServer) : AgentEvent × AgentReply → Prop where
  /-- A request that was on its way is granted. -/
  | granted {c : Nat} {conn : AgentConnection} {t : ForwardTarget} :
      s.connections[c]? = some conn → conn.pending = some t →
      s' = (s.arrive c).grant c conn.peer t → Handling s s' (.deliver c, .answered true)
  /-- The forward of a connection ends. -/
  | ended {x : AgentEvent × AgentReply} (c : Nat) :
      s'.granted = (s.endForward c).granted →
      (∀ n, s'.activeRequest n = (s.endForward c).activeRequest n) → Handling s s' x
  /-- A request is closed. -/
  | closed {x : AgentEvent × AgentReply} (r : Nat) :
      s'.granted = (s.closeRequest r).granted →
      (∀ n, s'.activeRequest n = s.activeRequest n) → Handling s s' x
  /-- Nothing happens to them. -/
  | still {x : AgentEvent × AgentReply} :
      s'.granted = s.granted → (∀ n, s'.activeRequest n = s.activeRequest n) → Handling s s' x

/-- A new connection has no forward. -/
theorem activeRequest_connect (s : AgentServer) (peer : Option String) (n : Nat) :
    (s.connect peer).2.activeRequest n = s.activeRequest n := by
  rw [activeRequest, activeRequest]
  rcases s.getElem?_connect peer n with heq | ⟨hnone, heq⟩
  · rw [heq]
  · rw [heq, hnone]
    rfl

/-- What an event makes of the granted requests is one of these. -/
theorem step_handling (s : AgentServer) (event : AgentEvent) :
    Handling s (s.step event).1 (event, (s.step event).2) := by
  cases event with
  | register t capacity =>
    rcases s.register_cases t capacity with ⟨_, _, -, hs⟩ | ⟨_, -, hs⟩
    · rw [hs]
      exact .still rfl fun _ => rfl
    · rw [hs]
      exact .still rfl fun _ => rfl
  | deregister id => exact .still rfl fun _ => rfl
  | release g => exact .still rfl fun _ => rfl
  | closeQueue n => exact .still rfl fun _ => rfl
  | takeRequest n =>
    rcases s.takeRequest_cases n with ⟨_, _, _, -, -, hs⟩ | hs
    · rw [hs]
      exact .still rfl fun _ => rfl
    · rw [hs]
      exact .still rfl fun _ => rfl
  | connect peer => exact .still rfl (s.activeRequest_connect peer)
  | authenticate c key =>
    simp only [step]
    rcases s.authenticate_cases c key with ⟨-, hs⟩ | ⟨-, hs⟩
    · rw [hs]
      exact .still rfl fun _ => rfl
    · rw [hs]
      exact .still rfl fun _ => activeRequest_modifyConnection (.inr fun _ => by rfl) s
  | lookUp c address port =>
    simp only [step]
    rcases s.lookUp_cases c address port with ⟨_, _, -, -, hs⟩ | ⟨-, hs⟩
    · rw [hs]
      exact .still rfl fun _ => activeRequest_modifyConnection (.inr fun _ => by rfl) s
    · rw [hs]
      exact .still rfl fun _ => rfl
  | deliver c =>
    simp only [step]
    rcases s.deliver_cases c with ⟨conn, t, hc, hp, -, hs⟩ | ⟨_, _, -, -, -, hs⟩ | ⟨-, hs⟩
    · rw [hs]
      exact .granted hc hp rfl
    · rw [hs]
      exact .still rfl (s.activeRequest_arrive c)
    · rw [hs]
      exact .still rfl fun _ => rfl
  | cancelForward c port =>
    simp only [step]
    rcases s.cancelForward_cases c port with hs | hs
    · rw [hs]
      exact .ended c rfl fun _ => activeRequest_modifyConnection (.inr fun _ => by rfl) _
    · rw [hs]
      exact .still rfl fun _ => rfl
  | disconnect c =>
    exact .ended c rfl fun _ => activeRequest_modifyConnection (.inr fun _ => by rfl) _
  | watch r =>
    simp only [step]
    rcases s.watch_cases r with ⟨c, hs⟩ | hs
    · rw [hs]
      exact .closed r rfl fun _ => activeRequest_modifyConnection (.inr fun _ => by rfl) _
    · rw [hs]
      exact .still rfl fun _ => rfl

theorem getElem?_arrive (hc : s.connections[c]? = some conn) :
    (s.arrive c).connections[c]? = some { conn with pending := none } := by
  rw [arrive, getElem?_modifyConnection, if_pos rfl, hc, Option.map_some]

theorem pending?_of_getElem? (hc : s.connections[c]? = some conn) (hp : conn.pending = some t) :
    s.pending? c = some t := by
  rw [pending?, hc, Option.bind_some, hp]

theorem Run.current (hr : Run h s) : Current s := by
  induction hr with
  | start => exact nofun
  | @next h s event hrun _ ih =>
    have hh := s.step_handling event
    generalize (event, (s.step event).2) = x, (s.step event).1 = s' at hh
    cases hh with
    | @granted c conn t hc hp heq =>
      have hidle := (hrun.sought c t (pending?_of_getElem? hc hp)).1
      rw [heq]
      refine Current.grant (ih.of_same rfl (s.activeRequest_arrive c)) (getElem?_arrive hc) ?_
      rw [arrive, forward?_modifyConnection (.inr fun _ => by rfl)]
      exact hidle
    | ended c hg ha => exact (ih.endForward c).of_same hg ha
    | closed r hg ha => exact (ih.closeRequest r).of_same hg ha
    | still hg ha => exact ih.of_same hg ha

/-! ## Whom requests reach -/

/-- Every entry was registered. -/
theorem Run.registered (hr : Run h s) : ∀ e ∈ s.registry.entries,
    ∃ capacity, (.register e.tunnel capacity, .registered e.registration) ∈ h := by
  induction hr with
  | start => exact nofun
  | @next h s event _ _ ih =>
    have he := step_effect s event
    generalize (s.step event).1 = s', (s.step event).2 = reply at he
    have hold : ∀ e ∈ s.registry.entries,
        ∃ capacity, (.register e.tunnel capacity, .registered e.registration) ∈
          (event, reply) :: h := by
      intro e hmem
      obtain ⟨capacity, hin⟩ := ih e hmem
      exact ⟨capacity, List.mem_cons_of_mem _ hin⟩
    cases he with
    | @registered t capacity g hreg _ =>
      obtain ⟨-, rfl, hs'⟩ := Registry.register_ok hreg
      rw [hs']
      intro e hmem
      rcases Registry.mem_enroll.mp hmem with ⟨hmem, -⟩ | rfl
      · exact hold e hmem
      · exact ⟨capacity, List.mem_cons_self⟩
    | connected hreg _ => exact hreg ▸ hold
    | signedIn hreg _ _ => exact hreg ▸ hold
    | thinned _ hsub _ => exact fun e hmem => hold e (hsub.subset hmem)

/-- The tunnel that a request was granted for accepted the key that the request's connection was
let in with: it was among the tunnels that the connection was answered to have signed in for, and it
was registered then with a key that is the same. The registration that got the request was one of
this tunnel, on the port that was asked for, when the port was looked up; between the look-up and
the delivery nothing happened on the connection. -/
def Vouched (h : AgentHistory) (g : GrantedForward) : Prop :=
  ∃ since between before key tunnels t capacity,
    h = since ++ (.deliver g.connection, .answered true) :: between ++
      (.lookUp g.connection g.request.bindAddress g.request.bindPort.toNat, .answered true) ::
        before ∧
    (∀ x ∈ between, x.1.connection? ≠ some g.connection) ∧
    SignedIn g.connection key tunnels before ∧
    ⟨g.request.tunnel, g.request.bindPort⟩ ∈ tunnels ∧
    Accepted g.connection key ⟨g.request.tunnel, g.request.bindPort⟩ before ∧
    (.register t capacity, .registered ⟨g.request.tunnel, g.registration⟩) ∈ before ∧
    t.id = g.request.tunnel ∧ t.port = g.request.bindPort

theorem Vouched.cons {g : GrantedForward} (hv : Vouched h g) (x : AgentEvent × AgentReply) :
    Vouched (x :: h) g := by
  obtain ⟨since, between, before, key, tunnels, t, capacity, rfl, hrest⟩ := hv
  exact ⟨x :: since, between, before, key, tunnels, t, capacity, rfl, hrest⟩

/-- Closing requests does not change whom they reach. -/
theorem vouched_closeRequest (hv : ∀ g ∈ s.granted, Vouched h g) (m : Nat) :
    ∀ g ∈ (s.closeRequest m).granted, Vouched h g := by
  intro g hg
  obtain ⟨r, hr⟩ := List.mem_iff_getElem?.mp hg
  obtain ⟨old, hold, ⟨-, rfl⟩ | rfl⟩ := getElem?_closeRequest hr
  · exact hv g (List.mem_of_getElem? hold)
  · exact hv old (List.mem_of_getElem? hold)

/-- A request that is granted is vouched for. -/
theorem vouched_of_sought (hs : Sought h c t) (peer : Option String) :
    Vouched ((.deliver c, .answered true) :: h)
      ⟨⟨t.tunnel.id, t.address, t.tunnel.port, peer, false⟩, c, t.registration⟩ := by
  obtain ⟨between, before, s, port, conn, entry, rfl, hrun, ha, ht, hbetween⟩ := hs
  obtain ⟨key, tunnels, hsigned, hmem⟩ := ha.signedIn
  obtain ⟨hheld, hport⟩ := Registry.holder?_eq_some ha.holder
  obtain ⟨capacity, hregistered⟩ := hrun.registered entry hheld
  have htunnel : t.tunnel = ⟨entry.tunnel.id, .ofNat port⟩ := by
    rw [ht, ← hport]
    rfl
  have hregistration : t.registration = entry.serial := by
    rw [ht]
    rfl
  have hasked : t.tunnel.port.toNat = port := by
    rw [htunnel]
    exact UInt16.toNat_ofNat_of_lt' ha.inRange
  refine ⟨[], between, before, key, tunnels, entry.tunnel, capacity, ?_, hbetween, hsigned, ?_, ?_,
    ?_, ?_, ?_⟩
  · rw [hasked]
    rfl
  · exact htunnel ▸ hmem
  · exact hsigned.accepted (htunnel ▸ hmem)
  · rw [htunnel, hregistration]
    exact hregistered
  · rw [htunnel]
  · rw [htunnel]
    exact hport

/-- No request reaches a tunnel that did not accept the key of the request's connection. -/
theorem Run.vouched (hr : Run h s) : ∀ g ∈ s.granted, Vouched h g := by
  induction hr with
  | start => exact nofun
  | @next h s event hrun _ ih =>
    have hh := s.step_handling event
    have hold : ∀ g ∈ s.granted, Vouched ((event, (s.step event).2) :: h) g :=
      fun g hg => (ih g hg).cons _
    generalize (event, (s.step event).2) = x at hh hold ⊢
    generalize (s.step event).1 = s' at hh
    cases hh with
    | @granted c conn t hc hp heq =>
      rw [heq]
      intro g hg
      rcases List.mem_append.mp hg with hmem | hnew
      · exact hold g hmem
      · rw [List.mem_singleton.mp hnew]
        exact vouched_of_sought (hrun.sought c t (pending?_of_getElem? hc hp)).2 conn.peer
    | ended c hg _ =>
      rw [hg, AgentServer.endForward]
      split
      · exact hold
      · exact vouched_closeRequest hold _
    | closed r hg _ =>
      rw [hg]
      exact vouched_closeRequest hold r
    | still hg _ =>
      rw [hg]
      exact hold

/-! ## What is granted, and what a grant does -/

/-- The queue of a registration is there, and takes one more request. -/
structure Takes (s : AgentServer) (registration : Nat) (queue : RequestQueue) : Prop where
  queued : s.queue? registration = some queue
  isOpen : queue.isOpen = true
  hasRoom : queue.waiting.length < queue.capacity

theorem takes_iff {registration : Nat} :
    s.hasRoom registration = true ↔ ∃ queue, Takes s registration queue := by
  rw [hasRoom_iff]
  constructor
  · rintro ⟨queue, hqueue, hopen, hroom⟩
    exact ⟨queue, hqueue, hopen, hroom⟩
  · rintro ⟨queue, hqueue, hopen, hroom⟩
    exact ⟨queue, hqueue, hopen, hroom⟩

/-- What the delivery of a request that is granted makes of the server: one more request, which
waits in the queue that it was on its way to and is the only open one of its connection. -/
structure Grants (s s' : AgentServer) (c : Nat) (conn : AgentConnection) (t : ForwardTarget)
    (queue : RequestQueue) : Prop where
  registry : s'.registry = s.registry
  granted : s'.granted = s.granted ++
    [⟨⟨t.tunnel.id, t.address, t.tunnel.port, conn.peer, false⟩, c, t.registration⟩]
  queued : s'.queue? t.registration =
    some { queue with waiting := queue.waiting ++ [s.granted.length] }
  queues : ∀ n, n ≠ t.registration → s'.queue? n = s.queue? n
  active : s'.connections[c]? = some { conn with
    pending := none, forward := some ⟨t.tunnel, s.granted.length⟩ }
  others : ∀ n, n ≠ c → s'.connections[n]? = s.connections[n]?
  only : ∀ r g, s'.granted[r]? = some g → g.connection = c → g.request.isClosed = false →
    r = s.granted.length

/-- A request that is on its way is granted exactly if its queue takes it. -/
theorem deliver_granted_iff (hp : s.pending? c = some t) :
    (s.deliver c).1 = true ↔ ∃ queue, Takes s t.registration queue := by
  have hown : ∀ {conn t'}, s.connections[c]? = some conn → conn.pending = some t' → t' = t :=
    fun hc hp' => Option.some.inj ((pending?_of_getElem? hc hp').symm.trans hp)
  rw [← takes_iff]
  rcases s.deliver_cases c with ⟨conn, t', hc, hp', hroom, hs⟩ | ⟨conn, t', hc, hp', hroom, hs⟩ |
    ⟨hnone, -⟩
  · rw [hs, ← hown hc hp', hroom]
  · rw [hs, ← hown hc hp', hroom]
  · cases hnone.symm.trans hp

theorem Run.grants (hr : Run h s) {queue : RequestQueue} (hc : s.connections[c]? = some conn)
    (hp : conn.pending = some t) (hq : Takes s t.registration queue) :
    Grants s (s.deliver c).2 c conn t queue := by
  have hpending := pending?_of_getElem? hc hp
  have hs : s.deliver c = (true, (s.arrive c).grant c conn.peer t) := by
    have hroom := takes_iff.mpr ⟨queue, hq⟩
    simp only [deliver, hc, hp]
    exact if_pos hroom
  have hqueues : ∀ n, ((s.arrive c).grant c conn.peer t).queue? n = if n = t.registration then
      (s.queue? n).map fun q => { q with waiting := q.waiting ++ [s.granted.length] }
      else s.queue? n :=
    queue?_modifyQueue (fun _ => by rfl) { s with granted := _ } t.registration
  have hconnections : ∀ n, ((s.arrive c).grant c conn.peer t).connections[n]? = if c = n then
      (s.arrive c).connections[n]?.map fun conn => { conn with
        forward := some ⟨t.tunnel, s.granted.length⟩ }
      else (s.arrive c).connections[n]? :=
    fun n => getElem?_modifyConnection _ c n _
  rw [hs]
  refine ⟨rfl, rfl, ?_, fun n hn => ?_, ?_, fun n hn => ?_, ?_⟩
  · rw [hqueues, if_pos rfl, hq.queued, Option.map_some]
  · rw [hqueues, if_neg hn]
  · rw [hconnections, if_pos rfl, getElem?_arrive hc, Option.map_some]
  · rw [hconnections, if_neg (Ne.symm hn), arrive, getElem?_modifyConnection,
      if_neg (Ne.symm hn)]
  · have hcurrent : Current ((s.arrive c).grant c conn.peer t) := by
      refine Current.grant (hr.current.of_same rfl (s.activeRequest_arrive c))
        (getElem?_arrive hc) ?_
      rw [arrive, forward?_modifyConnection (.inr fun _ => by rfl)]
      exact (hr.sought c t hpending).1
    intro r g hg hconnection hopen
    have hactive := hcurrent r g hg hopen
    rw [hconnection, activeRequest_grant (getElem?_arrive hc)] at hactive
    exact (Option.some.inj hactive).symm

/-- With nothing between look-up and delivery, a forward is granted exactly if the request is
admitted and the queue of the tunnel that holds the port takes it. -/
theorem Run.forward_granted_iff (hr : Run h s) (c : Nat) (address : String) (port : Nat) :
    (s.forward c address port).1 = true ↔
      ∃ conn entry queue, Admits h s c port conn entry ∧ Takes s entry.serial queue := by
  rcases hr.lookUp_cases c address port with ⟨conn, entry, ha, hs⟩ | ⟨hnone, hs⟩
  · -- after the look-up the request is on its way, and the queues are as they were
    have hsame : ∀ entry', Admits h s c port conn entry' → entry' = entry := fun _ ha' =>
      Option.some.inj (ha'.holder.symm.trans ha.holder)
    have hp : (s.lookUp c address port).2.pending? c = some (targetFor entry address) := by
      rw [hs, pending?, getElem?_modifyConnection, if_pos rfl, ha.connection]
      rfl
    have hdeliver := deliver_granted_iff hp
    rw [hs] at hdeliver
    rw [forward, hs]
    rw [hdeliver]
    constructor
    · rintro ⟨queue, hq⟩
      exact ⟨conn, entry, queue, ha, hq.queued, hq.isOpen, hq.hasRoom⟩
    · rintro ⟨conn', entry', queue, ha', hq⟩
      cases ha.connection.symm.trans ha'.connection
      cases hsame entry' ha'
      exact ⟨queue, hq.queued, hq.isOpen, hq.hasRoom⟩
  · rw [forward, hs]
    refine iff_of_false Bool.false_ne_true ?_
    rintro ⟨conn, entry, _, ha, -⟩
    exact hnone ⟨conn, entry, ha⟩

/-- A key that is refused changes nothing. -/
theorem authenticate_refused (h : (s.authenticate c key).1 = false) :
    (s.authenticate c key).2 = s := by
  rcases s.authenticate_cases c key with ⟨-, hs⟩ | ⟨-, hs⟩
  · rw [hs]
  · rw [hs] at h
    cases h

/-- How the server keeps its agents apart. -/
structure Isolated (h : AgentHistory) (s : AgentServer) : Prop where
  /-- A look-up finds a registration exactly if the request is admitted: the connection has no
  forward, the port is in range, the key that the connection was let in with last let it forward
  for a tunnel with this port, and this tunnel holds the port. -/
  found : ∀ c address port, (s.lookUp c address port).1 = true ↔
    ∃ conn entry, Admits h s c port conn entry
  /-- The request is on its way to the registration of the tunnel that holds the port, and nothing
  else has changed. -/
  keeps : ∀ c address port conn entry, Admits h s c port conn entry →
    (s.lookUp c address port).2 = s.modifyConnection c fun conn =>
      { conn with pending := some (targetFor entry address) }
  /-- A look-up that finds nothing changes nothing. -/
  missed : ∀ c address port, (s.lookUp c address port).1 = false →
    (s.lookUp c address port).2 = s
  /-- A delivery grants a request exactly if it is on its way, so that it was admitted when its port
  was looked up, and the queue of the registration that was found is open and not full now. -/
  granted : ∀ c, (s.deliver c).1 = true ↔ ∃ t queue, s.pending? c = some t ∧ Sought h c t ∧
    Takes s t.registration queue
  /-- A grant puts one request into that queue, and does nothing else. -/
  grants : ∀ c conn t queue, s.connections[c]? = some conn → conn.pending = some t →
    Takes s t.registration queue → Grants s (s.deliver c).2 c conn t queue
  /-- A request that is not granted is on its way no more, and nothing else has changed. -/
  refused : ∀ c t, s.pending? c = some t → (s.deliver c).1 = false →
    (s.deliver c).2 = s.modifyConnection c fun conn => { conn with pending := none }
  /-- With nothing in between, all this is so at one moment. -/
  atOnce : ∀ c address port, (s.forward c address port).1 = true ↔
    ∃ conn entry queue, Admits h s c port conn entry ∧ Takes s entry.serial queue
  /-- A key that is refused changes nothing. -/
  rejected : ∀ c key, (s.authenticate c key).1 = false → (s.authenticate c key).2 = s
  /-- Every request was granted for a tunnel that had accepted its connection's key. -/
  vouched : ∀ n, ∀ r ∈ s.grantedFor n,
    ∃ g, s.granted[r]? = some g ∧ g.registration = n ∧ Vouched h g
  /-- Every tunnel gets its requests in the order of the grants, each once, and none is lost unless
  the tunnel drops its queue. -/
  delivered : ∀ n queue, s.queue? n = some queue → ∃ dropped,
    s.grantedFor n = taken n h ++ queue.waiting ++ dropped ∧ (queue.isOpen = true → dropped = [])

/-- Agents are kept apart, whatever has happened at the server. -/
theorem isolated_of_run (hr : Run h s) : Isolated h s where
  found := hr.lookUp_found_iff
  keeps _ address _ _ _ ha := congrArg Prod.snd (hr.lookUp_of_admits ha address)
  missed c address port hmissed := by
    rcases hr.lookUp_cases c address port with ⟨_, _, -, hs⟩ | ⟨-, hs⟩
    · rw [hs] at hmissed
      cases hmissed
    · rw [hs]
  granted c := by
    constructor
    · intro hg
      rcases s.deliver_cases c with ⟨conn, t, hc, hp, hroom, -⟩ | ⟨_, _, -, -, -, hs⟩ | ⟨-, hs⟩
      · have hpending := pending?_of_getElem? hc hp
        obtain ⟨queue, hq⟩ := takes_iff.mp hroom
        exact ⟨t, queue, hpending, (hr.sought c t hpending).2, hq⟩
      · rw [hs] at hg
        cases hg
      · rw [hs] at hg
        cases hg
    · rintro ⟨t, queue, hpending, -, hq⟩
      exact (deliver_granted_iff hpending).mpr ⟨queue, hq⟩
  grants _ _ _ _ hc hp hq := hr.grants hc hp hq
  refused c t hpending hrefused := by
    rcases s.deliver_cases c with ⟨_, _, -, -, -, hs⟩ | ⟨_, _, -, -, -, hs⟩ | ⟨hnone, -⟩
    · rw [hs] at hrefused
      cases hrefused
    · rw [hs]
      rfl
    · cases hnone.symm.trans hpending
  atOnce := hr.forward_granted_iff
  rejected _ _ := authenticate_refused
  vouched n r hmem := by
    obtain ⟨g, hg, hn⟩ := mem_grantedFor.mp hmem
    exact ⟨g, hg, hn, hr.vouched g (List.mem_of_getElem? hg)⟩
  delivered := hr.delivered.line

/-- Two agents sign in for a tunnel each. The first is refused the other's port and granted its own,
and its tunnel takes the request. While the request of the second is on its way its tunnel is taken
out and a third tunnel gets the port; the request is granted all the same, and waits in the queue
that it was on its way to. -/
theorem two_agents_apart :
    ∃ h s, Run h s ∧ Isolated h s ∧ (.lookUp 0 "127.0.0.1" 4001, .answered false) ∈ h ∧
      s.grantedFor 0 = [0] ∧ taken 0 h = [0] ∧ s.grantedFor 1 = [1] ∧ taken 1 h = [] ∧
      s.queue? 1 = some ⟨1, 8, [1], true⟩ ∧ (s.registry.holder? 4001).map (·.serial) = some 2 := by
  let first : PublicKey := ⟨.ed25519 (List.replicate 32 1), "first"⟩
  let second : PublicKey := ⟨.ed25519 (List.replicate 32 2), "second"⟩
  have h₁ := Run.start.next (.register ⟨default, 4000, [first]⟩ 8) rfl
  have h₂ := (h₁.next (.register ⟨.ofNat 1, 4001, [second]⟩ 8) rfl).next (.connect none) rfl
  have h₃ := (h₂.next (.connect none) rfl).next (.authenticate 0 first) (by decide +kernel)
  have h₄ := h₃.next (.authenticate 1 second) (by decide +kernel)
  have h₅ := h₄.next (.lookUp 0 "127.0.0.1" 4001) (by decide +kernel)
  have h₆ := h₅.next (.lookUp 0 "127.0.0.1" 4000) (by decide +kernel)
  have h₇ := h₆.next (.lookUp 1 "127.0.0.1" 4001) (by decide +kernel)
  have h₈ := (h₇.next (.deliver 0) (by decide +kernel)).next (.takeRequest 0) rfl
  have h₉ := (h₈.next (.deregister (.ofNat 1)) rfl).next (.register ⟨.ofNat 2, 4001, []⟩ 8) rfl
  have h := h₉.next (.deliver 1) (by decide +kernel)
  refine ⟨_, _, h, isolated_of_run h, ?_, ?_, ?_, ?_, ?_, ?_, ?_⟩
  · decide +kernel
  · decide +kernel
  · decide +kernel
  · decide +kernel
  · decide +kernel
  · decide +kernel
  · decide +kernel

end AgentServer
end SshTunnels
