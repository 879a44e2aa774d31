import SshTunnels.Proofs.Reverse.Exchange
import SshTunnels.Proofs.Reverse.Registrations

/-!
# Delivery of requests

A granted request goes into the queue of the registration that it was granted for, and the tunnel of
that registration takes requests out of its queue until it drops the queue. `step_traffic` says once
what an event can do to the queues. By it, what a tunnel has taken, what waits for it and what it
dropped with its queue are together what was granted for it, in the order of the grants
(`Run.delivered`).
-/

namespace SshTunnels
namespace AgentServer

variable {s s' : AgentServer} {h : AgentHistory} {n : Nat}

/-! ## Queues -/

/-- Changing the queue of a registration shows at that registration. -/
theorem queue?_modifyQueue {f : RequestQueue → RequestQueue}
    (hf : ∀ q, (f q).registration = q.registration) (s : AgentServer) (n m : Nat) :
    (s.modifyQueue n f).queue? m = if m = n then (s.queue? m).map f else s.queue? m := by
  have hcongr :
      (fun q : RequestQueue => (if q.registration == n then f q else q).registration == m) =
        fun q => q.registration == m := by
    funext q
    split
    · rw [hf]
    · rfl
  rw [queue?, modifyQueue, List.find?_map, Function.comp_def, hcongr, ← queue?]
  cases hq : s.queue? m with
  | none => simp
  | some q =>
    unfold queue? at hq
    have hm : q.registration = m := by simpa using List.find?_some hq
    by_cases h : m = n
    · simp [h, hm]
    · simp [h, hm]

/-- The registration that each granted request was granted for. -/
def routes (s : AgentServer) : List Nat :=
  s.granted.map (·.registration)

/-- The requests that were granted for a registration, in the order of the grants. -/
def grantedFor (s : AgentServer) (n : Nat) : List Nat :=
  (List.range s.routes.length).filter fun r => s.routes[r]? == some n

theorem grantedFor_congr (h : s'.routes = s.routes) (n : Nat) :
    s'.grantedFor n = s.grantedFor n := by
  rw [grantedFor, h, grantedFor]

/-- One more grant is the last request for its registration, and for no other. -/
theorem grantedFor_concat {m : Nat} (h : s'.routes = s.routes ++ [m]) (n : Nat) :
    s'.grantedFor n = s.grantedFor n ++ if m = n then [s.routes.length] else [] := by
  rw [grantedFor, h, List.length_append, List.length_singleton, List.range_succ,
    List.filter_append, grantedFor]
  congr 1
  · refine List.filter_congr fun r hr => ?_
    rw [List.getElem?_append_left (List.mem_range.mp hr)]
  · rw [List.filter_cons, List.getElem?_concat_length, List.filter_nil]
    by_cases hm : m = n
    · simp [hm]
    · simp [hm]

theorem mem_grantedFor {r : Nat} :
    r ∈ s.grantedFor n ↔ ∃ g, s.granted[r]? = some g ∧ g.registration = n := by
  simp only [grantedFor, routes, List.mem_filter, List.mem_range, beq_iff_eq, List.getElem?_map,
    Option.map_eq_some_iff, List.length_map, and_iff_right_iff_imp]
  rintro ⟨g, hg, -⟩
  exact (List.getElem?_eq_some_iff.mp hg).1

/-- The requests that the tunnel of a registration has taken, in order. -/
def taken (n : Nat) : AgentHistory → List Nat
  | [] => []
  | (.takeRequest m, .taken (some r)) :: h => if m = n then taken n h ++ [r] else taken n h
  | _ :: h => taken n h

/-! ## What an event makes of the queues -/

/-- The reply gives a tunnel a request. -/
def isTaking : AgentReply → Bool
  | .taken (some _) => true
  | _ => false

theorem taken_cons {reply : AgentReply} (hr : isTaking reply = false) (n : Nat)
    (event : AgentEvent) (h : AgentHistory) : taken n ((event, reply) :: h) = taken n h := by
  rw [taken]
  rintro m r ⟨⟩
  cases hr

/-- What an event makes of the queues, and of where requests were granted for. -/
inductive Traffic (s s' : AgentServer) : AgentEvent → AgentReply → Prop where
  /-- A registration opens its queue. -/
  | opened {t : RegisteredTunnel} {capacity : Nat} {g : Registration} :
      s'.registry.nextSerial = s.registry.nextSerial + 1 → s'.routes = s.routes →
      s'.queues = s.queues ++ [⟨s.registry.nextSerial, max 1 capacity, [], true⟩] →
      Traffic s s' (.register t capacity) (.registered g)
  /-- A tunnel drops its queue. -/
  | closed {n : Nat} :
      s'.registry = s.registry → s'.routes = s.routes →
      s'.queues = (s.modifyQueue n fun q => { q with waiting := [], isOpen := false }).queues →
      Traffic s s' (.closeQueue n) .done
  /-- A tunnel takes the request that has waited longest. -/
  | took {n r : Nat} {queue : RequestQueue} {rest : List Nat} :
      s'.registry = s.registry → s'.routes = s.routes → s.queue? n = some queue →
      queue.waiting = r :: rest →
      s'.queues = (s.modifyQueue n fun q => { q with waiting := rest }).queues →
      Traffic s s' (.takeRequest n) (.taken (some r))
  /-- A request is granted, and waits behind the others. -/
  | granted {c n : Nat} {queue : RequestQueue} :
      s'.registry = s.registry → s'.routes = s.routes ++ [n] → s.queue? n = some queue →
      queue.isOpen = true →
      s'.queues = (s.modifyQueue n fun q =>
        { q with waiting := q.waiting ++ [s.routes.length] }).queues →
      Traffic s s' (.deliver c) (.answered true)
  /-- Nothing happens to the queues. -/
  | still {event : AgentEvent} {reply : AgentReply} :
      isTaking reply = false → s'.registry.nextSerial = s.registry.nextSerial →
      s'.routes = s.routes → s'.queues = s.queues → Traffic s s' event reply

theorem routes_closeRequest (s : AgentServer) (r : Nat) : (s.closeRequest r).routes = s.routes :=
  (map_modify (fun _ => by rfl) s.granted r).trans (List.modify_id r _)

theorem routes_endForward (s : AgentServer) (c : Nat) : (s.endForward c).routes = s.routes := by
  rw [endForward]
  split
  · rfl
  · exact routes_closeRequest s _

theorem queues_endForward (s : AgentServer) (c : Nat) : (s.endForward c).queues = s.queues := by
  rw [endForward]
  split <;> rfl

/-- A queue that has room is open. -/
theorem hasRoom_iff {registration : Nat} : s.hasRoom registration = true ↔ ∃ queue,
    s.queue? registration = some queue ∧ queue.isOpen = true ∧
      queue.waiting.length < queue.capacity := by
  simp [hasRoom, Option.any_eq_true]

/-- What an event makes of the queues is one of these. -/
theorem step_traffic (s : AgentServer) (event : AgentEvent) :
    Traffic s (s.step event).1 event (s.step event).2 := by
  cases event with
  | register t capacity =>
    rcases s.register_cases t capacity with ⟨g, registry, hr, hs⟩ | ⟨e, -, hs⟩
    · obtain ⟨-, rfl, rfl⟩ := Registry.register_ok hr
      rw [hs]
      exact .opened rfl rfl rfl
    · rw [hs]
      exact .still rfl rfl rfl rfl
  | deregister id => exact .still rfl rfl rfl rfl
  | release g => exact .still rfl rfl rfl rfl
  | closeQueue n => exact .closed rfl rfl rfl
  | takeRequest n =>
    rcases s.takeRequest_cases n with ⟨queue, r, rest, hqueue, hwaiting, hs⟩ | hs
    · rw [hs]
      exact .took rfl rfl hqueue hwaiting rfl
    · rw [hs]
      exact .still rfl rfl rfl rfl
  | connect peer => exact .still rfl rfl rfl rfl
  | authenticate c key =>
    simp only [step]
    rcases s.authenticate_cases c key with ⟨-, hs⟩ | ⟨-, hs⟩
    · rw [hs]
      exact .still rfl rfl rfl rfl
    · rw [hs]
      exact .still rfl rfl rfl rfl
  | lookUp c address port =>
    simp only [step]
    rcases s.lookUp_cases c address port with ⟨_, _, -, -, hs⟩ | ⟨-, hs⟩
    · rw [hs]
      exact .still rfl rfl rfl rfl
    · rw [hs]
      exact .still rfl rfl rfl rfl
  | deliver c =>
    simp only [step]
    rcases s.deliver_cases c with ⟨conn, t, -, -, hroom, hs⟩ | ⟨_, _, -, -, -, hs⟩ | ⟨-, hs⟩
    · obtain ⟨queue, hqueue, hopen, -⟩ := hasRoom_iff.mp hroom
      rw [hs]
      refine .granted rfl List.map_append hqueue hopen ?_
      rw [routes, List.length_map]
      rfl
    · rw [hs]
      exact .still rfl rfl rfl rfl
    · rw [hs]
      exact .still rfl rfl rfl rfl
  | cancelForward c port =>
    simp only [step]
    rcases s.cancelForward_cases c port with hs | hs
    · rw [hs]
      exact .still rfl (congrArg _ (registry_endForward s c)) (routes_endForward s c)
        (queues_endForward s c)
    · rw [hs]
      exact .still rfl rfl rfl rfl
  | disconnect c =>
    exact .still rfl (congrArg _ (registry_endForward s c)) (routes_endForward s c)
      (queues_endForward s c)
  | watch r =>
    simp only [step]
    rcases s.watch_cases r with ⟨c, hs⟩ | hs
    · rw [hs]
      exact .still rfl rfl (routes_closeRequest s r) rfl
    · rw [hs]
      exact .still rfl rfl rfl rfl

/-! ## Delivery along a run -/

/-- Queues belong to registrations that were made, and what the tunnel of a registration has taken,
what waits for it and what it dropped with its queue are together what was granted for it. -/
structure Delivered (h : AgentHistory) (s : AgentServer) : Prop where
  fresh : ∀ n, s.registry.nextSerial ≤ n → s.queue? n = none
  unused : ∀ n, s.queue? n = none → s.grantedFor n = [] ∧ taken n h = []
  line : ∀ n queue, s.queue? n = some queue → ∃ dropped,
    s.grantedFor n = taken n h ++ queue.waiting ++ dropped ∧ (queue.isOpen = true → dropped = [])

theorem delivered_start : Delivered [] {} where
  fresh _ _ := rfl
  unused _ _ := ⟨rfl, rfl⟩
  line _ _ hq := nomatch hq

theorem Delivered.opened (hd : Delivered h s) {t : RegisteredTunnel} {capacity : Nat}
    {g : Registration} (hn : s'.registry.nextSerial = s.registry.nextSerial + 1)
    (hr : s'.routes = s.routes)
    (hq : s'.queues = s.queues ++ [⟨s.registry.nextSerial, max 1 capacity, [], true⟩]) :
    Delivered ((.register t capacity, .registered g) :: h) s' := by
  have hqueue : ∀ n, s'.queue? n = (s.queue? n).or (if s.registry.nextSerial = n then
      some ⟨s.registry.nextSerial, max 1 capacity, [], true⟩ else none) := by
    intro n
    rw [queue?, hq, List.find?_append, ← queue?]
    by_cases h : s.registry.nextSerial = n
    · simp [h]
    · simp [h]
  refine ⟨fun n hle => ?_, fun n hnone => ?_, fun n queue hsome => ?_⟩
  · rw [hn] at hle
    rw [hqueue, hd.fresh n (Nat.le_of_succ_le hle), if_neg (Nat.ne_of_lt hle)]
    rfl
  · rw [hqueue, Option.or_eq_none_iff] at hnone
    rw [grantedFor_congr hr, taken_cons rfl]
    exact hd.unused n hnone.1
  · rw [hqueue] at hsome
    rw [grantedFor_congr hr, taken_cons rfl]
    cases hold : s.queue? n with
    | some old =>
      rw [hold, Option.some_or] at hsome
      cases hsome
      exact hd.line n _ hold
    | none =>
      -- the queue is the new one, for which nothing has been granted yet
      rw [hold, Option.none_or, Option.ite_none_right_eq_some] at hsome
      obtain ⟨-, hnew⟩ := hsome
      cases hnew
      obtain ⟨hgranted, htaken⟩ := hd.unused n hold
      exact ⟨[], by rw [hgranted, htaken]; rfl, fun _ => rfl⟩

/-- An event that changes one queue keeps delivery in order if it keeps the line of that queue. -/
theorem Delivered.modified (hd : Delivered h s) {h' : AgentHistory}
    {f : RequestQueue → RequestQueue} (hf : ∀ q, (f q).registration = q.registration)
    (hreg : s'.registry = s.registry) (hq : s'.queues = (s.modifyQueue n f).queues)
    (hother : ∀ m, m ≠ n ∨ s.queue? n = none →
      s'.grantedFor m = s.grantedFor m ∧ taken m h' = taken m h)
    (hline : ∀ queue dropped, s.queue? n = some queue →
      s.grantedFor n = taken n h ++ queue.waiting ++ dropped →
      (queue.isOpen = true → dropped = []) → ∃ dropped',
        s'.grantedFor n = taken n h' ++ (f queue).waiting ++ dropped' ∧
          ((f queue).isOpen = true → dropped' = [])) : Delivered h' s' := by
  have hqueue : ∀ m, s'.queue? m = if m = n then (s.queue? m).map f else s.queue? m := by
    intro m
    rw [queue?, hq]
    exact queue?_modifyQueue hf s n m
  have hnone : ∀ m, s'.queue? m = none ↔ s.queue? m = none := by
    intro m
    rw [hqueue]
    split
    · exact Option.map_eq_none_iff
    · exact Iff.rfl
  refine ⟨fun m hle => (hnone m).mpr (hd.fresh m (hreg ▸ hle)), fun m hm => ?_,
    fun m queue hsome => ?_⟩
  · have hm := (hnone m).mp hm
    have hsame : m ≠ n ∨ s.queue? n = none := by
      by_cases h : m = n
      · exact .inr (h ▸ hm)
      · exact .inl h
    rw [(hother m hsame).1, (hother m hsame).2]
    exact hd.unused m hm
  · rw [hqueue] at hsome
    by_cases hm : m = n
    · subst hm
      rw [if_pos rfl, Option.map_eq_some_iff] at hsome
      obtain ⟨old, hold, rfl⟩ := hsome
      obtain ⟨dropped, hgranted, hopen⟩ := hd.line m old hold
      exact hline old dropped hold hgranted hopen
    · rw [if_neg hm] at hsome
      rw [(hother m (.inl hm)).1, (hother m (.inl hm)).2]
      exact hd.line m queue hsome

theorem Delivered.closed (hd : Delivered h s) (hreg : s'.registry = s.registry)
    (hr : s'.routes = s.routes)
    (hq : s'.queues = (s.modifyQueue n fun q => { q with waiting := [], isOpen := false }).queues) :
    Delivered ((.closeQueue n, .done) :: h) s' := by
  refine hd.modified (fun _ => by rfl) hreg hq
    (fun m _ => ⟨grantedFor_congr hr m, taken_cons rfl m _ h⟩) ?_
  intro queue dropped _ hgranted _
  refine ⟨queue.waiting ++ dropped, ?_, nofun⟩
  rw [grantedFor_congr hr, taken_cons rfl, hgranted, List.append_nil, List.append_assoc]

theorem Delivered.took (hd : Delivered h s) {r : Nat} {queue : RequestQueue} {rest : List Nat}
    (hreg : s'.registry = s.registry) (hr : s'.routes = s.routes)
    (hsome : s.queue? n = some queue) (hwaiting : queue.waiting = r :: rest)
    (hq : s'.queues = (s.modifyQueue n fun q => { q with waiting := rest }).queues) :
    Delivered ((.takeRequest n, .taken (some r)) :: h) s' := by
  refine hd.modified (fun _ => by rfl) hreg hq ?_ ?_
  · rintro m (hm | hnone)
    · exact ⟨grantedFor_congr hr m, by rw [taken, if_neg (Ne.symm hm)]⟩
    · cases hsome.symm.trans hnone
  · intro queue' dropped hsome' hgranted hopen
    cases hsome.symm.trans hsome'
    refine ⟨dropped, ?_, hopen⟩
    rw [grantedFor_congr hr, taken, if_pos rfl, hgranted, hwaiting, List.append_cons]

theorem Delivered.granted (hd : Delivered h s) {queue : RequestQueue} {c : Nat}
    (hreg : s'.registry = s.registry) (hr : s'.routes = s.routes ++ [n])
    (hsome : s.queue? n = some queue) (hopen : queue.isOpen = true)
    (hq : s'.queues = (s.modifyQueue n fun q =>
      { q with waiting := q.waiting ++ [s.routes.length] }).queues) :
    Delivered ((.deliver c, .answered true) :: h) s' := by
  refine hd.modified (fun _ => by rfl) hreg hq ?_ ?_
  · rintro m (hm | hnone)
    · refine ⟨?_, taken_cons rfl m _ h⟩
      rw [grantedFor_concat hr, if_neg (Ne.symm hm), List.append_nil]
    · cases hsome.symm.trans hnone
  · intro queue' dropped hsome' hgranted hdropped
    cases hsome.symm.trans hsome'
    -- an open queue has lost nothing, so the new request is the last of its line
    refine ⟨[], ?_, fun _ => rfl⟩
    rw [grantedFor_concat hr, if_pos rfl, taken_cons rfl, hgranted, hdropped hopen,
      List.append_nil, List.append_nil, List.append_assoc]

theorem Delivered.still (hd : Delivered h s) {event : AgentEvent} {reply : AgentReply}
    (ht : isTaking reply = false) (hn : s'.registry.nextSerial = s.registry.nextSerial)
    (hr : s'.routes = s.routes) (hq : s'.queues = s.queues) :
    Delivered ((event, reply) :: h) s' := by
  have hqueue : ∀ m, s'.queue? m = s.queue? m := fun m => by rw [queue?, hq, queue?]
  refine ⟨fun m hle => ?_, fun m hnone => ?_, fun m queue hsome => ?_⟩
  · rw [hqueue]
    exact hd.fresh m (hn ▸ hle)
  · rw [grantedFor_congr hr, taken_cons ht]
    exact hd.unused m (hqueue m ▸ hnone)
  · rw [grantedFor_congr hr, taken_cons ht]
    exact hd.line m queue (hqueue m ▸ hsome)

/-- Requests are delivered in the order of their grants, at every moment of every run. -/
theorem Run.delivered (hr : Run h s) : Delivered h s := by
  induction hr with
  | start => exact delivered_start
  | @next h s event _ _ ih =>
    have ht := step_traffic s event
    generalize (s.step event).1 = s', (s.step event).2 = reply at ht
    cases ht with
    | opened hn hr hq => exact ih.opened hn hr hq
    | closed hreg hr hq => exact ih.closed hreg hr hq
    | took hreg hr hsome hwaiting hq => exact ih.took hreg hr hsome hwaiting hq
    | granted hreg hr hsome hopen hq => exact ih.granted hreg hr hsome hopen hq
    | still ht hn hr hq => exact ih.still ht hn hr hq

end AgentServer
end SshTunnels
