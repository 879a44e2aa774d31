import SshTunnels.Reverse.Serving

/-!
# The agent that serves

A running reverse tunnel receives requests, their agents leave, and users are accepted, all in any
order. A user is served through the request that was received last, if that is still open, and
through none otherwise: older requests are not gone back to (`Remembers.served_eq`). So the newest
live agent serves as long as it is the newest of all, or no agent is left. An older agent that
outlives a newer one is passed over.
-/

namespace SshTunnels

/-- A reverse tunnel that runs: the requests that it has received, in order, and which of them
serves. -/
structure ServingTunnel where
  requests : List ForwardRequest := []
  serving : Serving := {}
  deriving DecidableEq, Repr

/-- What happens to a running tunnel: a request is received, one is closed, a user is accepted. -/
inductive ServingEvent where
  | received (request : ForwardRequest)
  | closed (number : Nat)
  | accepted
  deriving DecidableEq, Repr

/-- The request that was received last of those that are open. -/
def newestLive (requests : List ForwardRequest) : Option ForwardRequest :=
  requests.reverse.find? (!·.isClosed)

namespace ServingTunnel

variable {t : ServingTunnel}

/-- The request of this number is closed. -/
def isClosed (t : ServingTunnel) (number : Nat) : Bool :=
  t.requests[number]?.all (·.isClosed)

/-- The request that serves. -/
def request? (t : ServingTunnel) : Option ForwardRequest :=
  t.serving.newest.bind (t.requests[·]?)

/-- What an event makes of the tunnel. -/
def step (t : ServingTunnel) : ServingEvent → ServingTunnel
  | .received request =>
    { requests := t.requests ++ [request], serving := t.serving.take t.requests.length }
  | .closed number => { t with requests := t.requests.modify number ForwardRequest.close }
  | .accepted => { t with serving := t.serving.accept t.isClosed }

/-- The tunnel after a history, the latest event first. -/
def after : List ServingEvent → ServingTunnel
  | [] => {}
  | event :: h => (after h).step event

/-- The request that serves the user who is accepted next. -/
def served (t : ServingTunnel) : Option ForwardRequest :=
  (t.step .accepted).request?

/-! ## What is remembered of the requests -/

/-- The request that is remembered is the last one; if none is, the last one is closed. -/
structure Remembers (t : ServingTunnel) : Prop where
  last : ∀ {n}, t.serving.newest = some n → n + 1 = t.requests.length
  forgotten : t.serving.newest = none → ∀ r, t.requests.getLast? = some r → r.isClosed = true

/-- The last request, when its number is known. -/
theorem getLast?_of_last {n : Nat} (hn : n + 1 = t.requests.length) :
    t.requests.getLast? = t.requests[n]? := by
  rw [List.getLast?_eq_getElem?, ← hn]
  rfl

theorem isClosed_of_last {n : Nat} {r : ForwardRequest} (hn : n + 1 = t.requests.length)
    (hr : t.requests.getLast? = some r) : t.isClosed n = r.isClosed := by
  rw [isClosed, ← getLast?_of_last hn, hr]
  rfl

/-- A request that is closed stays closed when others are. -/
theorem isClosed_of_modify {n : Nat} {rs : List ForwardRequest} {r : ForwardRequest}
    (hr : (rs.modify n ForwardRequest.close).getLast? = some r)
    (hold : ∀ r, rs.getLast? = some r → r.isClosed = true) : r.isClosed = true := by
  rw [List.getLast?_eq_getElem?, List.length_modify, List.getElem?_modify,
    ← List.getLast?_eq_getElem?, Option.map_eq_map, Option.map_eq_some_iff] at hr
  obtain ⟨r', hr', heq⟩ := hr
  split at heq
  · rw [← heq]
    rfl
  · rw [← heq]
    exact hold r' hr'

theorem Remembers.step (h : Remembers t) (event : ServingEvent) : Remembers (t.step event) := by
  cases event with
  | received request =>
    constructor
    · rintro n ⟨⟩
      show t.requests.length + 1 = (t.requests ++ [request]).length
      rw [List.length_append, List.length_singleton]
    · nofun
  | closed number =>
    constructor
    · intro n hn
      exact (h.last hn).trans (List.length_modify _ _ _).symm
    · intro hn r hr
      exact isClosed_of_modify hr (h.forgotten hn)
  | accepted =>
    constructor
    · intro n hn
      exact h.last (Option.filter_eq_some_iff.mp hn).1
    · intro hn r hr
      -- forgotten before, or forgotten now because it has been found closed
      cases hs : t.serving.newest with
      | none => exact h.forgotten hs r hr
      | some n =>
        have hnone : (some n).filter (fun k => !t.isClosed k) = none := hs ▸ hn
        rw [Option.filter_some, isClosed_of_last (h.last hs) hr] at hnone
        cases hclosed : r.isClosed with
        | true => rfl
        | false =>
          rw [hclosed] at hnone
          cases hnone

theorem remembers_after (h : List ServingEvent) : Remembers (after h) := by
  induction h with
  | nil =>
    constructor
    · nofun
    · nofun
  | cons event h ih => exact ih.step event

/-! ## Who serves -/

/-- A user is served through the last request, if it is open. -/
theorem Remembers.served_eq (h : Remembers t) :
    t.served = t.requests.getLast?.filter (!·.isClosed) := by
  show ((t.serving.newest.filter fun n => !t.isClosed n).bind (t.requests[·]?)) = _
  cases hs : t.serving.newest with
  | none =>
    cases hr : t.requests.getLast? with
    | none => rfl
    | some r =>
      rw [Option.filter_some, h.forgotten hs r hr]
      rfl
  | some n =>
    cases hr : t.requests.getLast? with
    | none =>
      have hlast := h.last hs
      rw [List.getLast?_eq_none_iff.mp hr] at hlast
      cases hlast
    | some r =>
      rw [Option.filter_some, Option.filter_some, isClosed_of_last (h.last hs) hr]
      split
      · rw [Option.bind_some, ← getLast?_of_last (h.last hs), hr]
      · rfl

theorem newestLive_eq_none_iff {rs : List ForwardRequest} :
    newestLive rs = none ↔ ∀ r ∈ rs, r.isClosed = true := by
  rw [newestLive, List.find?_eq_none]
  constructor
  · intro h r hr
    simpa using h r (List.mem_reverse.mpr hr)
  · intro h r hr
    rw [h r (List.mem_reverse.mp hr)]
    exact Bool.false_ne_true

theorem newestLive_of_open {rs : List ForwardRequest} {r : ForwardRequest}
    (hlast : rs.getLast? = some r) (hopen : r.isClosed = false) : newestLive rs = some r := by
  obtain ⟨before, rfl⟩ := List.getLast?_eq_some_iff.mp hlast
  rw [newestLive, List.reverse_append, List.reverse_singleton, List.singleton_append]
  exact List.find?_cons_of_pos (by rw [hopen]; rfl)

/-- Every user who is accepted is served through the newest live request, and told that no agent is
connected only when no request is live, exactly if the newest request of all is open or no request
is. -/
theorem served_by_newest_live_iff (h : List ServingEvent) :
    ((after h).served = newestLive (after h).requests ∧
      (dialAgent (after h).served (fun _ => .ok ()) = .error (.forward "no agent connected") →
        ∀ r ∈ (after h).requests, r.isClosed = true)) ↔
      (∃ r, (after h).requests.getLast? = some r ∧ r.isClosed = false) ∨
        ∀ r ∈ (after h).requests, r.isClosed = true := by
  have hserved := (remembers_after h).served_eq
  constructor
  · rintro ⟨heq, -⟩
    cases hr : (after h).requests.getLast? with
    | none =>
      right
      rw [List.getLast?_eq_none_iff.mp hr]
      exact nofun
    | some r =>
      cases hclosed : r.isClosed with
      | false => exact .inl ⟨r, rfl, hclosed⟩
      | true =>
        right
        rw [hr, Option.filter_some, hclosed] at hserved
        exact newestLive_eq_none_iff.mp (heq.symm.trans hserved)
  · rintro (⟨r, hr, hopen⟩ | hall)
    · rw [hr, Option.filter_some, hopen] at hserved
      have hlive := newestLive_of_open hr hopen
      refine ⟨hserved.trans hlive.symm, fun hrefused => ?_⟩
      have hdial : dialAgent (after h).served (fun _ => .ok ()) = .ok () := by
        rw [show (after h).served = some r from hserved, dialAgent, ForwardRequest.dial, hopen]
        rfl
      cases hdial.symm.trans hrefused
    · refine ⟨?_, fun _ => hall⟩
      rw [hserved, newestLive_eq_none_iff.mpr hall, Option.filter_eq_none_iff]
      intro r hr
      simp [hall r (List.mem_of_getLast? hr)]

/-- Two agents forward, the newer one leaves, and a user comes: the older agent is still there, and
the user is told that there is none. -/
theorem outliving_agent_passed_over :
    let older : ForwardRequest := ⟨default, "127.0.0.1", 4000, some "older", false⟩
    let newer : ForwardRequest := ⟨default, "127.0.0.1", 4000, some "newer", false⟩
    let t := after [.closed 1, .received newer, .received older]
    newestLive t.requests = some older ∧ t.served = none ∧
      dialAgent t.served (fun _ => .ok ()) = .error (.forward "no agent connected") := by
  intro older newer t
  exact ⟨rfl, rfl, rfl⟩

end ServingTunnel
end SshTunnels
