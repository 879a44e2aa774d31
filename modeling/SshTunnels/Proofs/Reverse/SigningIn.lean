import SshTunnels.Proofs.Reverse.Exchange
import SshTunnels.Proofs.Reverse.Registrations

/-!
# Signing in

A connection may forward for the tunnels that authorized the key it was last let in with, at the
moment it was let in (`SignedIn`). That is what the server remembers of it (`Run.remembered`),
whatever becomes of the tunnels later.
-/

namespace SshTunnels
namespace AgentServer

variable {s s' : AgentServer} {h : AgentHistory} {c : Nat} {conn : AgentConnection} {port : Nat}
  {key : PublicKey} {tunnels : List AuthorizedTunnel}

/-- The connection was let in with this key, which authorized it for these tunnels, and has not been
let in again since. -/
def SignedIn (c : Nat) (key : PublicKey) (tunnels : List AuthorizedTunnel) (h : AgentHistory) :
    Prop :=
  ∃ since before s, h = since ++ (.authenticate c key, .answered true) :: before ∧ Run before s ∧
    c < s.connections.length ∧ tunnels = s.registry.authorizedTunnels key ∧
    ∀ x ∈ since, ∀ other, x ≠ (.authenticate c other, .answered true)

/-- A history leads to one state. -/
theorem Run.unique (hr : Run h s) (hr' : Run h s') : s = s' := by
  induction hr generalizing s' with
  | start => cases hr' with | start => rfl
  | @next h s event _ _ ih =>
    generalize hx : (event, (s.step event).2) = x at hr'
    cases hr' with
    | next event' hrun _ =>
      cases ih hrun
      cases hx
      rfl

theorem not_signedIn_nil : ¬ SignedIn c key tunnels [] := by
  rintro ⟨since, before, s, heq, -⟩
  exact absurd heq.symm (List.append_ne_nil_of_right_ne_nil _ (List.cons_ne_nil _ _))

theorem signedIn_cons {x : AgentEvent × AgentReply} (hr : Run h s) :
    SignedIn c key tunnels (x :: h) ↔
      (x = (.authenticate c key, .answered true) ∧ c < s.connections.length ∧
        tunnels = s.registry.authorizedTunnels key) ∨
      ((∀ other, x ≠ (.authenticate c other, .answered true)) ∧ SignedIn c key tunnels h) := by
  constructor
  · rintro ⟨since, before, s', heq, hrun, hc, htunnels, hsince⟩
    cases since with
    | nil =>
      -- the event itself let the agent in, at the state that `h` leads to
      cases heq
      cases hr.unique hrun
      exact .inl ⟨rfl, hc, htunnels⟩
    | cons y since =>
      cases heq
      rw [List.forall_mem_cons] at hsince
      exact .inr ⟨hsince.1, since, before, s', rfl, hrun, hc, htunnels, hsince.2⟩
  · rintro (⟨rfl, hc, htunnels⟩ | ⟨hx, since, before, s', rfl, hrun, hc, htunnels, hsince⟩)
    · exact ⟨[], h, s, rfl, hr, hc, htunnels, nofun⟩
    · exact ⟨x :: since, before, s', rfl, hrun, hc, htunnels, List.forall_mem_cons.mpr ⟨hx, hsince⟩⟩

/-- An event that lets nobody in on the connection leaves it signed in as it was. -/
theorem signedIn_cons_of_ne {x : AgentEvent × AgentReply} (hr : Run h s)
    (hx : ∀ other, x ≠ (.authenticate c other, .answered true)) :
    SignedIn c key tunnels (x :: h) ↔ SignedIn c key tunnels h := by
  rw [signedIn_cons hr]
  constructor
  · rintro (⟨rfl, -⟩ | ⟨-, hold⟩)
    · exact absurd rfl (hx key)
    · exact hold
  · exact fun hold => .inr ⟨hx, hold⟩

/-- Connections have the key and the tunnels that they signed in with; one that never did has
none. -/
structure Remembered (h : AgentHistory) (s : AgentServer) : Prop where
  within : ∀ {c : Nat} {key tunnels}, SignedIn c key tunnels h → c < s.credentials.length
  known : ∀ {c : Nat} {k authorized key tunnels}, s.credentials[c]? = some (k, authorized) →
    (SignedIn c key tunnels h ↔ k = some key ∧ authorized = tunnels)
  stranger : ∀ {c : Nat} {authorized}, s.credentials[c]? = some (none, authorized) →
    authorized = []

theorem remembered_start : Remembered [] {} where
  within hs := absurd hs not_signedIn_nil
  known hc := nomatch hc
  stranger hc := nomatch hc

/-- An event that lets nobody in. -/
theorem Remembered.of_same (hm : Remembered h s) (hr : Run h s) {x : AgentEvent × AgentReply}
    (hx : ∀ c other, x ≠ (.authenticate c other, .answered true))
    (hc : s'.credentials = s.credentials) : Remembered (x :: h) s' where
  within hs := by
    rw [hc]
    exact hm.within ((signedIn_cons_of_ne hr (hx _)).mp hs)
  known hcred := by
    rw [signedIn_cons_of_ne hr (hx _)]
    exact hm.known (hc ▸ hcred)
  stranger hcred := hm.stranger (hc ▸ hcred)

theorem Remembered.connected (hm : Remembered h s) (hr : Run h s)
    (hc : s'.credentials = s.credentials ++ [(none, [])]) {peer : Option String} {n : Nat} :
    Remembered ((.connect peer, .connected n) :: h) s' where
  within hs := by
    rw [hc, List.length_append]
    exact Nat.lt_add_right 1 (hm.within ((signedIn_cons_of_ne hr (by rintro _ ⟨⟩)).mp hs))
  known {c k authorized key tunnels} hcred := by
    rw [signedIn_cons_of_ne hr (by rintro _ ⟨⟩)]
    rw [hc] at hcred
    rcases getElem?_concat_cases hcred with ⟨-, hold⟩ | ⟨rfl, hnew⟩
    · exact hm.known hold
    · -- nobody has signed in over a connection that is only now begun
      cases hnew
      exact iff_of_false (fun hs => Nat.lt_irrefl _ (hm.within hs)) nofun
  stranger {c authorized} hcred := by
    rw [hc] at hcred
    rcases getElem?_concat_cases hcred with ⟨-, hold⟩ | ⟨-, hnew⟩
    · exact hm.stranger hold
    · exact congrArg Prod.snd hnew

theorem Remembered.signedIn (hm : Remembered h s) (hr : Run h s) {n : Nat} {k : PublicKey}
    (hc : s'.credentials =
      s.credentials.modify n fun _ => (some k, s.registry.authorizedTunnels k)) :
    Remembered ((.authenticate n k, .answered true) :: h) s' where
  within hs := by
    rw [hc, List.length_modify]
    rcases (signedIn_cons hr).mp hs with ⟨-, hlt, -⟩ | ⟨-, hold⟩
    · rw [credentials, List.length_map]
      exact hlt
    · exact hm.within hold
  known {c k' authorized key tunnels} hcred := by
    have hlt : c < s.connections.length := by
      have := (List.getElem?_eq_some_iff.mp hcred).1
      rw [hc, List.length_modify, credentials, List.length_map] at this
      exact this
    rw [hc] at hcred
    rcases getElem?_modify_cases hcred with ⟨hne, hold⟩ | ⟨rfl, hnew⟩
    · rw [signedIn_cons_of_ne hr (by rintro other ⟨⟩; exact hne rfl)]
      exact hm.known hold
    · cases hnew
      rw [signedIn_cons hr]
      constructor
      · rintro (⟨heq, -, rfl⟩ | ⟨hnot, -⟩)
        · cases heq
          exact ⟨rfl, rfl⟩
        · exact absurd rfl (hnot k)
      · rintro ⟨heq, rfl⟩
        cases heq
        exact .inl ⟨rfl, hlt, rfl⟩
  stranger {c authorized} hcred := by
    rw [hc] at hcred
    rcases getElem?_modify_cases hcred with ⟨-, hold⟩ | ⟨-, hnew⟩
    · exact hm.stranger hold
    · cases hnew

theorem Run.remembered (hr : Run h s) : Remembered h s := by
  induction hr with
  | start => exact remembered_start
  | @next h s event hrun _ ih =>
    have he := step_effect s event
    generalize (s.step event).1 = s', (s.step event).2 = reply at he
    cases he with
    | registered _ hc => exact ih.of_same hrun nofun hc
    | connected _ hc => exact ih.connected hrun hc
    | signedIn _ _ hc => exact ih.signedIn hrun hc
    | thinned he _ hc =>
      refine ih.of_same hrun ?_ hc
      rintro c other ⟨⟩
      cases he

/-- No port is held twice. -/
theorem Run.apart (hr : Run h s) : s.registry.Apart := by
  induction hr with
  | start => exact List.nodup_nil
  | @next h s event _ _ ih =>
    have he := step_effect s event
    generalize (s.step event).1 = s', (s.step event).2 = reply at he
    cases he with
    | registered hreg _ => exact ih.register hreg
    | connected hreg _ => exact hreg ▸ ih
    | signedIn hreg _ _ => exact hreg ▸ ih
    | thinned _ hsub _ => exact ih.sublist (hsub.map _)

/-- A key is authorized for one tunnel of a port at most. -/
theorem SignedIn.eq_of_port (hs : SignedIn c key tunnels h) {a b : AuthorizedTunnel}
    (ha : a ∈ tunnels) (hb : b ∈ tunnels) (hport : a.port = b.port) : a = b := by
  obtain ⟨_, before, s, -, hrun, -, rfl, -⟩ := hs
  obtain ⟨e, he, -, rfl⟩ := Registry.mem_authorizedTunnels.mp ha
  obtain ⟨e', he', -, rfl⟩ := Registry.mem_authorizedTunnels.mp hb
  rw [hrun.apart.eq_of_port he he' hport]

/-- The tunnels that a connection may forward for are those that it signed in for. -/
theorem Run.find?_authorized (hr : Run h s) (hc : s.connections[c]? = some conn)
    {allowed : AuthorizedTunnel} :
    conn.authorized.find? (·.port.toNat == port) = some allowed ↔
      ∃ key tunnels, SignedIn c key tunnels h ∧ allowed ∈ tunnels ∧ allowed.port.toNat = port := by
  have hcred : s.credentials[c]? = some (conn.key, conn.authorized) := by
    rw [credentials, List.getElem?_map, hc]
    rfl
  constructor
  · intro hf
    have hmem := List.mem_of_find?_eq_some hf
    have hport : allowed.port.toNat = port := by simpa using List.find?_some hf
    cases hkey : conn.key with
    | none =>
      rw [hkey] at hcred
      rw [hr.remembered.stranger hcred] at hmem
      cases hmem
    | some key => exact ⟨key, _, (hr.remembered.known hcred).mpr ⟨hkey, rfl⟩, hmem, hport⟩
  · rintro ⟨key, tunnels, hs, hmem, rfl⟩
    obtain ⟨-, hauthorized⟩ := (hr.remembered.known hcred).mp hs
    rw [hauthorized]
    cases hf : tunnels.find? (·.port.toNat == allowed.port.toNat) with
    | none => simpa using List.find?_eq_none.mp hf allowed hmem
    | some other =>
      -- a key has one tunnel of a port at most, so the search cannot stop at another one
      have hport : other.port = allowed.port := by
        simpa [UInt16.toNat_inj] using List.find?_some hf
      rw [hs.eq_of_port (List.mem_of_find?_eq_some hf) hmem hport]

end AgentServer
end SshTunnels
