import SshTunnels.Proofs.Reverse.Exchange
import SshTunnels.Proofs.Reverse.Registrations

/-!
# Revoked keys

A tunnel's keys change when it is registered anew. What an agent may forward for was found out when
it signed in, and is not found out again. So when the look-up of a port finds a tunnel, this tunnel
authorizes the agent's key exactly if it was not registered since the agent signed in, or was
registered with that key the last time; the same goes for a forward that is granted with nothing
between look-up and delivery. A key that was revoked in the meantime gets through.

`Admitted` is the invariant: an agent's tunnels vouch for the key that it signed in with, unless
they were registered since.
-/

namespace SshTunnels

namespace AgentServer

variable {s s' : AgentServer} {h : AgentHistory} {event : AgentEvent} {reply : AgentReply}

/-! ## What a history says of a connection -/

/-- The key that a connection was let in with last. -/
def lastKey (c : Nat) : AgentHistory → Option PublicKey
  | [] => none
  | (.connect _, .connected n) :: h => if n = c then none else lastKey c h
  | (.authenticate n key, .answered true) :: h => if n = c then some key else lastKey c h
  | _ :: h => lastKey c h

/-- The tunnel as it was registered last, if that was after the connection was let in last. -/
def registeredSince (c : Nat) (id : Uuid) : AgentHistory → Option RegisteredTunnel
  | [] => none
  | (.register t _, .registered _) :: h => if t.id = id then some t else registeredSince c id h
  | (.authenticate n _, .answered true) :: h => if n = c then none else registeredSince c id h
  | _ :: h => registeredSince c id h

theorem lastKey_cons (he : isAdmission event reply = false) (c : Nat) (h : AgentHistory) :
    lastKey c ((event, reply) :: h) = lastKey c h := by
  rw [lastKey]
  · rintro peer n ⟨⟩
    cases he
  · rintro n key ⟨⟩
    cases he

theorem registeredSince_cons (he : isAdmission event reply = false) (c : Nat) (id : Uuid)
    (h : AgentHistory) : registeredSince c id ((event, reply) :: h) = registeredSince c id h := by
  rw [registeredSince]
  · rintro t capacity g ⟨⟩
    cases he
  · rintro n key ⟨⟩
    cases he

/-! ## Admission along a run -/

/-- An entry vouches for a key if its tunnel authorizes the key, or was registered since the key was
presented. -/
def Vouches (e : RegistryEntry) (key : PublicKey) : Option RegisteredTunnel → Prop
  | none => e.tunnel.authorizes key = true
  | some t => e.tunnel = t

/-- No tunnel is registered twice, every connection has the key that it was let in with last, and
the tunnels that it may forward for vouch for that key as long as they are registered. -/
structure Admitted (h : AgentHistory) (s : AgentServer) : Prop where
  once : s.registry.Once
  key : ∀ {c key authorized}, s.credentials[c]? = some (key, authorized) → key = lastKey c h
  vouched : ∀ {c key authorized}, s.credentials[c]? = some (key, authorized) →
    ∀ allowed ∈ authorized, ∃ k, key = some k ∧ ∀ e ∈ s.registry.entries,
      e.tunnel.id = allowed.id → Vouches e k (registeredSince c allowed.id h)

theorem admitted_start : Admitted [] {} where
  once := List.nodup_nil
  key hc := nomatch hc
  vouched hc := nomatch hc

theorem Admitted.registered (ha : Admitted h s) {t : RegisteredTunnel} {g : Registration}
    (hr : s.registry.register t = .ok (g, s'.registry)) (hc : s'.credentials = s.credentials)
    (capacity : Nat) : Admitted ((.register t capacity, .registered g) :: h) s' where
  once := ha.once.register hr
  key hcred := ha.key (hc ▸ hcred)
  vouched hcred allowed hallowed := by
    obtain ⟨k, hk, hvouch⟩ := ha.vouched (hc ▸ hcred) allowed hallowed
    refine ⟨k, hk, fun e he hid => ?_⟩
    rw [registeredSince]
    rcases Registry.mem_entries_of_register hr he with het | ⟨hmem, hne⟩
    · rw [if_pos (het ▸ hid)]
      exact het
    · rw [if_neg fun heq => hne (hid.trans heq.symm)]
      exact hvouch e hmem hid

theorem Admitted.connected (ha : Admitted h s) (hr : s'.registry = s.registry)
    (hc : s'.credentials = s.credentials ++ [(none, [])]) (peer : Option String) :
    Admitted ((.connect peer, .connected s.credentials.length) :: h) s' where
  once := hr ▸ ha.once
  key {c key authorized} hcred := by
    rw [hc] at hcred
    rw [lastKey]
    rcases getElem?_concat_cases hcred with ⟨hne, hold⟩ | ⟨heq, hnew⟩
    · rw [if_neg hne]
      exact ha.key hold
    · rw [if_pos heq]
      exact congrArg Prod.fst hnew
  vouched {c key authorized} hcred allowed hallowed := by
    rw [hc] at hcred
    rw [hr]
    rcases getElem?_concat_cases hcred with ⟨-, hold⟩ | ⟨-, hnew⟩
    · exact ha.vouched hold allowed hallowed
    · cases hnew
      cases hallowed

theorem Admitted.signedIn (ha : Admitted h s) {n : Nat} {k : PublicKey}
    (hr : s'.registry = s.registry)
    (hc : s'.credentials =
      s.credentials.modify n fun _ => (some k, s.registry.authorizedTunnels k)) :
    Admitted ((.authenticate n k, .answered true) :: h) s' where
  once := hr ▸ ha.once
  key {c key authorized} hcred := by
    rw [hc] at hcred
    rw [lastKey]
    rcases getElem?_modify_cases hcred with ⟨hne, hold⟩ | ⟨heq, hnew⟩
    · rw [if_neg hne]
      exact ha.key hold
    · rw [if_pos heq]
      exact congrArg Prod.fst hnew
  vouched {c key authorized} hcred allowed hallowed := by
    rw [hc] at hcred
    rw [registeredSince, hr]
    rcases getElem?_modify_cases hcred with ⟨hne, hold⟩ | ⟨heq, hnew⟩
    · rw [if_neg hne]
      exact ha.vouched hold allowed hallowed
    · cases hnew
      rw [if_pos heq]
      -- the entry that made the tunnel allowed is the only one with its identifier
      refine ⟨k, rfl, fun e he hid => ?_⟩
      obtain ⟨e', he', hauthorizes, rfl⟩ := Registry.mem_authorizedTunnels.mp hallowed
      rw [ha.once.eq_of_id he he' hid]
      exact hauthorizes

theorem Admitted.thinned (ha : Admitted h s) (he : isAdmission event reply = false)
    (hr : s'.registry.entries.Sublist s.registry.entries) (hc : s'.credentials = s.credentials) :
    Admitted ((event, reply) :: h) s' where
  once := ha.once.sublist (hr.map _)
  key hcred := by
    rw [lastKey_cons he]
    exact ha.key (hc ▸ hcred)
  vouched hcred allowed hallowed := by
    obtain ⟨k, hk, hvouch⟩ := ha.vouched (hc ▸ hcred) allowed hallowed
    rw [registeredSince_cons he]
    exact ⟨k, hk, fun e hmem hid => hvouch e (hr.subset hmem) hid⟩

/-- Admission is in order at every moment of every run. -/
theorem Run.admitted (hr : Run h s) : Admitted h s := by
  induction hr with
  | start => exact admitted_start
  | @next h s event _ _ ih =>
    have he := step_effect s event
    generalize (s.step event).1 = s', (s.step event).2 = reply at he
    cases he with
    | registered hreg hc => exact ih.registered hreg hc _
    | connected hreg hc => exact ih.connected hreg hc _
    | signedIn hreg _ hc => exact ih.signedIn hreg hc
    | thinned he hreg hc => exact ih.thinned he hreg hc

/-! ## Forwards and revoked keys -/

/-- When the look-up of a port finds a tunnel, this tunnel authorizes the key that the connection
was let in with last, exactly if the tunnel was not registered since, or with that key. -/
theorem authorizes_iff_of_found {c : Nat} {address : String} {port : Nat} (hr : Run h s)
    (hf : (s.lookUp c address port).1 = true) :
    ∃ key entry, lastKey c h = some key ∧ entry.tunnel.port.toNat = port ∧
      s.registry.holder? entry.tunnel.port = some entry ∧
      (entry.tunnel.authorizes key = true ↔
        ∀ t, registeredSince c entry.tunnel.id h = some t → t.authorizes key = true) := by
  have ha := hr.admitted
  obtain ⟨conn, entry, hconn, htarget⟩ := lookUp_found hf
  obtain ⟨allowed, hallowed, hport, hholder, hid⟩ := target?_eq_some htarget
  have hcred : s.credentials[c]? = some (conn.key, conn.authorized) := by
    rw [credentials, List.getElem?_map, hconn]
    rfl
  obtain ⟨key, hkey, hvouch⟩ := ha.vouched hcred allowed hallowed
  obtain ⟨hmem, hsame⟩ := Registry.holder?_eq_some hholder
  have hv := hvouch entry hmem hid
  rw [← hsame] at hport hholder
  refine ⟨key, entry, (ha.key hcred).symm.trans hkey, hport, hholder, ?_⟩
  rw [hid]
  cases ht : registeredSince c allowed.id h with
  | none =>
    rw [ht] at hv
    exact iff_of_true hv nofun
  | some t =>
    rw [ht] at hv
    rw [show entry.tunnel = t from hv]
    exact ⟨fun hauthorizes _ heq => Option.some.inj heq ▸ hauthorizes, fun hall => hall t rfl⟩

/-- When a forward is granted, the tunnel that holds the port authorizes the key that the connection
was let in with last, exactly if the tunnel was not registered since, or with that key. -/
theorem authorizes_iff_of_granted {c : Nat} {address : String} {port : Nat} (hr : Run h s)
    (hg : (s.forward c address port).1 = true) :
    ∃ key entry, lastKey c h = some key ∧ entry.tunnel.port.toNat = port ∧
      s.registry.holder? entry.tunnel.port = some entry ∧
      (entry.tunnel.authorizes key = true ↔
        ∀ t, registeredSince c entry.tunnel.id h = some t → t.authorizes key = true) :=
  authorizes_iff_of_found hr (lookUp_of_forward hg)

/-- An agent signs in and asks for the port of its tunnel, which is as it was. -/
theorem unrevoked_key_granted :
    ∃ h s key entry, Run h s ∧ (s.forward 0 "127.0.0.1" 4000).1 = true ∧
      lastKey 0 h = some key ∧ entry.tunnel.port.toNat = 4000 ∧
      s.registry.holder? entry.tunnel.port = some entry ∧ entry.tunnel.authorizes key = true := by
  let key : PublicKey := ⟨.ed25519 (List.replicate 32 1), "agent"⟩
  have h₀ := Run.start.next (.register ⟨default, 4000, [key]⟩ 8) rfl
  have h₁ := h₀.next (.connect none) rfl
  have h₂ := h₁.next (.authenticate 0 key) (by decide +kernel)
  have hg := @authorizes_iff_of_granted _ _ 0 "127.0.0.1" 4000 h₂ (by decide +kernel)
  obtain ⟨k, entry, hkey, hport, hholder, hiff⟩ := hg
  refine ⟨_, _, k, entry, h₂, by decide +kernel, hkey, hport, hholder, hiff.mpr ?_⟩
  -- the agent was let in after the tunnel was registered
  have hreply : ((((AgentServer.step {} (.register ⟨default, 4000, [key]⟩ 8)).1.step
      (.connect none)).1.step (.authenticate 0 key))).2 = .answered true := by
    decide +kernel
  rw [hreply, registeredSince]
  exact nofun

/-- An agent signs in, its tunnel is registered anew with another key only, and then the agent asks
for the tunnel's port: it gets it. -/
theorem revoked_key_granted :
    ∃ h s key entry, Run h s ∧ (s.forward 0 "127.0.0.1" 4000).1 = true ∧
      lastKey 0 h = some key ∧ s.registry.holder? 4000 = some entry ∧
      entry.tunnel.authorizes key = false := by
  let old : PublicKey := ⟨.ed25519 (List.replicate 32 1), "old"⟩
  let new : PublicKey := ⟨.ed25519 (List.replicate 32 2), "new"⟩
  have h₀ := Run.start.next (.register ⟨default, 4000, [old]⟩ 8) rfl
  have h₁ := h₀.next (.connect none) rfl
  have h₂ := h₁.next (.authenticate 0 old) (by decide +kernel)
  have h₃ := h₂.next (.register ⟨default, 4000, [new]⟩ 8) rfl
  refine ⟨_, _, old, ⟨⟨default, 4000, [new]⟩, 1⟩, h₃, ?_, ?_, ?_, ?_⟩
  · decide +kernel
  · decide +kernel
  · decide +kernel
  · decide +kernel

end AgentServer
end SshTunnels
