import SshTunnels.Proofs.Tunnel.SameLive

/-!
# The connection that a configuration drives

What a tunnel does for its users is the connection that its configuration drives, which depends on
the user to sign in as when the configuration names none. Configurations that mean the same live
tunnel drive the same connection, whoever that user is. The other way round this fails in one case
only (`sameLive_iff_drivesAlike`): when one of two configurations leaves the user out and the other
has an empty one, which is to be read as none.
-/

namespace SshTunnels

/-- The connection that users of a tunnel get: at a port of this server, over an SSH server that is
dialled or over an agent that is awaited. -/
inductive Connection where
  | dialled (id : Uuid) (tunnelPort : UInt16) (sshHost : String) (sshPort : UInt16) (user : String)
      (serviceHost : String) (servicePort : UInt16)
  | awaited (id : Uuid) (tunnelPort : UInt16)
  deriving DecidableEq, Repr

namespace StandardTunnel

variable {s t : StandardTunnel}

/-- The user that the configuration names: an empty one is none. -/
def user? (t : StandardTunnel) : Option String :=
  t.sshUser.filter (!·.isEmpty)

theorem sshUserOr_eq (t : StandardTunnel) (fallback : String) :
    t.sshUserOr fallback = t.user?.getD fallback := by
  rw [sshUserOr, user?]
  cases t.sshUser with
  | none => rfl
  | some user => cases h : user.isEmpty <;> simp [Option.filter, h]

/-- Configurations that name the same user, or none, sign in alike, and no others do. -/
theorem sshUserOr_eq_iff :
    (∀ fallback, s.sshUserOr fallback = t.sshUserOr fallback) ↔ s.user? = t.user? := by
  simp only [sshUserOr_eq]
  constructor
  · -- a user that only one of them names is told from a longer one to fall back to
    intro h
    have hlonger (user : String) : user ≠ user ++ "-" := by
      intro heq
      have hlength := congrArg String.length heq
      rw [String.length_append] at hlength
      exact absurd hlength (by simp)
    cases hs : s.user? with
    | none =>
      cases ht : t.user? with
      | none => rfl
      | some user => exact absurd (by simpa [hs, ht] using (h (user ++ "-")).symm) (hlonger user)
    | some user =>
      cases ht : t.user? with
      | none => exact absurd (by simpa [hs, ht] using h (user ++ "-")) (hlonger user)
      | some user' => exact congrArg some (by simpa [hs, ht] using h "")
  · intro h fallback
    rw [h]

/-- One of them leaves the user out, and the other has an empty one. -/
def OmitUserUnlike (s t : StandardTunnel) : Prop :=
  s.sshUser = none ∧ t.sshUser = some "" ∨ s.sshUser = some "" ∧ t.sshUser = none

theorem user?_eq_some_iff {user : String} :
    s.user? = some user ↔ s.sshUser = some user ∧ user ≠ "" := by
  rw [user?, Option.filter_eq_some_iff]
  simp

theorem user?_eq_none_iff : s.user? = none ↔ s.sshUser = none ∨ s.sshUser = some "" := by
  rw [user?, Option.filter_eq_none_iff]
  cases s.sshUser <;> simp

/-- The same user is written, or none is, if the same one is named and none is omitted unlike. -/
theorem sshUser_eq_iff : s.sshUser = t.sshUser ↔ s.user? = t.user? ∧ ¬ OmitUserUnlike s t := by
  constructor
  · intro h
    refine ⟨by rw [user?, user?, h], ?_⟩
    rintro (⟨hs, ht⟩ | ⟨hs, ht⟩) <;> simp [hs, ht] at h
  · rintro ⟨huser, hunlike⟩
    cases hnamed : s.user? with
    | some user =>
      rw [(user?_eq_some_iff.mp hnamed).1, (user?_eq_some_iff.mp (huser ▸ hnamed)).1]
    | none =>
      rcases user?_eq_none_iff.mp hnamed with hs | hs <;>
        rcases user?_eq_none_iff.mp (huser ▸ hnamed) with ht | ht
      · rw [hs, ht]
      · exact absurd (.inl ⟨hs, ht⟩) hunlike
      · exact absurd (.inr ⟨hs, ht⟩) hunlike
      · rw [hs, ht]

end StandardTunnel

namespace TunnelConfig

variable {a b : TunnelConfig}

/-- The connection that a configuration drives where this user is the default. -/
def connection (fallback : String) : TunnelConfig → Connection
  | .standard t => .dialled t.id t.tunnelPort t.sshHost t.sshPort (t.sshUserOr fallback)
      t.serviceHost t.servicePort
  | .reverse t => .awaited t.id t.tunnelPort

/-- Configurations drive the same connection, whatever the default user is. -/
def DrivesAlike (a b : TunnelConfig) : Prop :=
  ∀ fallback, a.connection fallback = b.connection fallback

/-- Both are standard tunnels; one leaves its user out, and the other has an empty one. -/
def OmitUserUnlike (a b : TunnelConfig) : Prop :=
  ∃ s t, a = .standard s ∧ b = .standard t ∧ s.OmitUserUnlike t

theorem drivesAlike_standard_iff {s t : StandardTunnel} :
    DrivesAlike (.standard s) (.standard t) ↔ s.id = t.id ∧ s.tunnelPort = t.tunnelPort ∧
      s.sshHost = t.sshHost ∧ s.sshPort = t.sshPort ∧ s.user? = t.user? ∧
      s.serviceHost = t.serviceHost ∧ s.servicePort = t.servicePort := by
  simp only [DrivesAlike, connection, Connection.dialled.injEq, forall_and, forall_const,
    StandardTunnel.sshUserOr_eq_iff]

theorem drivesAlike_reverse_iff {s t : ReverseTunnel} :
    DrivesAlike (.reverse s) (.reverse t) ↔ s.id = t.id ∧ s.tunnelPort = t.tunnelPort := by
  simp only [DrivesAlike, connection, Connection.awaited.injEq, forall_const]

/-- Tunnels of different kinds never drive the same connection. -/
theorem kind_eq_of_drivesAlike (h : DrivesAlike a b) : a.kind = b.kind := by
  have hsame := h ""
  cases a <;> cases b <;> first | rfl | cases hsame

/-- Configurations mean the same live tunnel if they drive the same connection and do not omit the
user unlike each other. -/
theorem sameLive_iff_drivesAlike (a b : TunnelConfig) :
    a.sameLive b = true ↔ DrivesAlike a b ∧ ¬ OmitUserUnlike a b := by
  by_cases hkind : a.kind = b.kind
  · cases a with
    | standard s =>
      cases b with
      | reverse t => cases hkind
      | standard t =>
        have hunlike : OmitUserUnlike (.standard s) (.standard t) ↔ s.OmitUserUnlike t := by
          simp [OmitUserUnlike]
        simp only [sameLive, StandardTunnel.sameLive, Bool.and_eq_true, beq_iff_eq,
          drivesAlike_standard_iff, hunlike, StandardTunnel.sshUser_eq_iff]
        constructor
        · rintro ⟨⟨⟨⟨⟨⟨hid, huser, hunlike⟩, hhost⟩, hport⟩, htunnel⟩, hservice⟩, hat⟩
          exact ⟨⟨hid, htunnel, hhost, hport, huser, hservice, hat⟩, hunlike⟩
        · rintro ⟨⟨hid, htunnel, hhost, hport, huser, hservice, hat⟩, hunlike⟩
          exact ⟨⟨⟨⟨⟨⟨hid, huser, hunlike⟩, hhost⟩, hport⟩, htunnel⟩, hservice⟩, hat⟩
    | reverse s =>
      cases b with
      | standard t => cases hkind
      | reverse t =>
        simp [sameLive, ReverseTunnel.sameLive, drivesAlike_reverse_iff, OmitUserUnlike]
  · refine iff_of_false (fun h => hkind ?_) fun h => hkind (kind_eq_of_drivesAlike h.1)
    cases a <;> cases b <;> first | rfl | cases h

/-- The creation time and whether the tunnel is wanted do not matter. -/
theorem sameLive_bookkeeping (a b : TunnelConfig) (created created' : Timestamp)
    (enabled enabled' : Bool) :
    ((a.setCreatedAt created).setEnabled enabled).sameLive
      ((b.setCreatedAt created').setEnabled enabled') = a.sameLive b := by
  cases a <;> cases b <;> rfl

theorem equivalence_sameLive : Equivalence fun a b : TunnelConfig => a.sameLive b = true :=
  ⟨sameLive_refl, sameLive_symm, sameLive_trans⟩

/-- Configurations mean the same live tunnel if they drive the same connection, unless they omit the
user unlike each other. This is an equivalence, and it leaves bookkeeping out. -/
theorem sameLive_of_connections (a b : TunnelConfig) :
    (a.sameLive b = true ↔ DrivesAlike a b ∧ ¬ OmitUserUnlike a b) ∧
      (Equivalence fun a b : TunnelConfig => a.sameLive b = true) ∧
      ∀ created created' enabled enabled',
        ((a.setCreatedAt created).setEnabled enabled).sameLive
          ((b.setCreatedAt created').setEnabled enabled') = a.sameLive b :=
  ⟨sameLive_iff_drivesAlike a b, equivalence_sameLive, sameLive_bookkeeping a b⟩

/-- The same connection under every default user, and still not the same live tunnel. -/
theorem not_sameLive_of_empty_user :
    let tunnel (user : Option String) : TunnelConfig :=
      .standard ⟨.ofNat 1, ⟨0, 0⟩, true, 40022, user, "bastion.internal", 22, "db.internal", 5432⟩
    DrivesAlike (tunnel none) (tunnel (some "")) ∧
      (tunnel none).sameLive (tunnel (some "")) = false := by
  intro tunnel
  refine ⟨fun fallback => ?_, by decide⟩
  exact congrArg (Connection.dialled _ _ _ _ · _ _)
    (StandardTunnel.sshUserOr_eq_iff.mpr (by decide) fallback)

end TunnelConfig
end SshTunnels
