import SshTunnels.Tunnel.Config

/-!
# The live part of a configuration

Two configurations mean the same live tunnel exactly when they are equal once their bookkeeping is
wiped out. So it is an equivalence relation, and it keeps the tunnel's identifier.
-/

namespace SshTunnels
namespace TunnelConfig

/-- The configuration without its bookkeeping. -/
def live (c : TunnelConfig) : TunnelConfig :=
  (c.setEnabled true).setCreatedAt default

/-- Configurations mean the same live tunnel when only their bookkeeping differs. -/
theorem sameLive_iff {a b : TunnelConfig} : a.sameLive b = true ↔ a.live = b.live := by
  cases a with
  | standard a =>
    cases b with
    | standard b =>
      simp only [sameLive, StandardTunnel.sameLive, live, setEnabled, setCreatedAt,
        Bool.and_eq_true, beq_iff_eq, standard.injEq, StandardTunnel.mk.injEq, true_and]
      constructor
      · rintro ⟨⟨⟨⟨⟨⟨hid, huser⟩, hhost⟩, hport⟩, htunnel⟩, hservice⟩, hat⟩
        exact ⟨hid, htunnel, huser, hhost, hport, hservice, hat⟩
      · rintro ⟨hid, htunnel, huser, hhost, hport, hservice, hat⟩
        exact ⟨⟨⟨⟨⟨⟨hid, huser⟩, hhost⟩, hport⟩, htunnel⟩, hservice⟩, hat⟩
    | reverse b => exact iff_of_false Bool.false_ne_true (fun h => nomatch h)
  | reverse a =>
    cases b with
    | standard b => exact iff_of_false Bool.false_ne_true (fun h => nomatch h)
    | reverse b =>
      simp only [sameLive, ReverseTunnel.sameLive, live, setEnabled, setCreatedAt,
        Bool.and_eq_true, beq_iff_eq, reverse.injEq, ReverseTunnel.mk.injEq, true_and]

theorem sameLive_refl (a : TunnelConfig) : a.sameLive a = true :=
  sameLive_iff.mpr rfl

theorem sameLive_symm {a b : TunnelConfig} (h : a.sameLive b = true) : b.sameLive a = true :=
  sameLive_iff.mpr (sameLive_iff.mp h).symm

theorem sameLive_trans {a b c : TunnelConfig} (hab : a.sameLive b = true)
    (hbc : b.sameLive c = true) : a.sameLive c = true :=
  sameLive_iff.mpr ((sameLive_iff.mp hab).trans (sameLive_iff.mp hbc))

/-- Between two configurations with the same live tunnel it does not matter which one a third is
compared with. -/
theorem sameLive_eq_of_sameLive {a c : TunnelConfig} (h : a.sameLive c = true) (b : TunnelConfig) :
    a.sameLive b = b.sameLive c := by
  rw [Bool.eq_iff_iff]
  constructor
  · intro hab
    exact sameLive_trans (sameLive_symm hab) h
  · intro hbc
    exact sameLive_trans h (sameLive_symm hbc)

/-- The same live tunnel is reached at the same port. -/
theorem tunnelPort_of_sameLive {a b : TunnelConfig} (h : a.sameLive b = true) :
    a.tunnelPort = b.tunnelPort := by
  have hlive : ∀ c : TunnelConfig, c.live.tunnelPort = c.tunnelPort := by
    intro c
    cases c <;> rfl
  rw [← hlive a, ← hlive b, sameLive_iff.mp h]

end TunnelConfig
end SshTunnels
