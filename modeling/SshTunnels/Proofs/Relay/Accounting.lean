import Mathlib.Logic.Relation
import SshTunnels.Relay

/-!
# Order and accounting of a relay

What two streams see of a relay between them. Each direction keeps a ledger of the bytes that its
source has given and of those that its target has taken. Whatever the streams answer, in any order
and in pieces of any size, the target has taken a beginning of what the source gave, and the count
of the direction is what the target has taken of whole chunks (`Accounts`). `Accounts.step` shows
this for one answer, phase by phase; `Accounted` is what it comes to for a whole relay.
-/

namespace SshTunnels
namespace Relay

/-! ## Answers and what they move -/

/-- The bytes that a stream has given to a direction, and those that the stream opposite has taken
from it. -/
structure Ledger where
  given : Bytes := []
  taken : Bytes := []

/-- The streams can answer a direction in this way: a read gives a chunk at most, a write takes no
more than it is offered, and there is always a fault that may happen. -/
inductive Fits : Phase → Answer → Prop where
  | gives {chunk : Bytes} : chunk.length ≤ chunkSize → Fits .reading (.bytes chunk)
  | takes {left : Bytes} {size n : Nat} : n ≤ left.length → Fits (.writing left size) (.took n)
  | flushes {size : Nat} : Fits (.flushing size) .flushed
  | flushesLast : Fits .lastFlush .flushed
  | fails {phase : Phase} {e : IoError} : (∀ fault, phase ≠ .ended fault) → Fits phase (.fault e)

/-- The ledger of a direction after an answer. -/
def Ledger.record (l : Ledger) (d : Direction) : Answer → Ledger
  | .bytes chunk => { l with given := l.given ++ chunk }
  | .took n => { l with taken := l.taken ++ d.offered.take n }
  | .flushed => l
  | .fault _ => l

/-- A relay with the ledgers of its directions. -/
structure Transfer where
  relay : Relay
  ledger : Side → Ledger

namespace Transfer

/-- Before the first read. -/
def start : Transfer := ⟨.start, fun _ => {}⟩

/-- The direction that reads from a stream, and how many bytes it has counted. -/
def copied (t : Transfer) (source : Side) : Nat :=
  (t.relay.direction source).copied

/-- The relay and the ledgers after an answer to the direction from `source`. -/
def answer (t : Transfer) (source : Side) (a : Answer) : Transfer where
  relay := t.relay.step source a
  ledger side :=
    if side = source then (t.ledger side).record (t.relay.direction side) a else t.ledger side

/-- One move: a stream answers a direction while the relay copies, or a shutdown is done. -/
inductive Move : Transfer → Transfer → Prop where
  | answered {t : Transfer} {source : Side} {a : Answer} :
      t.relay.stage = .copying → Fits (t.relay.direction source).phase a →
      Move t (t.answer source a)
  | shutdownDone {t : Transfer} :
      t.relay.stage ≠ .copying → Move t { t with relay := t.relay.shutdownDone }

/-- Any number of moves. -/
abbrev Moves : Transfer → Transfer → Prop := Relation.ReflTransGen Move

end Transfer

variable {r : Relay} {source side : Side} {a : Answer} {l : Ledger} {d : Direction}
  {t t' : Transfer}

/-! ## One direction -/

/-- What a ledger says in each phase of its direction. -/
def Accounts (l : Ledger) (d : Direction) : Prop :=
  match d.phase with
  | .writing left size =>
    l.taken ++ left = l.given ∧ left.length ≤ size ∧ size ≤ chunkSize ∧
      d.copied + size = l.given.length
  | .flushing size => l.taken = l.given ∧ size ≤ chunkSize ∧ d.copied + size = l.given.length
  | .ended (some _) =>
    l.taken <+: l.given ∧ d.copied ≤ l.taken.length ∧ l.given.length ≤ d.copied + chunkSize
  | .reading | .lastFlush | .ended none => l.taken = l.given ∧ d.copied = l.given.length

/-- A direction that has given on everything. -/
theorem bounds_of_settled (htaken : l.taken = l.given) (hcopied : d.copied = l.given.length) :
    l.taken <+: l.given ∧ d.copied ≤ l.taken.length ∧
      l.given.length ≤ d.copied + chunkSize := by
  rw [htaken, hcopied]
  exact ⟨List.prefix_rfl, Nat.le_refl _, Nat.le_add_right _ _⟩

/-- The target has taken a beginning of what the source gave, and the count is behind by one chunk
at most. -/
theorem Accounts.bounds (h : Accounts l d) : l.taken <+: l.given ∧ d.copied ≤ l.taken.length ∧
    l.given.length ≤ d.copied + chunkSize := by
  obtain ⟨phase, copied⟩ := d
  cases phase with
  | reading => exact bounds_of_settled h.1 h.2
  | writing left size =>
    obtain ⟨htaken, hleft, hsize, hcopied⟩ := h
    have hlength := congrArg List.length htaken
    rw [List.length_append] at hlength
    simp only at hcopied ⊢
    exact ⟨⟨left, htaken⟩, by omega, by omega⟩
  | flushing size =>
    obtain ⟨htaken, hsize, hcopied⟩ := h
    simp only at hcopied ⊢
    rw [htaken]
    exact ⟨List.prefix_rfl, by omega, by omega⟩
  | lastFlush => exact bounds_of_settled h.1 h.2
  | ended fault =>
    cases fault with
    | none => exact bounds_of_settled h.1 h.2
    | some e => exact h

/-- An answer keeps the accounts of its direction. -/
theorem Accounts.step (h : Accounts l d) (hf : Fits d.phase a) :
    Accounts (l.record d a) (d.step a) := by
  obtain ⟨phase, copied⟩ := d
  cases hf with
  | @gives chunk hsize =>
    obtain ⟨htaken, hcopied⟩ := h
    simp only [Direction.step, Ledger.record] at hcopied ⊢
    split
    · next hend => simp [Accounts, hend, htaken, hcopied]
    · simp [Accounts, htaken, hcopied, hsize]
  | @takes left size n hn =>
    have hbounds := h.bounds
    obtain ⟨htaken, hleft, hsize, hcopied⟩ := h
    have hrest : l.taken ++ left.take n ++ left.drop n = l.given := by
      rw [List.append_assoc, List.take_append_drop, htaken]
    simp only [Direction.step, Ledger.record, Direction.offered] at hcopied ⊢
    split
    · next hzero =>
      -- a write that takes nothing ends the direction in the middle of its chunk
      rw [hzero, List.take_zero, List.append_nil]
      exact hbounds
    · split
      · next hless =>
        refine ⟨hrest, ?_, hsize, hcopied⟩
        rw [List.length_drop]
        omega
      · next hall =>
        rw [List.drop_eq_nil_of_le (Nat.not_lt.mp hall), List.append_nil] at hrest
        exact ⟨hrest, hsize, hcopied⟩
  | @flushes size =>
    obtain ⟨htaken, hsize, hcopied⟩ := h
    exact ⟨htaken, hcopied⟩
  | flushesLast => exact h
  | fails hne =>
    cases phase with
    | ended fault => exact absurd rfl (hne fault)
    | reading => exact h.bounds
    | writing left size => exact h.bounds
    | flushing size => exact h.bounds
    | lastFlush => exact h.bounds

/-- An answer does not take back what was counted. -/
theorem copied_le_step (d : Direction) (a : Answer) : d.copied ≤ (d.step a).copied := by
  cases a with
  | bytes chunk =>
    simp only [Direction.step]
    split
    · split <;> exact Nat.le_refl _
    · exact Nat.le_refl _
  | took n =>
    simp only [Direction.step]
    split
    · split
      · exact Nat.le_refl _
      · split <;> exact Nat.le_refl _
    · exact Nat.le_refl _
  | flushed =>
    simp only [Direction.step]
    split
    · exact Nat.le_add_right _ _
    · exact Nat.le_refl _
    · exact Nat.le_refl _
  | fault e =>
    simp only [Direction.step]
    split <;> exact Nat.le_refl _

/-! ## The whole relay -/

/-- While a relay copies, an answer is for one direction. -/
theorem direction_step (hr : r.stage = .copying) : (r.step source a).direction side =
    if side = source then (r.direction side).step a else r.direction side := by
  rw [Relay.step, hr]
  simp only
  cases source <;> cases side <;> split <;> rfl

theorem direction_shutdownDone (r : Relay) (side : Side) :
    r.shutdownDone.direction side = r.direction side := by
  rw [shutdownDone]
  cases side <;> split <;> rfl

namespace Transfer

/-- The accounts of both directions are in order. -/
def InOrder (t : Transfer) : Prop :=
  ∀ source, Accounts (t.ledger source) (t.relay.direction source)

theorem inOrder_start : InOrder start := by
  intro source
  cases source <;> exact ⟨rfl, rfl⟩

theorem Move.inOrder (hm : Move t t') (ht : InOrder t) : InOrder t' := by
  intro side
  cases hm with
  | answered hstage hfits =>
    simp only [answer, direction_step hstage]
    split
    · next heq =>
      subst heq
      exact (ht side).step hfits
    · exact ht side
  | shutdownDone _ =>
    simp only [direction_shutdownDone]
    exact ht side

theorem Move.copied_le (hm : Move t t') (side : Side) : t.copied side ≤ t'.copied side := by
  cases hm with
  | answered hstage _ =>
    simp only [copied, answer, direction_step hstage]
    split
    · exact copied_le_step _ _
    · exact Nat.le_refl _
  | shutdownDone _ =>
    simp only [copied, direction_shutdownDone]
    exact Nat.le_refl _

theorem Moves.inOrder (hm : Moves t t') (ht : InOrder t) : InOrder t' := by
  induction hm with
  | refl => exact ht
  | tail _ hmove ih => exact hmove.inOrder ih

theorem Moves.copied_le (hm : Moves t t') (side : Side) : t.copied side ≤ t'.copied side := by
  induction hm with
  | refl => exact Nat.le_refl _
  | tail _ hmove ih => exact Nat.le_trans ih (hmove.copied_le side)

/-- The order and the accounts of the direction that reads from `source`. -/
structure Accounted (t : Transfer) (source : Side) : Prop where
  /-- The target has taken a beginning of what the source gave. -/
  order : (t.ledger source).taken <+: (t.ledger source).given
  /-- What is counted was taken. -/
  counted : t.copied source ≤ (t.ledger source).taken.length
  /-- All that was given is counted but for one chunk. -/
  behind : (t.ledger source).given.length ≤ t.copied source + chunkSize
  /-- A direction that has ended well has given on and counted everything. -/
  complete : (t.relay.direction source).phase = .ended none →
    (t.ledger source).taken = (t.ledger source).given ∧
      t.copied source = (t.ledger source).given.length
  /-- The count never goes back. -/
  forward : ∀ t', Moves t t' → t.copied source ≤ t'.copied source

/-- A relay keeps the order and the accounts of both directions, at every moment. -/
theorem accounted_of_moves (hm : Moves start t) (source : Side) : Accounted t source := by
  have haccounts := (Moves.inOrder hm inOrder_start) source
  obtain ⟨horder, hcounted, hbehind⟩ := haccounts.bounds
  refine ⟨horder, hcounted, hbehind, fun hended => ?_, fun t' hm' => Moves.copied_le hm' source⟩
  rw [Accounts, hended] at haccounts
  exact haccounts

/-- B takes two bytes of three, and then comes to its end: the direction from A is abandoned in the
middle of a chunk that is not counted. -/
theorem abandoned_midway :
    ∃ t, Moves start t ∧ Accounted t .a ∧ Accounted t .b ∧ (t.ledger .a).given = [1, 2, 3] ∧
      (t.ledger .a).taken = [1, 2] ∧ t.copied .a = 0 ∧
      (t.relay.direction .b).phase = .ended none ∧ t.relay.stage = .closingA none := by
  have h₁ : Moves start (start.answer .a (.bytes [1, 2, 3])) :=
    .single (.answered rfl (.gives (by decide)))
  have h₂ := h₁.tail (@Move.answered _ .a (.took 2) rfl (.takes (by decide)))
  have h₃ := h₂.tail (@Move.answered _ .b (.bytes []) rfl (.gives (by decide)))
  have h₄ := h₃.tail (@Move.answered _ .b .flushed rfl .flushesLast)
  exact ⟨_, h₄, accounted_of_moves h₄ .a, accounted_of_moves h₄ .b, rfl, rfl, rfl, rfl, rfl⟩

end Transfer
end Relay
end SshTunnels
