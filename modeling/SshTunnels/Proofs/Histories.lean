/-!
# Histories

Histories have the latest event first. Much depends on what happened last of some kind of event:
something happened, and nothing since has undone it. Such a fact holds after one more event if that
event brings it about, or if it held before and the event does not undo it.
-/

namespace SshTunnels

variable {α : Type} {a x : α} {h : List α} {p : α → Prop}

theorem not_exists_since_nil : ¬ ∃ since before, [] = since ++ a :: before ∧ ∀ y ∈ since, p y := by
  rintro ⟨since, before, heq, -⟩
  exact absurd heq.symm (List.append_ne_nil_of_right_ne_nil _ (List.cons_ne_nil _ _))

/-- The event `a` happened, and all events since satisfy `p`. -/
theorem exists_since_cons : (∃ since before, x :: h = since ++ a :: before ∧ ∀ y ∈ since, p y) ↔
    x = a ∨ (∃ since before, h = since ++ a :: before ∧ ∀ y ∈ since, p y) ∧ p x := by
  constructor
  · rintro ⟨since, before, heq, hsince⟩
    cases since with
    | nil =>
      cases heq
      exact .inl rfl
    | cons y since =>
      cases heq
      rw [List.forall_mem_cons] at hsince
      exact .inr ⟨⟨since, before, rfl, hsince.2⟩, hsince.1⟩
  · rintro (rfl | ⟨⟨since, before, rfl, hsince⟩, hx⟩)
    · exact ⟨[], h, rfl, List.forall_mem_nil _⟩
    · exact ⟨x :: since, before, rfl, List.forall_mem_cons.mpr ⟨hx, hsince⟩⟩

end SshTunnels
