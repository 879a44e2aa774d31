import Mathlib.Data.List.Forall2

/-!
# Going through lists

What comes of a step that can fail when it is taken for one member of a list after the other: the
results of all of them, in order, or the fault of the first member that fails.
-/

namespace SshTunnels

variable {ε α β : Type} {f : α → Except ε β} {xs before after : List α} {x : α} {ys : List β}
  {e : ε}

theorem mapM_eq_ok_iff : xs.mapM f = .ok ys ↔ List.Forall₂ (fun x y => f x = .ok y) xs ys := by
  induction xs generalizing ys with
  | nil => cases ys <;> simp [pure, Except.pure]
  | cons x xs ih =>
    rw [List.mapM_cons]
    cases hx : f x with
    | error e => cases ys <;> simp [bind, Except.bind, hx]
    | ok y =>
      cases hxs : xs.mapM f with
      | error e => cases ys <;> simp [bind, Except.bind, hx, ← ih, hxs]
      | ok rest => cases ys <;> simp [bind, Except.bind, pure, Except.pure, hx, ← ih, hxs]

theorem mapM_eq_error_of_first (hbefore : ∀ x ∈ before, ∃ y, f x = .ok y) (hx : f x = .error e) :
    (before ++ x :: after).mapM f = .error e := by
  induction before with
  | nil =>
    rw [List.nil_append, List.mapM_cons, hx]
    rfl
  | cons first before ih =>
    obtain ⟨⟨y, hy⟩, hbefore⟩ := List.forall_mem_cons.mp hbefore
    rw [List.cons_append, List.mapM_cons, hy, ih hbefore]
    rfl

theorem exists_first_of_mapM_eq_error (h : xs.mapM f = .error e) : ∃ before x after,
    xs = before ++ x :: after ∧ (∀ x ∈ before, ∃ y, f x = .ok y) ∧ f x = .error e := by
  induction xs with
  | nil => cases h
  | cons x xs ih =>
    rw [List.mapM_cons] at h
    cases hx : f x with
    | error e' =>
      rw [hx] at h
      cases h
      exact ⟨[], x, xs, rfl, nofun, hx⟩
    | ok y =>
      rw [hx] at h
      cases hxs : xs.mapM f with
      | error e' =>
        rw [hxs] at h
        cases h
        obtain ⟨before, x', after, rfl, hbefore, hfault⟩ := ih hxs
        exact ⟨x :: before, x', after, rfl, List.forall_mem_cons.mpr ⟨⟨y, hx⟩, hbefore⟩, hfault⟩
      | ok ys =>
        rw [hxs] at h
        cases h

/-- The step can be taken for all members exactly if it can be taken for each. -/
theorem exists_mapM_eq_ok_iff : (∃ ys, xs.mapM f = .ok ys) ↔ ∀ x ∈ xs, ∃ y, f x = .ok y := by
  constructor
  · rintro ⟨ys, h⟩
    exact ((List.forall₂_and_left xs ys).mp
      ((mapM_eq_ok_iff.mp h).imp fun x y hx => ⟨⟨y, hx⟩, hx⟩)).1
  · intro h
    cases hxs : xs.mapM f with
    | ok ys => exact ⟨ys, rfl⟩
    | error e =>
      obtain ⟨before, x, after, rfl, -, hx⟩ := exists_first_of_mapM_eq_error hxs
      obtain ⟨y, hy⟩ := h x (List.mem_append_right _ List.mem_cons_self)
      cases hx.symm.trans hy

end SshTunnels
