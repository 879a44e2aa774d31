import SshTunnels.Proofs.Text.Padded
import SshTunnels.Text.Blank

/-!
# Reading numerals

A numeral is found at the start of a text as the digits that stand there, and those give the number
back that they were written for.
-/

namespace SshTunnels.Text

theorem isDigit_digitChar {n : Nat} (h : n < 10) : (digitChar n).isDigit = true := by
  decide +revert

theorem isDigit_of_mem_digits {width n : Nat} {c : Char} (h : c ∈ digits 10 width n) :
    c.isDigit = true := by
  induction width generalizing n with
  | zero => cases h
  | succ width ih =>
    rw [digits, List.mem_append, List.mem_singleton] at h
    rcases h with h | rfl
    · exact ih h
    · exact isDigit_digitChar (Nat.mod_lt n (by decide))

theorem ofDecimal_concat (cs : List Char) (c : Char) :
    ofDecimal (cs ++ [c]) = ofDecimal cs * 10 + (c.toNat - 48) := by
  rw [ofDecimal, List.foldl_append]
  rfl

/-- A number that fits is read back from its digits. -/
theorem ofDecimal_digits {width n : Nat} (h : n < 10 ^ width) :
    ofDecimal (digits 10 width n) = n := by
  induction width generalizing n with
  | zero =>
    rw [Nat.pow_zero] at h
    rw [Nat.lt_one_iff.mp h]
    rfl
  | succ width ih =>
    rw [Nat.pow_succ] at h
    have hlast := toNat_digitChar (Nat.mod_lt n (show 0 < 10 by decide))
    rw [digits, ofDecimal_concat, ih (by omega), hlast]
    omega

/-- A number is written with as many digits as it has. -/
theorem exists_toDigits_eq (n : Nat) : ∃ width, n < 10 ^ (width + 1) ∧
    (0 < width → 10 ^ width ≤ n) ∧ Nat.toDigits 10 n = digits 10 (width + 1) n := by
  induction n using Nat.strongRecOn with
  | ind n ih =>
    rw [Nat.toDigits_eq_if (by decide)]
    split
    · next hsmall =>
      refine ⟨0, by omega, nofun, ?_⟩
      rw [digits, digits, Nat.mod_eq_of_lt hsmall, digitChar_eq hsmall]
      rfl
    · next hlarge =>
      obtain ⟨width, hlt, hle, hdigits⟩ := ih (n / 10) (by omega)
      have hlast : n % 10 < 10 := Nat.mod_lt n (by decide)
      refine ⟨width + 1, by rw [Nat.pow_succ]; omega, fun _ => ?_, ?_⟩
      · rcases Nat.eq_zero_or_pos width with rfl | hpos
        · omega
        · have := hle hpos
          rw [Nat.pow_succ]
          omega
      · rw [hdigits, ← digitChar_eq hlast]
        rfl

theorem toList_toString (n : Nat) :
    ∃ width, n < 10 ^ (width + 1) ∧ (0 < width → 10 ^ width ≤ n) ∧
      (toString n).toList = digits 10 (width + 1) n := by
  obtain ⟨width, hlt, hle, heq⟩ := exists_toDigits_eq n
  exact ⟨width, hlt, hle, Nat.toList_repr.trans heq⟩

/-- A numeral of more than one digit has no zero in front. -/
theorem head?_digits_ne {width n : Nat} (h : n < 10 ^ (width + 1)) (hle : 10 ^ width ≤ n) :
    (digits 10 (width + 1) n).head? ≠ some '0' := by
  have hlead : n / 10 ^ width < 10 := by
    rw [Nat.div_lt_iff_lt_mul (Nat.pow_pos (by decide)), Nat.mul_comm, ← Nat.pow_succ]
    exact h
  have hpos : 0 < n / 10 ^ width := Nat.div_pos hle (Nat.pow_pos (by decide))
  rw [Nat.add_comm, digits_add, digits, digits, Nat.mod_eq_of_lt hlead]
  have hnever : ∀ d < 10, 0 < d → digitChar d ≠ '0' := by decide
  simpa using hnever _ hlead hpos

/-- All digits in front of what begins with none are taken. -/
theorem takeWhile_digits (width n : Nat) {rest : List Char}
    (hrest : rest.head?.all fun c => !c.isDigit) :
    (digits 10 width n ++ rest).takeWhile Char.isDigit = digits 10 width n := by
  have hnone : rest.takeWhile Char.isDigit = [] := by
    cases rest with
    | nil => rfl
    | cons c rest =>
      have hc : c.isDigit = false := by simpa using hrest
      rw [List.takeWhile_cons, hc]
      rfl
  rw [List.takeWhile_append_of_pos fun c hc => isDigit_of_mem_digits hc, hnone, List.append_nil]

theorem dropWhile_digits (width n : Nat) {rest : List Char}
    (hrest : rest.head?.all fun c => !c.isDigit) :
    (digits 10 width n ++ rest).dropWhile Char.isDigit = rest := by
  have hnone : rest.dropWhile Char.isDigit = rest := by
    cases rest with
    | nil => rfl
    | cons c rest =>
      have hc : c.isDigit = false := by simpa using hrest
      rw [List.dropWhile_cons, hc]
      rfl
  rw [List.dropWhile_append_of_pos fun c hc => isDigit_of_mem_digits hc, hnone]

theorem isBlank_of_isDigit {c : Char} (h : c.isDigit = true) : isBlank c = false := by
  have hrange : 48 ≤ c.toNat ∧ c.toNat ≤ 57 := by
    simp only [Char.isDigit, Bool.and_eq_true, decide_eq_true_eq] at h
    exact h
  simp [isBlank]
  omega

theorem digits_ne_nil {width : Nat} (hw : 0 < width) (n : Nat) : digits 10 width n ≠ [] := by
  intro hnil
  have hlen := length_digits 10 width n
  rw [hnil] at hlen
  exact Nat.ne_of_lt hw hlen

/-- A numeral begins with a digit. -/
theorem exists_digits_eq_cons {width : Nat} (hw : 0 < width) (n : Nat) :
    ∃ c cs, digits 10 width n = c :: cs ∧ c.isDigit = true := by
  obtain ⟨c, cs, hcs⟩ := List.exists_cons_of_ne_nil (digits_ne_nil hw n)
  exact ⟨c, cs, hcs, isDigit_of_mem_digits (hcs ▸ List.mem_cons_self)⟩

/-- The text of a number begins with a digit and has nothing but digits. -/
theorem exists_toList_eq_cons (n : Nat) : ∃ c cs, (toString n).toList = c :: cs ∧
    c.isDigit = true ∧ ((c :: cs).all Char.isDigit = true) ∧ ofDecimal (c :: cs) = n := by
  obtain ⟨width, hlt, -, heq⟩ := toList_toString n
  obtain ⟨c, cs, hcs, hc⟩ := exists_digits_eq_cons (Nat.succ_pos width) n
  rw [heq, hcs]
  refine ⟨c, cs, rfl, hc, List.all_eq_true.mpr fun x hx => ?_, ?_⟩
  · exact isDigit_of_mem_digits (hcs ▸ hx)
  · rw [← hcs, ofDecimal_digits hlt]

theorem trimStart_digits {width : Nat} (hw : 0 < width) (n : Nat) (rest : List Char) :
    trimStart (digits 10 width n ++ rest) = digits 10 width n ++ rest := by
  obtain ⟨c, cs, hcs, hc⟩ := exists_digits_eq_cons hw n
  rw [hcs, List.cons_append, trimStart, List.dropWhile_cons, isBlank_of_isDigit hc]
  rfl

end SshTunnels.Text
