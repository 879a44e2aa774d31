import Mathlib.Data.List.Lex
import Mathlib.Data.String.Basic
import SshTunnels.Text.Digits

/-!
# Padded numerals

Numerals of one width are in the order of their numbers, so texts that are made of them are in the
order of what they say, field by field.
-/

namespace SshTunnels.Text

/-- Texts of one length decide the order of what begins with them. -/
theorem append_lt_append {l l' : List Char} (h : l < l') (hlen : l.length = l'.length)
    (x y : List Char) : l ++ x < l' ++ y := by
  induction l generalizing l' with
  | nil =>
    cases l' with
    | nil => exact absurd h (lt_irrefl _)
    | cons c l' => cases hlen
  | cons c l ih =>
    cases l' with
    | nil => cases hlen
    | cons c' l' =>
      rw [List.cons_append, List.cons_append, List.cons_lt_cons_iff]
      rcases List.cons_lt_cons_iff.mp h with hlt | ⟨rfl, hlt⟩
      · exact .inl hlt
      · exact .inr ⟨rfl, ih hlt (Nat.succ.inj hlen)⟩

theorem length_digits (base width n : Nat) : (digits base width n).length = width := by
  induction width generalizing n with
  | zero => rfl
  | succ width ih => rw [digits, List.length_append, ih, List.length_singleton]

theorem digits_zero (width : Nat) : digits 10 width 0 = List.replicate width '0' := by
  induction width with
  | zero => rfl
  | succ width ih =>
    rw [digits, ih, List.replicate_succ']
    rfl

/-- A numeral is that of the leading digits and that of the others. -/
theorem digits_add (base w v n : Nat) :
    digits base (w + v) n = digits base w (n / base ^ v) ++ digits base v (n % base ^ v) := by
  induction v generalizing n with
  | zero => simp [digits]
  | succ v ih =>
    have hlead : n / base / base ^ v = n / base ^ (v + 1) := by
      rw [Nat.div_div_eq_div_mul, Nat.pow_succ']
    have hrest : n / base % base ^ v = n % base ^ (v + 1) / base := by
      rw [Nat.pow_succ', Nat.mod_mul_right_div_self]
    have hlast : n % base ^ (v + 1) % base = n % base :=
      Nat.mod_mod_of_dvd n (Nat.dvd_mul_left base (base ^ v))
    rw [← Nat.add_assoc, digits, ih, hlead, hrest, List.append_assoc, digits, hlast]

theorem toNat_digitChar {n : Nat} (h : n < 10) : (digitChar n).toNat = 48 + n := by
  decide +revert

theorem digitChar_eq {n : Nat} (h : n < 10) : digitChar n = n.digitChar := by
  decide +revert

theorem digitChar_lt {a b : Nat} (h : a < b) (hb : b < 10) : digitChar a < digitChar b := by
  have ha := toNat_digitChar (Nat.lt_trans h hb)
  have hb := toNat_digitChar hb
  show (digitChar a).toNat < (digitChar b).toNat
  omega

/-- A number that fits is written with all of its digits. -/
theorem toList_padded {width n : Nat} (hw : 0 < width) (h : n < 10 ^ width) :
    (padded width n).toList = digits 10 width n := by
  have hdigits : (toString n).toList = Nat.toDigits 10 n := Nat.toList_repr
  rw [padded, String.toList_ofList, hdigits]
  induction width generalizing n with
  | zero => omega
  | succ width ih =>
    rw [digits, digitChar_eq (Nat.mod_lt n (by decide)), Nat.toDigits_eq_if (by decide)]
    split
    · next hsmall =>
      rw [Nat.div_eq_of_lt hsmall, Nat.mod_eq_of_lt hsmall, digits_zero]
      rfl
    · next hlarge =>
      have hlast : 0 < width := by
        rcases Nat.eq_zero_or_pos width with rfl | hpos
        · omega
        · exact hpos
      rw [← ih hlast (by omega) Nat.toList_repr, List.length_append, List.length_singleton,
        Nat.add_sub_add_right, List.append_assoc]

/-- Of two numbers that fit, the smaller one has the smaller numeral. -/
theorem digits_lt {width a b : Nat} (h : a < b) (hb : b < 10 ^ width) :
    digits 10 width a < digits 10 width b := by
  induction width generalizing a b with
  | zero => omega
  | succ width ih =>
    rw [digits, digits]
    rcases Nat.lt_or_eq_of_le (Nat.div_le_div_right (c := 10) (Nat.le_of_lt h)) with hlt | heq
    · refine append_lt_append (ih hlt (by omega)) ?_ _ _
      rw [length_digits, length_digits]
    · rw [heq]
      refine List.append_left_lt ?_
      rw [List.cons_lt_cons_iff]
      exact .inl (digitChar_lt (by omega) (Nat.mod_lt _ (by decide)))

/-- Texts that begin with a number that fits are in the order of the number, and then of what
follows it. -/
theorem digits_append_lt {width a b : Nat} {x y : List Char} (hb : b < 10 ^ width)
    (h : a < b ∨ a = b ∧ x < y) : digits 10 width a ++ x < digits 10 width b ++ y := by
  rcases h with hlt | ⟨rfl, hlt⟩
  · refine append_lt_append (digits_lt hlt hb) ?_ x y
    rw [length_digits, length_digits]
  · exact List.append_left_lt hlt

end SshTunnels.Text
