import SshTunnels.Text.Base64

/-!
# Reading base64

Bytes are read back from their base64 (`decode_encode`), whose characters are digits but for the
padding in its last group.
-/

namespace SshTunnels.Base64

theorem digitValue?_digitChar {n : Nat} (h : n < 64) : digitValue? (digitChar n) = some n := by
  have hall : ∀ n : Fin 64, digitValue? (digitChar n) = some n.val := by decide
  exact hall ⟨n, h⟩

theorem digitChar_ne_pad {n : Nat} (h : n < 64) : digitChar n ≠ '=' := by
  have hall : ∀ n : Fin 64, digitChar n ≠ '=' := by decide
  exact hall ⟨n, h⟩

variable {a b c d : Nat}

/-- Three bytes as four digits. -/
theorem decodeGroup_three (ha : a < 64) (hb : b < 64) (hc : c < 64) (hd : d < 64) :
    decodeGroup (digitChar a) (digitChar b) (digitChar c) (digitChar d) =
      some [UInt8.ofNat (a * 4 + b / 16), UInt8.ofNat (b * 16 + c / 4), UInt8.ofNat (c * 64 + d)] := by
  simp [decodeGroup, digitValue?_digitChar, digitChar_ne_pad, ha, hb, hc, hd]

/-- Two bytes as three digits, the last of which has two unused bits. -/
theorem decodeGroup_two (ha : a < 64) (hb : b < 64) (hc : c < 64) (hz : c % 4 = 0) :
    decodeGroup (digitChar a) (digitChar b) (digitChar c) '=' =
      some [UInt8.ofNat (a * 4 + b / 16), UInt8.ofNat (b * 16 + c / 4)] := by
  simp [decodeGroup, digitValue?_digitChar, digitChar_ne_pad, ha, hb, hc, hz]

/-- One byte as two digits, the last of which has four unused bits. -/
theorem decodeGroup_one (ha : a < 64) (hb : b < 64) (hz : b % 16 = 0) :
    decodeGroup (digitChar a) (digitChar b) '=' '=' = some [UInt8.ofNat (a * 4 + b / 16)] := by
  simp [decodeGroup, digitValue?_digitChar, ha, hb, hz]

theorem ofNat_eq {n : Nat} {b : UInt8} (h : n % 256 = b.toNat) : UInt8.ofNat n = b :=
  UInt8.toNat_inj.mp (by simpa using h)

theorem decodeGroups_encode : (bytes : Bytes) → decodeGroups (encode bytes) = some bytes
  | [] => rfl
  | [x] => by
    have hx := x.toNat_lt
    rw [encode, decodeGroups, decodeGroup_one (by omega) (by omega) (by omega),
      ofNat_eq (b := x) (by omega)]
    rfl
  | [x, y] => by
    have hx := x.toNat_lt
    have hy := y.toNat_lt
    rw [encode, decodeGroups, decodeGroup_two (by omega) (by omega) (by omega) (by omega),
      ofNat_eq (b := x) (by omega), ofNat_eq (b := y) (by omega)]
    rfl
  | x :: y :: z :: rest => by
    have hx := x.toNat_lt
    have hy := y.toNat_lt
    have hz := z.toNat_lt
    rw [encode, decodeGroups, decodeGroup_three (by omega) (by omega) (by omega) (by omega),
      ofNat_eq (b := x) (by omega), ofNat_eq (b := y) (by omega), ofNat_eq (b := z) (by omega),
      decodeGroups_encode rest]
    rfl

/-- Every character is a digit or padding. -/
theorem mem_encode {c : Char} : (bytes : Bytes) → c ∈ encode bytes →
    c = '=' ∨ ∃ n < 64, c = digitChar n
  | [], h => nomatch h
  | [x], h => by
    have hx := x.toNat_lt
    simp only [encode, List.mem_cons, List.not_mem_nil, or_false] at h
    rcases h with rfl | rfl | rfl | rfl
    · exact .inr ⟨_, by omega, rfl⟩
    · exact .inr ⟨_, by omega, rfl⟩
    · exact .inl rfl
    · exact .inl rfl
  | [x, y], h => by
    have hx := x.toNat_lt
    have hy := y.toNat_lt
    simp only [encode, List.mem_cons, List.not_mem_nil, or_false] at h
    rcases h with rfl | rfl | rfl | rfl
    · exact .inr ⟨_, by omega, rfl⟩
    · exact .inr ⟨_, by omega, rfl⟩
    · exact .inr ⟨_, by omega, rfl⟩
    · exact .inl rfl
  | x :: y :: z :: rest, h => by
    have hx := x.toNat_lt
    have hy := y.toNat_lt
    have hz := z.toNat_lt
    simp only [encode, List.mem_cons] at h
    rcases h with rfl | rfl | rfl | rfl | h
    · exact .inr ⟨_, by omega, rfl⟩
    · exact .inr ⟨_, by omega, rfl⟩
    · exact .inr ⟨_, by omega, rfl⟩
    · exact .inr ⟨_, by omega, rfl⟩
    · exact mem_encode rest h

/-- What is written is not empty, and its last group has four characters. -/
theorem four_le_length_encode {bytes : Bytes} (h : bytes ≠ []) : 4 ≤ (encode bytes).length := by
  match bytes, h with
  | [_], _ | [_, _], _ => exact Nat.le_refl 4
  | _ :: _ :: _ :: _, _ => exact Nat.le_add_left 4 _

/-- Only the last group is padded. -/
theorem pad_not_mem_take : (bytes : Bytes) →
    '=' ∉ (encode bytes).take ((encode bytes).length - 4)
  | [] | [_] | [_, _] | [_, _, _] => List.not_mem_nil
  | x :: y :: z :: w :: rest => by
    have hlen := four_le_length_encode (List.cons_ne_nil w rest)
    have hx := x.toNat_lt
    have hy := y.toNat_lt
    have hz := z.toNat_lt
    rw [encode]
    generalize hmore : encode (w :: rest) = more at hlen
    have hrest : '=' ∉ more.take (more.length - 4) := hmore ▸ pad_not_mem_take (w :: rest)
    simp only [List.length_cons]
    rw [show more.length + 1 + 1 + 1 + 1 - 4 = more.length - 4 + 4 by omega]
    simp only [List.take_succ_cons, List.mem_cons, not_or]
    exact ⟨(digitChar_ne_pad (by omega)).symm, (digitChar_ne_pad (by omega)).symm,
      (digitChar_ne_pad (by omega)).symm, (digitChar_ne_pad (by omega)).symm, hrest⟩

/-- Bytes are read back from their base64. -/
theorem decode_encode (bytes : Bytes) : decode (encode bytes) = some bytes := by
  have hpad := pad_not_mem_take bytes
  rw [decode, if_neg (by simpa using hpad), decodeGroups_encode]

end SshTunnels.Base64
