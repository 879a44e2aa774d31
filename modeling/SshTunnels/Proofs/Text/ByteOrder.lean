import Mathlib.Data.String.Basic
import SshTunnels.Proofs.Key.Wire

/-!
# The order of bytes

Texts are in the order of their bytes (`ofString_lt_iff`). The form of a character begins with a
byte that tells how many bytes follow, more of them behind a greater byte, and the bytes that follow
hold the rest of the character's number, the leading digits first.
-/

namespace SshTunnels.Bytes

variable {m n : Nat} {x y : Bytes} {a b : String}

/-- The first byte decides, or what follows it if it is the same. -/
theorem ofNat_cons_lt (hm : m < 256) (hn : n < 256) (h : m < n ∨ m = n ∧ x < y) :
    UInt8.ofNat m :: x < UInt8.ofNat n :: y := by
  rw [List.cons_lt_cons_iff]
  rcases h with hlt | ⟨rfl, hlt⟩
  · refine .inl ?_
    rwa [UInt8.lt_iff_toNat_lt, UInt8.toNat_ofNat_of_lt' hm, UInt8.toNat_ofNat_of_lt' hn]
  · exact .inr ⟨rfl, hlt⟩

/-! ## Characters -/

/-- The first byte of the form of the character with a number. -/
def leadingByte (n : Nat) : Nat :=
  if n ≤ 0x7F then n else if n ≤ 0x7FF then n / 64 + 0xC0
  else if n ≤ 0xFFFF then n / 4096 + 0xE0 else n / 262144 + 0xF0

/-- The number of bytes that follow it. -/
def followers (n : Nat) : Nat :=
  if n ≤ 0x7F then 0 else if n ≤ 0x7FF then 1 else if n ≤ 0xFFFF then 2 else 3

/-- So many bytes with the last digits of a number, six bits each. -/
def following : (count : Nat) → (n : Nat) → Bytes
  | 0, _ => []
  | count + 1, n => UInt8.ofNat (n / 64 ^ count % 64 + 0x80) :: following count n

theorem toNat_lt (c : Char) : c.toNat < 0x110000 := by
  rcases c.valid with hlow | ⟨-, hhigh⟩
  · exact Nat.lt_trans hlow (by decide)
  · exact hhigh

theorem utf8EncodeChar_eq (c : Char) : String.utf8EncodeChar c =
    UInt8.ofNat (leadingByte c.toNat) :: following (followers c.toNat) c.toNat := by
  have hmax : c.toNat < 0x110000 := toNat_lt c
  have hval : c.val.toNat = c.toNat := rfl
  unfold String.utf8EncodeChar leadingByte followers
  simp only [hval]
  generalize c.toNat = n at hmax
  split
  · rfl
  · split
    · have hlead : n / 64 % 0x20 = n / 64 := by omega
      simp [following, hlead]
    · split
      · have hlead : n / 4096 % 0x10 = n / 4096 := by omega
        simp [following, hlead]
      · have hlead : n / 262144 % 0x08 = n / 262144 := by omega
        simp [following, hlead]

theorem leadingByte_lt (h : n < 0x110000) : leadingByte n < 256 := by
  unfold leadingByte
  split_ifs <;> omega

/-- A greater number has a greater first byte, or more in the bytes that follow it. -/
theorem leadingByte_lt_or (h : m < n) : leadingByte m < leadingByte n ∨
    leadingByte m = leadingByte n ∧ followers m = followers n ∧
      m % 64 ^ followers n < n % 64 ^ followers n := by
  unfold leadingByte followers
  split_ifs <;> simp only [Nat.reducePow, true_and] <;> omega

theorem following_append_lt {count : Nat} (h : m % 64 ^ count < n % 64 ^ count) (x y : Bytes) :
    following count m ++ x < following count n ++ y := by
  induction count with
  | zero => omega
  | succ count ih =>
    rw [Nat.mod_pow_succ, Nat.mod_pow_succ] at h
    have hpos : 0 < 64 ^ count := Nat.pow_pos (by decide)
    have hm := Nat.mod_lt m hpos
    have hn := Nat.mod_lt n hpos
    refine ofNat_cons_lt (by omega) (by omega) ?_
    -- the leading one of the digits decides, or it is the same and the others decide
    rcases Nat.lt_trichotomy (m / 64 ^ count % 64) (n / 64 ^ count % 64) with hlt | heq | hgt
    · exact .inl (by omega)
    · rw [heq] at h ⊢
      exact .inr ⟨rfl, ih (by omega)⟩
    · have hmore := Nat.mul_le_mul_left (64 ^ count) (Nat.succ_le_of_lt hgt)
      rw [Nat.succ_eq_add_one, Nat.mul_add_one] at hmore
      omega

/-- Of two characters the smaller one has the smaller form, whatever follows. -/
theorem utf8EncodeChar_append_lt {c d : Char} (h : c < d) (x y : Bytes) :
    String.utf8EncodeChar c ++ x < String.utf8EncodeChar d ++ y := by
  have hlt : c.toNat < d.toNat := h
  rw [utf8EncodeChar_eq, utf8EncodeChar_eq]
  refine ofNat_cons_lt (leadingByte_lt (toNat_lt c)) (leadingByte_lt (toNat_lt d)) ?_
  rcases leadingByte_lt_or hlt with hlead | ⟨hlead, hcount, hrest⟩
  · exact .inl hlead
  · rw [hcount]
    exact .inr ⟨hlead, following_append_lt hrest x y⟩

/-! ## Texts -/

theorem ofString_eq_flatMap (a : String) : ofString a = a.toList.flatMap String.utf8EncodeChar := by
  rw [ofString_eq]
  conv => lhs; rw [← String.ofList_toList (s := a)]
  rw [String.toByteArray_ofList, List.utf8Encode, List.data_toByteArray]

theorem flatMap_utf8EncodeChar_lt {cs ds : List Char} (h : cs < ds) :
    cs.flatMap String.utf8EncodeChar < ds.flatMap String.utf8EncodeChar := by
  induction cs generalizing ds with
  | nil =>
    cases ds with
    | nil => exact absurd h (List.lt_irrefl _)
    | cons d ds =>
      rw [List.flatMap_nil, List.flatMap_cons, utf8EncodeChar_eq]
      exact List.nil_lt_cons _ _
  | cons c cs ih =>
    cases ds with
    | nil => exact absurd h (List.not_lt_nil _)
    | cons d ds =>
      rw [List.flatMap_cons, List.flatMap_cons]
      rcases List.cons_lt_cons_iff.mp h with hlt | ⟨rfl, hlt⟩
      · exact utf8EncodeChar_append_lt hlt _ _
      · exact List.append_left_lt (ih hlt)

/-- The order of texts is that of their bytes. -/
theorem ofString_lt_iff : ofString a < ofString b ↔ a < b := by
  have hlt {a b : String} (h : a < b) : ofString a < ofString b := by
    rw [ofString_eq_flatMap, ofString_eq_flatMap]
    exact flatMap_utf8EncodeChar_lt (String.lt_iff_toList_lt.mp h)
  refine ⟨fun h => ?_, hlt⟩
  rcases lt_trichotomy a b with hab | rfl | hba
  · exact hab
  · exact absurd h (List.lt_irrefl _)
  · exact absurd (List.lt_trans h (hlt hba)) (List.lt_irrefl _)

end SshTunnels.Bytes
