import SshTunnels.Proofs.Text.Padded
import SshTunnels.Uuid

/-!
# Reading identifiers

Hexadecimal digits give the number back that they were written for, so an identifier is read back
from its text (`Uuid.ofString?_text`).
-/

namespace SshTunnels

namespace Text

theorem hexValue?_digitChar {n : Nat} (h : n < 16) : hexValue? (digitChar n) = some n := by
  decide +revert

theorem ofHex?_concat (cs : List Char) (c : Char) :
    ofHex? (cs ++ [c]) = (ofHex? cs).bind fun n => (hexValue? c).map (n * 16 + ·) := by
  simp [ofHex?, List.foldlM_append]

/-- A number that fits is read back from its hexadecimal digits. -/
theorem ofHex?_digits {width n : Nat} (h : n < 16 ^ width) :
    ofHex? (digits 16 width n) = some n := by
  induction width generalizing n with
  | zero =>
    rw [Nat.pow_zero] at h
    rw [Nat.lt_one_iff.mp h]
    rfl
  | succ width ih =>
    rw [Nat.pow_succ] at h
    rw [digits, ofHex?_concat, ih (by omega), hexValue?_digitChar (Nat.mod_lt n (by decide)),
      Option.bind_some, Option.map_some]
    congr 1
    omega

theorem exists_digitChar_of_mem {base width n : Nat} (hbase : 0 < base) {c : Char}
    (h : c ∈ digits base width n) : ∃ d < base, c = digitChar d := by
  induction width generalizing n with
  | zero => cases h
  | succ width ih =>
    rw [digits, List.mem_append, List.mem_singleton] at h
    rcases h with h | rfl
    · exact ih h
    · exact ⟨n % base, Nat.mod_lt n hbase, rfl⟩

end Text

namespace Uuid

open Text

/-- The hyphens stand where they are skipped. -/
theorem ofHyphenated?_hyphenate {cs : List Char} (h : cs.length = 32) :
    ofHyphenated? (hyphenate cs) = ofDigits? cs := by
  have hcut (k : Nat) : (cs.drop k).take 4 ++ cs.drop (k + 4) = cs.drop k := by
    rw [← List.drop_drop, List.take_append_drop]
  have hwhole : cs.take 8 ++ ((cs.drop 8).take 4 ++ ((cs.drop 12).take 4 ++
      ((cs.drop 16).take 4 ++ cs.drop 20))) = cs := by
    rw [hcut 16, hcut 12, hcut 8, List.take_append_drop]
  have hbare : (hyphenate cs).take 8 ++ ((hyphenate cs).drop 9).take 4 ++
      ((hyphenate cs).drop 14).take 4 ++ ((hyphenate cs).drop 19).take 4 ++
        (hyphenate cs).drop 24 = cs := by
    simpa [hyphenate, List.take_append, List.drop_append, List.drop_take, h] using hwhole
  rw [ofHyphenated?, hbare, if_pos rfl]

theorem ofDigits?_digits (id : Uuid) : ofDigits? (digits 16 32 id.toNat) = some id := by
  have hsize : id.toNat < 16 ^ 32 := id.bits.isLt
  rw [ofDigits?, if_pos (length_digits 16 32 id.toNat), ofHex?_digits hsize, Option.map_some]
  simp [ofNat, toNat]

/-- Only hyphens are added. -/
theorem mem_hyphenate {cs : List Char} {c : Char} (h : c ∈ hyphenate cs) : c = '-' ∨ c ∈ cs := by
  simp only [hyphenate, List.mem_append, List.mem_cons] at h
  rcases h with (((h | h | h) | h | h) | h | h) | h | h
  · exact .inr (List.mem_of_mem_take h)
  · exact .inl h
  · exact .inr (List.mem_of_mem_drop (List.mem_of_mem_take h))
  · exact .inl h
  · exact .inr (List.mem_of_mem_drop (List.mem_of_mem_take h))
  · exact .inl h
  · exact .inr (List.mem_of_mem_drop (List.mem_of_mem_take h))
  · exact .inl h
  · exact .inr (List.mem_of_mem_drop h)

theorem length_hyphenate {cs : List Char} (h : cs.length = 32) : (hyphenate cs).length = 36 := by
  simp [hyphenate, h]

/-- An identifier is read back from its text. -/
theorem ofString?_text (id : Uuid) : ofString? id.text = some id := by
  have hlen : (digits 16 32 id.toNat).length = 32 := length_digits 16 32 id.toNat
  have hread := (ofHyphenated?_hyphenate hlen).trans id.ofDigits?_digits
  have hlong := length_hyphenate hlen
  rw [ofString?, text, String.toList_ofList]
  split
  · next rest heq =>
    have hhead := congrArg List.head? heq
    obtain ⟨c, cs, hcs⟩ := List.exists_cons_of_length_eq_add_one hlen
    rw [hcs] at hhead
    obtain ⟨d, hd, rfl⟩ := exists_digitChar_of_mem (by decide) (hcs ▸ List.mem_cons_self)
    have hbrace : digitChar d = '\x7b' := by simpa [hyphenate] using hhead
    have hnever : ∀ d < 16, digitChar d ≠ '\x7b' := by decide
    exact absurd hbrace (hnever d hd)
  · rw [if_neg (by omega), if_neg (by omega), hread]

end Uuid
end SshTunnels
