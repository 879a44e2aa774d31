import SshTunnels.Proofs.Text.Identifiers
import SshTunnels.Text.Percent

/-!
# Reading percent encoding

Every byte is read back from its encoding, whatever follows (`percentDecode_percentEncode`), and the
marks that divide a URL do not occur in what is encoded.
-/

namespace SshTunnels.Text

/-- A mark that divides a URL into its parts. -/
def isDivider (c : Char) : Bool :=
  c == '/' || c == '?' || c == '%'

theorem hexValue?_toUpper {n : Nat} (h : n < 16) :
    hexValue? (digitChar n).toUpper = some n ∧ isDivider (digitChar n).toUpper = false := by
  decide +revert

/-- A byte that stands for itself. -/
theorem plain_ofNat {n : Nat} (hn : n < 256) (h : isPlainInPath (UInt8.ofNat n) = true) :
    isDivider (Char.ofNat n) = false ∧
      Bytes.ofString (String.singleton (Char.ofNat n)) = [UInt8.ofNat n] := by
  have hall : ∀ n : Fin 256, isPlainInPath (UInt8.ofNat n) = true →
      isDivider (Char.ofNat n) = false ∧
        Bytes.ofString (String.singleton (Char.ofNat n)) = [UInt8.ofNat n] := by decide +kernel
  exact hall ⟨n, hn⟩ h

theorem percentByte_eq (b : UInt8) : percentByte b =
    ['%', (digitChar (b.toNat / 16 % 16)).toUpper, (digitChar (b.toNat % 16)).toUpper] := rfl

theorem percentDecode_nil : percentDecode [] = [] := by
  rw [percentDecode]

theorem percentDecode_cons {c : Char} (h : c ≠ '%') (rest : List Char) :
    percentDecode (c :: rest) = Bytes.ofString (String.singleton c) ++ percentDecode rest := by
  rw [percentDecode]
  exact fun _ _ _ heq _ => h heq

theorem percentDecode_percentByte (b : UInt8) (rest : List Char) :
    percentDecode (percentByte b ++ rest) = b :: percentDecode rest := by
  have hb : b.toNat < 256 := b.toNat_lt
  have hhigh := (hexValue?_toUpper (n := b.toNat / 16 % 16) (by omega)).1
  have hlow := (hexValue?_toUpper (n := b.toNat % 16) (by omega)).1
  have hnumber : 16 * (b.toNat / 16 % 16) + b.toNat % 16 = b.toNat := by omega
  rw [percentByte_eq, List.cons_append, List.cons_append, List.cons_append, List.nil_append,
    percentDecode, hhigh, hlow]
  simp only [hnumber, UInt8.ofNat_toNat]

theorem percentDecode_percentEncode (bytes : Bytes) (rest : List Char) :
    percentDecode (percentEncode bytes ++ rest) = bytes ++ percentDecode rest := by
  induction bytes with
  | nil => rfl
  | cons b bytes ih =>
    rw [percentEncode, List.flatMap_cons, List.append_assoc]
    split
    · next hplain =>
      obtain ⟨hdivider, hbytes⟩ := plain_ofNat b.toNat_lt (by rwa [UInt8.ofNat_toNat])
      rw [UInt8.ofNat_toNat] at hbytes
      rw [List.singleton_append, percentDecode_cons (by rintro heq; simp [heq, isDivider] at hdivider),
        hbytes]
      exact congrArg (b :: ·) ih
    · rw [percentDecode_percentByte]
      exact congrArg (b :: ·) ih

/-- No divider but the percent sign occurs in what is encoded. -/
theorem ne_of_mem_percentEncode {bytes : Bytes} {c : Char} (h : c ∈ percentEncode bytes) :
    c ≠ '/' ∧ c ≠ '?' := by
  have hne {c : Char} (hd : isDivider c = false) : c ≠ '/' ∧ c ≠ '?' := by
    simp only [isDivider, Bool.or_eq_false_iff, beq_eq_false_iff_ne] at hd
    exact hd.1
  obtain ⟨b, -, hc⟩ := List.mem_flatMap.mp h
  split at hc
  · next hplain =>
    rw [List.mem_singleton.mp hc]
    exact hne (plain_ofNat b.toNat_lt (by rwa [UInt8.ofNat_toNat])).1
  · rw [percentByte_eq, List.mem_cons, List.mem_cons, List.mem_singleton] at hc
    rcases hc with rfl | rfl | rfl
    · decide
    · exact hne (hexValue?_toUpper (Nat.mod_lt _ (by decide))).2
    · exact hne (hexValue?_toUpper (Nat.mod_lt _ (by decide))).2

end SshTunnels.Text
