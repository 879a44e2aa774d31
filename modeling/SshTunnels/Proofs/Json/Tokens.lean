import SshTunnels.Json.Reader
import SshTunnels.Json.Writer
import SshTunnels.Proofs.Text.Identifiers
import SshTunnels.Proofs.Text.Numerals

/-!
# Reading strings and numbers

What is written in quotes is read back character by character, whatever the characters are, and a
number is read back from its spelling.
-/

namespace SshTunnels.Json

open Text

/-! ## Strings -/

/-- A character is read back from what stands for it in a string. -/
theorem readPieces_escape (c : Char) {rest after : List Char} {pieces : List Piece}
    (h : readPieces rest = some (pieces, after)) :
    readPieces (escape c ++ rest) = some (.char c :: pieces, after) := by
  unfold escape
  iterate 7
    split
    · next hc => simp [readPieces, h, hc]
  split
  · next hcontrol =>
    obtain ⟨x, y, z, w, hfour⟩ := List.length_eq_four.mp (length_digits 16 4 c.toNat)
    have hcode : ofHex? [x, y, z, w] = some c.toNat := hfour ▸ ofHex?_digits (by omega)
    have hwhole : ¬ (0xD800 ≤ c.toNat ∧ c.toNat < 0xE000) := by omega
    simp [hfour, readPieces, hcode, h, hwhole, Char.ofNat_toNat]
  · next hquote hslash _ _ _ _ _ hprint =>
    rw [List.singleton_append, readPieces]
    all_goals simp_all

theorem readPieces_chars (cs rest : List Char) :
    readPieces (cs.flatMap escape ++ '"' :: rest) = some (cs.map .char, rest) := by
  induction cs with
  | nil => rfl
  | cons c cs ih =>
    rw [List.flatMap_cons, List.append_assoc]
    exact readPieces_escape c ih

theorem joinPieces_chars (cs : List Char) : joinPieces (cs.map .char) = some cs := by
  induction cs with
  | nil => rfl
  | cons c cs ih => rw [List.map_cons, joinPieces, ih, Option.map_some]

theorem ofPieces_chars (text : String) : ofPieces (text.toList.map .char) = .string text := by
  rw [ofPieces, joinPieces_chars]
  exact congrArg Json.string String.ofList_toList

/-! ## Numbers -/

/-- What may follow a value: the end of the text, a comma or a closing bracket or brace. -/
def Follows (rest : List Char) : Prop :=
  ∀ c, rest.head? = some c → c = ',' ∨ c = ']' ∨ c = '\x7d'

/-- A number is spelled plainly: with an exponent only if that shows. -/
def Number.plain (n : Number) : Bool :=
  !n.integral || n.exponent == 0

theorem spanDigits_digits (width n : Nat) {rest : List Char}
    (hrest : rest.head?.all fun c => !c.isDigit) :
    spanDigits (digits 10 width n ++ rest) = (digits 10 width n, rest) := by
  rw [spanDigits, takeWhile_digits width n hrest, dropWhile_digits width n hrest]

/-- An exponent is read back, its sign included. -/
theorem readExponent_write (e : Int) {rest : List Char}
    (hrest : rest.head?.all fun c => !c.isDigit) :
    readExponent ('e' :: ((toString e).toList ++ rest)) = some (some e, rest) := by
  have hspan (n : Nat) : ∃ c cs, (toString n).toList = c :: cs ∧ c.isDigit = true ∧
      ofDecimal (c :: cs) = n ∧ spanDigits (c :: (cs ++ rest)) = (c :: cs, rest) := by
    obtain ⟨width, hlt, -, heq⟩ := toList_toString n
    obtain ⟨c, cs, hcs, hc⟩ := exists_digits_eq_cons (Nat.succ_pos width) n
    have hvalue := ofDecimal_digits hlt
    have hds := spanDigits_digits (width + 1) n hrest
    rw [hcs] at heq hvalue hds
    exact ⟨c, cs, heq, hc, hvalue, hds⟩
  cases e with
  | ofNat n =>
    obtain ⟨c, cs, heq, hc, hvalue, hds⟩ := hspan n
    have htext : (toString (Int.ofNat n)).toList = c :: cs := heq
    have hminus : c ≠ '-' := by rintro rfl; cases hc
    have hplus : c ≠ '+' := by rintro rfl; cases hc
    rw [htext]
    simp [readExponent, hminus, hplus, hds, hvalue]
  | negSucc n =>
    obtain ⟨c, cs, heq, hc, hvalue, hds⟩ := hspan (n + 1)
    have htext : (toString (Int.negSucc n)).toList = '-' :: (toString (n + 1)).toList :=
      String.toList_append
    rw [htext, heq]
    simp [readExponent, hds, hvalue, Int.negSucc_eq]

theorem Follows.not_digit {rest : List Char} (h : Follows rest) :
    rest.head?.all fun c => !c.isDigit := by
  cases rest with
  | nil => rfl
  | cons c rest => rcases h c rfl with rfl | rfl | rfl <;> rfl

theorem readExponent_follows {rest : List Char} (h : Follows rest) :
    readExponent rest = some (none, rest) := by
  cases rest with
  | nil => rfl
  | cons c rest => rcases h c rfl with rfl | rfl | rfl <;> rfl

theorem readFraction_none {rest : List Char} (h : rest.head? ≠ some '.') :
    readFraction rest = some ([], rest) := by
  cases rest with
  | nil => rfl
  | cons c rest =>
    have hc : c ≠ '.' := fun heq => h (congrArg some heq)
    simp [readFraction, hc]

/-- The digits of a number and what follows them, whatever its sign. -/
theorem readNumber_numeral (negative : Bool) (value : Nat) {tail rest : List Char}
    {exponent : Option Int} (htail : tail.head?.all fun c => !c.isDigit && c != '.')
    (hexponent : readExponent tail = some (exponent, rest)) :
    readNumber ((if negative then ['-'] else []) ++ (toString value).toList ++ tail) =
      some (⟨negative, value, exponent.getD 0, exponent.isNone⟩, rest) := by
  obtain ⟨width, hlt, hle, heq⟩ := toList_toString value
  have hdigit : tail.head?.all fun c => !c.isDigit := by
    cases tail with
    | nil => rfl
    | cons c tail => simp_all
  have hpoint : tail.head? ≠ some '.' := by
    cases tail with
    | nil => simp
    | cons c tail => simp_all
  have hspan := spanDigits_digits (width + 1) value hdigit
  have hlead : ¬ (digits 10 (width + 1) value = [] ∨
      ((digits 10 (width + 1) value).head? = some '0' ∧
        1 < (digits 10 (width + 1) value).length)) := by
    rintro (hnil | ⟨hzero, hlong⟩)
    · exact digits_ne_nil (Nat.succ_pos width) value hnil
    · rw [length_digits] at hlong
      exact head?_digits_ne hlt (hle (by omega)) hzero
  have hvalue : ofDecimal (digits 10 (width + 1) value ++ []) = value := by
    rw [List.append_nil, ofDecimal_digits hlt]
  rw [heq]
  cases negative with
  | true =>
    simp only [readNumber, if_true, List.cons_append, List.nil_append, hspan, if_neg hlead,
      readFraction_none hpoint, hexponent, Option.bind_eq_bind, Option.bind_some, hvalue]
    simp
  | false =>
    obtain ⟨c, ds, hcs, hc⟩ := exists_digits_eq_cons (Nat.succ_pos width) value
    have hminus : c ≠ '-' := by rintro rfl; cases hc
    rw [hcs] at hspan hlead hvalue ⊢
    rw [List.cons_append] at hspan
    rw [if_neg Bool.false_ne_true, List.nil_append, List.cons_append, readNumber]
    · simp only [hspan, if_neg hlead, readFraction_none hpoint, hexponent, Option.bind_eq_bind,
        Option.bind_some, hvalue]
      simp
    · simp [hminus]

/-- A number is read back from its spelling. -/
theorem readNumber_write {n : Number} (hn : n.plain = true) {rest : List Char}
    (hrest : Follows rest) : readNumber (n.write ++ rest) = some (n, rest) := by
  obtain ⟨negative, value, exponent, integral⟩ := n
  cases integral with
  | true =>
    have hzero : exponent = 0 := by simpa [Number.plain] using hn
    have htail : rest.head?.all fun c => !c.isDigit && c != '.' := by
      cases rest with
      | nil => rfl
      | cons c rest => rcases hrest c rfl with rfl | rfl | rfl <;> rfl
    have hread := readNumber_numeral negative value htail (readExponent_follows hrest)
    simpa [Number.write, hzero] using hread
  | false =>
    have htail : ('e' :: ((toString exponent).toList ++ rest)).head?.all
        fun c => !c.isDigit && c != '.' := rfl
    have hread := readNumber_numeral negative value htail
      (readExponent_write exponent hrest.not_digit)
    simpa [Number.write] using hread

end SshTunnels.Json
