import Mathlib.Data.List.TakeWhile
import SshTunnels.Text.Blank

/-!
# Lines and blanks

A text without line feeds is one line (`lines_eq_singleton`), and a text that neither starts nor
ends with a blank has none around it (`trim_eq_self`). Blanks that are put around a text are trimmed
with those that it has (`trim_append_blanks`, `trim_blanks_append`).
-/

namespace SshTunnels.Text

theorem lines_go_of_not_mem {cs : List Char} (h : '\n' ∉ cs) (line : List Char) :
    lines.go cs line = if cs ++ line = [] then [] else [line.reverse ++ cs] := by
  induction cs generalizing line with
  | nil => cases line <;> simp [lines.go]
  | cons c cs ih =>
    obtain ⟨hc, hcs⟩ := List.ne_and_not_mem_of_not_mem_cons h
    have hgo : lines.go (c :: cs) line = lines.go cs (c :: line) := by
      rw [lines.go]
      · rintro rfl
        exact hc rfl
      · rintro _ - rfl
        exact hc rfl
    simp [hgo, ih hcs]

/-- A text without line feeds is one line. -/
theorem lines_eq_singleton {cs : List Char} (hne : cs ≠ []) (h : '\n' ∉ cs) : lines cs = [cs] := by
  rw [lines, lines_go_of_not_mem h, List.append_nil, if_neg hne]
  rfl

theorem trimStart_eq_self {cs : List Char} (h : ∀ c, cs.head? = some c → isBlank c = false) :
    trimStart cs = cs := by
  cases cs with
  | nil => rfl
  | cons c cs => rw [trimStart, List.dropWhile_cons, if_neg (by simp [h c rfl])]

theorem trimEnd_eq_self {cs : List Char} (h : ∀ c, cs.getLast? = some c → isBlank c = false) :
    trimEnd cs = cs := by
  have hreverse : trimStart cs.reverse = cs.reverse :=
    trimStart_eq_self fun c hc => h c (by rwa [List.head?_reverse] at hc)
  rw [trimEnd, ← trimStart, hreverse, List.reverse_reverse]

/-- A text that neither starts nor ends with a blank. -/
theorem trim_eq_self {cs : List Char} (hstart : ∀ c, cs.head? = some c → isBlank c = false)
    (hend : ∀ c, cs.getLast? = some c → isBlank c = false) : trim cs = cs := by
  rw [trim, trimStart_eq_self hstart, trimEnd_eq_self hend]

theorem trimEnd_append_blanks {bs : List Char} (h : ∀ c ∈ bs, isBlank c = true) (cs : List Char) :
    trimEnd (cs ++ bs) = trimEnd cs := by
  rw [trimEnd, List.reverse_append,
    List.dropWhile_append_of_pos fun c hc => h c (List.mem_reverse.mp hc), trimEnd]

/-- Blanks behind a text are trimmed. -/
theorem trim_append_blanks {bs : List Char} (h : ∀ c ∈ bs, isBlank c = true) (cs : List Char) :
    trim (cs ++ bs) = trim cs := by
  rw [trim, trimStart, List.dropWhile_append]
  split
  · next hcs =>
    rw [trim, trimStart, List.isEmpty_iff.mp hcs, List.dropWhile_eq_nil_iff.mpr h]
  · exact trimEnd_append_blanks h _

/-- Blanks in front of a text are trimmed. -/
theorem trim_blanks_append {bs : List Char} (h : ∀ c ∈ bs, isBlank c = true) (cs : List Char) :
    trim (bs ++ cs) = trim cs := by
  rw [trim, trimStart, List.dropWhile_append_of_pos h]
  rfl

/-- A text is what it is trimmed to with blanks around it. -/
theorem exists_eq_trim (cs : List Char) : ∃ front back, (∀ c ∈ front, isBlank c = true) ∧
    (∀ c ∈ back, isBlank c = true) ∧ cs = front ++ trim cs ++ back := by
  refine ⟨cs.takeWhile isBlank, ((trimStart cs).reverse.takeWhile isBlank).reverse,
    fun c hc => List.mem_takeWhile_imp hc,
    fun c hc => List.mem_takeWhile_imp (List.mem_reverse.mp hc), ?_⟩
  have hend : trimEnd (trimStart cs) ++ ((trimStart cs).reverse.takeWhile isBlank).reverse =
      trimStart cs := by
    rw [trimEnd, ← List.reverse_append, List.takeWhile_append_dropWhile, List.reverse_reverse]
  rw [trim, List.append_assoc, hend, trimStart, List.takeWhile_append_dropWhile]

/-- Only blanks are trimmed. -/
theorem mem_trim_iff {c : Char} (hc : isBlank c = false) {cs : List Char} :
    c ∈ trim cs ↔ c ∈ cs := by
  obtain ⟨front, back, hfront, hback, heq⟩ := exists_eq_trim cs
  refine ⟨fun h => heq ▸ List.mem_append_left back (List.mem_append_right front h), fun h => ?_⟩
  rw [heq, List.mem_append, List.mem_append] at h
  rcases h with (h | h) | h
  · exact Bool.noConfusion (hc.symm.trans (hfront c h))
  · exact h
  · exact Bool.noConfusion (hc.symm.trans (hback c h))

/-- A text that starts with no blank is not all blank. -/
theorem trim_cons_ne_nil {c : Char} (h : isBlank c = false) (cs : List Char) :
    trim (c :: cs) ≠ [] := by
  have hstart : trimStart (c :: cs) = c :: cs := trimStart_eq_self (by rintro _ ⟨⟩; exact h)
  rw [trim, hstart, trimEnd, ne_eq, List.reverse_eq_nil_iff]
  intro hnil
  have hblank := List.dropWhile_eq_nil_iff.mp hnil c (List.mem_reverse.mpr List.mem_cons_self)
  rw [h] at hblank
  cases hblank

end SshTunnels.Text
