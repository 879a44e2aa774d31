import SshTunnels.Proofs.Text.Occurrences
import SshTunnels.Proofs.Text.Pieces
import SshTunnels.Proofs.Text.Trimmed

/-!
# RSA keys between their markers

An RSA key is read from the text between the first marker in front and the first marker behind, line
by line (`find?_eq_ofSection`), and nothing is read exactly if a marker is missing or the first ones
overlap or stand the other way round (`find?_eq_none_iff`). A line with a colon is a header, which
can say that the key is encrypted (`sealed_ofSection_iff`); all other lines make up the body
(`body_ofSection`).

The lines are read one after the other, so the key of two texts with a line feed between them is put
together from the keys of both (`ofSection_append_cons`).
-/

namespace SshTunnels.Armour.LegacyKey

open Text

variable {text before after upTo rest cs line bs : List Char}

/-- The key that the text between the markers holds. -/
def ofSection (cs : List Char) : LegacyKey :=
  (lines cs).foldl addLine ⟨false, []⟩

theorem ofSection_nil : ofSection [] = ⟨false, []⟩ :=
  rfl

/-- What was read of a key, and what was read of it behind that. -/
instance : Append LegacyKey :=
  ⟨fun k k' => ⟨k.sealed || k'.sealed, k.body ++ k'.body⟩⟩

theorem append_eq (k k' : LegacyKey) : k ++ k' = ⟨k.sealed || k'.sealed, k.body ++ k'.body⟩ :=
  rfl

theorem append_assoc (k k' k'' : LegacyKey) : k ++ k' ++ k'' = k ++ (k' ++ k'') := by
  simp only [append_eq, Bool.or_assoc, List.append_assoc]

@[simp]
theorem append_empty (k : LegacyKey) : k ++ ⟨false, []⟩ = k := by
  simp only [append_eq, Bool.or_false, List.append_nil]

@[simp]
theorem empty_append (k : LegacyKey) : ⟨false, []⟩ ++ k = k := by
  simp only [append_eq, Bool.false_or, List.nil_append]

/-! ## One line -/

/-- What one line holds. -/
def ofLine (line : List Char) : LegacyKey :=
  addLine ⟨false, []⟩ line

theorem addLine_eq (key : LegacyKey) (line : List Char) :
    key.addLine line = key ++ ofLine line := by
  rw [ofLine, addLine, addLine, append_eq]
  split
  · simp
  · simp

theorem ofLine_of_contains (h : ':' ∈ trim line) :
    ofLine line = ⟨isSealHeader (trim line), []⟩ := by
  rw [ofLine, addLine, if_pos (List.contains_iff_mem.mpr h), Bool.false_or]

theorem ofLine_of_not_contains (h : ':' ∉ trim line) : ofLine line = ⟨false, trim line⟩ := by
  rw [ofLine, addLine, if_neg (mt List.contains_iff_mem.mp h)]
  rfl

/-- Blanks around a line do not matter. -/
theorem ofLine_congr {line' : List Char} (h : trim line = trim line') :
    ofLine line = ofLine line' := by
  rw [ofLine, ofLine, addLine, addLine, h]

theorem ofLine_append_blanks (h : ∀ c ∈ bs, isBlank c = true) (line : List Char) :
    ofLine (line ++ bs) = ofLine line :=
  ofLine_congr (trim_append_blanks h line)

theorem ofLine_blanks_append (h : ∀ c ∈ bs, isBlank c = true) (line : List Char) :
    ofLine (bs ++ line) = ofLine line :=
  ofLine_congr (trim_blanks_append h line)

theorem isBlank_return : ∀ c ∈ ['\r'], isBlank c = true :=
  List.forall_mem_singleton.mpr rfl

theorem foldl_addLine (key : LegacyKey) (ls : List (List Char)) :
    ls.foldl addLine key = key ++ ls.foldl addLine ⟨false, []⟩ := by
  induction ls generalizing key with
  | nil => exact (append_empty key).symm
  | cons line ls ih =>
    rw [List.foldl_cons, List.foldl_cons, ih, ih (addLine _ line), addLine_eq, ← ofLine,
      append_assoc]

/-! ## Line by line -/

/-- A carriage return in front of a line feed, and an empty line at the end of the text, make no
difference: the lines are as good as the pieces between line feeds. -/
theorem ofSection_eq (cs : List Char) :
    ofSection cs = (splitOn '\n' cs).foldl addLine ⟨false, []⟩ := by
  have hgo (line : List Char) (key : LegacyKey) : (lines.go cs line).foldl addLine key =
      (splitOn.go '\n' cs line).foldl addLine key := by
    fun_induction lines.go cs line generalizing key with
    | case1 =>
      rw [splitOn.go, List.foldl_cons, addLine_eq]
      exact (append_empty key).symm
    | case2 line _ => rw [splitOn.go]
    | case3 rest line ih =>
      have hreturn : addLine key ('\r' :: line).reverse = addLine key line.reverse := by
        rw [addLine_eq, addLine_eq, List.reverse_cons, ofLine_append_blanks isBlank_return]
      rw [splitOn.go, if_pos rfl, List.foldl_cons, List.foldl_cons, hreturn, ih]
    | case4 rest line _ ih =>
      rw [splitOn.go, if_pos rfl, List.foldl_cons, List.foldl_cons, ih]
    | case5 c rest line _ hc ih =>
      rw [splitOn.go, if_neg hc, ih]
  exact hgo [] _

/-- The key of two texts with a line feed between them. -/
theorem ofSection_append_cons (cs rest : List Char) :
    ofSection (cs ++ '\n' :: rest) = ofSection cs ++ ofSection rest := by
  rw [ofSection_eq, ofSection_eq, ofSection_eq, splitOn_append_cons, List.foldl_append,
    foldl_addLine]

theorem ofSection_of_not_mem (h : '\n' ∉ cs) : ofSection cs = ofLine cs := by
  have hpieces : splitOn '\n' cs = [cs] := splitOn_go_of_not_mem h []
  rw [ofSection_eq, hpieces]
  rfl

/-! ## Headers and body -/

theorem foldl_addLine_cons (line : List Char) (ls : List (List Char)) :
    (line :: ls).foldl addLine ⟨false, []⟩ = ofLine line ++ ls.foldl addLine ⟨false, []⟩ := by
  rw [List.foldl_cons, foldl_addLine, ofLine]

/-- The body is made of the trimmed lines without a colon. -/
theorem body_ofSection (cs : List Char) :
    (ofSection cs).body = (((lines cs).map trim).filter (':' ∉ ·)).flatten := by
  rw [ofSection]
  induction lines cs with
  | nil => rfl
  | cons line ls ih =>
    rw [foldl_addLine_cons, append_eq, ih, List.map_cons]
    by_cases hcolon : ':' ∈ trim line
    · rw [ofLine_of_contains hcolon, List.filter_cons_of_neg (by simpa using hcolon)]
      rfl
    · rw [ofLine_of_not_contains hcolon, List.filter_cons_of_pos (by simpa using hcolon),
        List.flatten_cons]

/-- A line that is a header saying that the key is encrypted: up to its first colon it is the name
of that header, and behind the colon it has the word for it. -/
def SaysSealed (line : List Char) : Prop :=
  ∃ name value, line = name ++ ':' :: value ∧ ':' ∉ name ∧ trim name = "Proc-Type".toList ∧
    "ENCRYPTED".toList <:+: value

theorem isSealHeader_iff {name value : List Char} (hname : ':' ∉ name) :
    isSealHeader (name ++ ':' :: value) = true ↔
      trim name = "Proc-Type".toList ∧ "ENCRYPTED".toList <:+: value := by
  have hall : ∀ c ∈ name, (c != ':') = true := fun c hc => bne_iff_ne.mpr fun h => hname (h ▸ hc)
  rw [isSealHeader, List.takeWhile_append_of_pos hall, List.dropWhile_append_of_pos hall]
  simp only [List.takeWhile_cons, List.dropWhile_cons, bne_self_eq_false, Bool.false_eq_true,
    if_false, List.append_nil, List.drop_succ_cons, List.drop_zero, Bool.and_eq_true, beq_iff_eq]
  refine and_congr_right fun _ => ?_
  rw [← Option.ne_none_iff_isSome, ne_eq, splitAtFirst?_eq_none_iff, not_not]

theorem saysSealed_append_cons_iff {name value : List Char} (hname : ':' ∉ name) :
    SaysSealed (name ++ ':' :: value) ↔
      trim name = "Proc-Type".toList ∧ "ENCRYPTED".toList <:+: value := by
  constructor
  · rintro ⟨name', value', heq, hname', htype, hvalue⟩
    rw [← isSealHeader_iff hname, heq, isSealHeader_iff hname']
    exact ⟨htype, hvalue⟩
  · rintro ⟨htype, hvalue⟩
    exact ⟨name, value, rfl, hname, htype, hvalue⟩

/-- Blanks behind a text hold no part of a word. -/
theorem infix_append_blanks_iff {m : List Char} (hm : m ≠ []) (hword : ∀ c ∈ m, isBlank c = false)
    (hbs : ∀ c ∈ bs, isBlank c = true) : m <:+: cs ++ bs ↔ m <:+: cs := by
  refine ⟨fun h => ?_, fun h => h.trans (List.prefix_append cs bs).isInfix⟩
  have hnot {c : Char} (hc : c ∈ m) : c ∉ bs := fun hmem =>
    Bool.noConfusion ((hword c hc).symm.trans (hbs c hmem))
  have hclear : Clear m cs bs := by
    rintro a b rfl - hb - hfront
    have hmem := List.head_mem hb
    exact hnot (List.mem_append_right a hmem) (hfront.subset hmem)
  have hblank : splitAtFirst? m bs = none := by
    rw [splitAtFirst?_eq_none_iff]
    intro hpart
    have hmem := List.head_mem hm
    exact hnot hmem (hpart.subset hmem)
  by_contra hcs
  have hsplit := splitAtFirst?_append_of_none hclear (splitAtFirst?_eq_none_iff.mpr hcs)
  rw [hblank] at hsplit
  exact splitAtFirst?_eq_none_iff.mp hsplit h

theorem sealed_ofLine_iff (line : List Char) : (ofLine line).sealed = true ↔ SaysSealed line := by
  obtain ⟨front, back, hfront, hback, hline⟩ := exists_eq_trim line
  by_cases hcolon : ':' ∈ trim line
  · rw [ofLine_of_contains hcolon]
    obtain ⟨name, value, htrim, hname⟩ := List.eq_append_cons_of_mem hcolon
    have hword : "ENCRYPTED".toList <:+: value ++ back ↔ "ENCRYPTED".toList <:+: value :=
      infix_append_blanks_iff (by decide) (by simp [isBlank]) hback
    have hnamed : ':' ∉ front ++ name := by
      rw [List.mem_append]
      rintro (h | h)
      · exact absurd (hfront _ h) (by decide)
      · exact hname h
    have hsplit : line = front ++ name ++ ':' :: (value ++ back) := by
      rw [hline, htrim]
      simp only [List.append_assoc, List.cons_append]
    rw [htrim, isSealHeader_iff hname, hsplit, saysSealed_append_cons_iff hnamed, hword,
      trim_blanks_append hfront]
  · rw [ofLine_of_not_contains hcolon]
    refine iff_of_false Bool.false_ne_true ?_
    rintro ⟨name, value, rfl, -⟩
    exact hcolon ((mem_trim_iff (by decide)).mpr (List.mem_append_right name List.mem_cons_self))

/-- A key is encrypted if one of its headers says so. -/
theorem sealed_ofSection_iff (cs : List Char) :
    (ofSection cs).sealed = true ↔ ∃ line ∈ lines cs, SaysSealed line := by
  rw [ofSection]
  induction lines cs with
  | nil => simp
  | cons line ls ih =>
    rw [foldl_addLine_cons, append_eq, Bool.or_eq_true, sealed_ofLine_iff, ih,
      List.exists_mem_cons_iff]

/-! ## The markers -/

theorem find?_eq_none_of_opening (h : splitAtFirst? opening text = none) : find? text = none := by
  rw [find?, h]
  rfl

theorem find?_eq_none_of_closing (h : splitAtFirst? closing text = none) : find? text = none := by
  rw [find?, h]
  cases splitAtFirst? opening text <;> rfl

/-- What is read where both markers stand. -/
theorem find?_eq_ite (ho : splitAtFirst? opening text = some (before, after))
    (hc : splitAtFirst? closing text = some (upTo, rest)) :
    find? text = if before.length + opening.length ≤ upTo.length then
      some (ofSection (upTo.drop (before.length + opening.length))) else none := by
  rw [find?, ho, hc]
  rfl

/-- The key is read between the markers. -/
theorem find?_eq_ofSection (ho : FirstAt opening text before after)
    (hc : FirstAt closing text upTo rest)
    (hle : before.length + opening.length ≤ upTo.length) :
    ∃ cs, upTo = before ++ opening ++ cs ∧ find? text = some (ofSection cs) := by
  have hfront : before ++ opening <+: upTo :=
    List.prefix_of_prefix_length_le ⟨after, ho.eq.symm⟩
      ⟨closing ++ rest, by rw [hc.eq, List.append_assoc]⟩ (by rw [List.length_append]; exact hle)
  obtain ⟨cs, rfl⟩ := hfront
  refine ⟨cs, rfl, ?_⟩
  rw [find?_eq_ite (splitAtFirst?_eq_some_iff.mpr ho) (splitAtFirst?_eq_some_iff.mpr hc),
    if_pos hle, ← List.length_append, List.drop_left]

/-- Nothing is read if a marker is missing, or if the first marker behind starts before the first
one in front ends. -/
theorem find?_eq_none_iff : find? text = none ↔
    ¬ opening <:+: text ∨ ¬ closing <:+: text ∨ ∃ before after upTo rest,
      FirstAt opening text before after ∧ FirstAt closing text upTo rest ∧
        upTo.length < before.length + opening.length := by
  cases ho : splitAtFirst? opening text with
  | none => exact iff_of_true (find?_eq_none_of_opening ho) (.inl (splitAtFirst?_eq_none_iff.mp ho))
  | some s =>
    obtain ⟨before, after⟩ := s
    cases hc : splitAtFirst? closing text with
    | none =>
      exact iff_of_true (find?_eq_none_of_closing hc)
        (.inr (.inl (splitAtFirst?_eq_none_iff.mp hc)))
    | some s =>
      obtain ⟨upTo, rest⟩ := s
      have hopening := splitAtFirst?_eq_some_iff.mp ho
      have hclosing := splitAtFirst?_eq_some_iff.mp hc
      rw [find?_eq_ite ho hc]
      constructor
      · intro h
        refine .inr (.inr ⟨before, after, upTo, rest, hopening, hclosing, ?_⟩)
        by_contra hle
        rw [if_pos (Nat.not_lt.mp hle)] at h
        cases h
      · rintro (h | h | ⟨before', after', upTo', rest', hopening', hclosing', hlt⟩)
        · exact absurd hopening.occurs h
        · exact absurd hclosing.occurs h
        · cases ho.symm.trans (splitAtFirst?_eq_some_iff.mpr hopening')
          cases hc.symm.trans (splitAtFirst?_eq_some_iff.mpr hclosing')
          exact if_neg (Nat.not_le.mpr hlt)

end SshTunnels.Armour.LegacyKey
