import SshTunnels.Text.Blank

/-!
# The pieces of a text

A text is cut at every occurrence of a mark: a piece holds none (`not_mem_of_mem_splitOn`), the
pieces make up the text (`flatMap_splitOn`), and pieces without any mark are found again when they
are put together (`splitOn_flatMap`).
-/

namespace SshTunnels.Text

variable {mark : Char} {cs piece : List Char}

theorem splitOn_go_of_not_mem (h : mark ∉ cs) (piece : List Char) :
    splitOn.go mark cs piece = [piece.reverse ++ cs] := by
  induction cs generalizing piece with
  | nil => rw [splitOn.go, List.append_nil]
  | cons c cs ih =>
    obtain ⟨hc, hcs⟩ := List.ne_and_not_mem_of_not_mem_cons h
    rw [splitOn.go, if_neg (Ne.symm hc), ih hcs, List.reverse_cons, List.append_assoc,
      List.singleton_append]

theorem splitOn_go_append (h : mark ∉ cs) (piece rest : List Char) :
    splitOn.go mark (cs ++ mark :: rest) piece =
      (piece.reverse ++ cs) :: splitOn.go mark rest [] := by
  induction cs generalizing piece with
  | nil => rw [List.nil_append, splitOn.go, if_pos rfl, List.append_nil]
  | cons c cs ih =>
    obtain ⟨hc, hcs⟩ := List.ne_and_not_mem_of_not_mem_cons h
    rw [List.cons_append, splitOn.go, if_neg (Ne.symm hc), ih hcs, List.reverse_cons,
      List.append_assoc, List.singleton_append]

/-- At a mark the pieces of a text are those of its two parts. -/
theorem splitOn_append_cons (mark : Char) (cs rest : List Char) :
    splitOn mark (cs ++ mark :: rest) = splitOn mark cs ++ splitOn mark rest := by
  have hgo (piece : List Char) : splitOn.go mark (cs ++ mark :: rest) piece =
      splitOn.go mark cs piece ++ splitOn.go mark rest [] := by
    induction cs generalizing piece with
    | nil => rw [List.nil_append, splitOn.go, splitOn.go, if_pos rfl]; rfl
    | cons c cs ih =>
      rw [List.cons_append, splitOn.go, splitOn.go]
      split
      · rw [ih, List.cons_append]
      · exact ih _
  exact hgo []

theorem not_mem_of_mem_splitOn_go {p : List Char} (hpiece : mark ∉ piece)
    (h : p ∈ splitOn.go mark cs piece) : mark ∉ p := by
  induction cs generalizing piece with
  | nil =>
    rw [splitOn.go, List.mem_singleton] at h
    rw [h, List.mem_reverse]
    exact hpiece
  | cons c cs ih =>
    rw [splitOn.go] at h
    split at h
    · rcases List.mem_cons.mp h with rfl | h
      · rw [List.mem_reverse]
        exact hpiece
      · exact ih List.not_mem_nil h
    · next hc =>
      refine ih ?_ h
      rintro (_ | ⟨_, hmem⟩)
      · exact hc rfl
      · exact hpiece hmem

/-- No piece holds the mark. -/
theorem not_mem_of_mem_splitOn {p : List Char} (h : p ∈ splitOn mark cs) : mark ∉ p :=
  not_mem_of_mem_splitOn_go List.not_mem_nil h

theorem flatMap_splitOn_go (mark : Char) (cs piece : List Char) :
    (splitOn.go mark cs piece).flatMap (mark :: ·) = mark :: (piece.reverse ++ cs) := by
  induction cs generalizing piece with
  | nil => rw [splitOn.go, List.flatMap_singleton, List.append_nil]
  | cons c cs ih =>
    rw [splitOn.go]
    split
    · next hc => rw [List.flatMap_cons, ih, hc, List.cons_append]; rfl
    · rw [ih, List.reverse_cons, List.append_assoc, List.singleton_append]

/-- The pieces with a mark before each are the text with a mark before it. -/
theorem flatMap_splitOn (mark : Char) (cs : List Char) :
    (splitOn mark cs).flatMap (mark :: ·) = mark :: cs :=
  flatMap_splitOn_go mark cs []

/-- Pieces that follow a mark each are found behind an empty one. -/
theorem splitOn_flatMap {ps : List (List Char)} (h : ∀ p ∈ ps, mark ∉ p) :
    splitOn mark (ps.flatMap (mark :: ·)) = [] :: ps := by
  have hgo (ps : List (List Char)) (cs : List Char) (hcs : mark ∉ cs) (h : ∀ p ∈ ps, mark ∉ p) :
      splitOn.go mark (cs ++ ps.flatMap (mark :: ·)) [] = cs :: ps := by
    induction ps generalizing cs with
    | nil => rw [List.flatMap_nil, List.append_nil, splitOn_go_of_not_mem hcs]; rfl
    | cons p ps ih =>
      rw [List.flatMap_cons, List.cons_append, splitOn_go_append hcs,
        ih p (h p List.mem_cons_self) fun q hq => h q (List.mem_cons_of_mem _ hq)]
      rfl
  exact hgo ps [] List.not_mem_nil h

end SshTunnels.Text
