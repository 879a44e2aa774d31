import SshTunnels.Proofs.Json.Tokens

/-!
# Reading written values

A value is read back from its text (`read?_write`), if it is one that text can carry: its strings
are whole, and its numbers show an exponent wherever they have one.
-/

namespace SshTunnels.Json

mutual

/-- The value is one that its text spells. -/
def plain : Json → Bool
  | .halfPair => false
  | .number n => n.plain
  | .array xs => plainElements xs
  | .object ms => plainMembers ms
  | _ => true

/-- Every element is plain. -/
def plainElements : List Json → Bool
  | [] => true
  | x :: rest => x.plain && plainElements rest

/-- Every member is plain. -/
def plainMembers : List (String × Json) → Bool
  | [] => true
  | (_, x) :: rest => x.plain && plainMembers rest

end

theorem skipSpace_cons {c : Char} (h : isSpace c = false) (cs : List Char) :
    skipSpace (c :: cs) = c :: cs := by
  rw [skipSpace, List.dropWhile_cons, h]
  rfl

/-- The text of a number begins with a sign or a digit. -/
theorem exists_number_write_eq (n : Number) :
    ∃ c cs, n.write = c :: cs ∧ (c = '-' ∨ c.isDigit = true) := by
  obtain ⟨width, -, -, heq⟩ := Text.toList_toString n.digits
  obtain ⟨c, cs, hcs, hc⟩ := Text.exists_digits_eq_cons (Nat.succ_pos width) n.digits
  rw [Number.write, heq, hcs]
  split
  · exact ⟨'-', _, rfl, .inl rfl⟩
  · exact ⟨c, _, rfl, .inr hc⟩

theorem isSpace_of_isDigit {c : Char} (h : c.isDigit = true) : isSpace c = false := by
  rw [← Bool.not_eq_true]
  simp only [isSpace, Bool.or_eq_true, beq_iff_eq]
  rintro (((rfl | rfl) | rfl) | rfl) <;> cases h

/-- A written value begins with no blank and no closing bracket. -/
theorem exists_writeChars_eq (j : Json) :
    ∃ c cs, j.writeChars = c :: cs ∧ isSpace c = false ∧ c ≠ ']' := by
  cases j with
  | null => exact ⟨'n', _, rfl, rfl, by decide⟩
  | bool value => cases value <;> exact ⟨_, _, rfl, rfl, by decide⟩
  | number n =>
    obtain ⟨c, cs, hcs, hc⟩ := exists_number_write_eq n
    refine ⟨c, cs, hcs, ?_⟩
    rcases hc with rfl | hc
    · decide
    · exact ⟨isSpace_of_isDigit hc, by rintro rfl; cases hc⟩
  | string s => exact ⟨'"', _, rfl, rfl, by decide⟩
  | halfPair => exact ⟨'"', _, rfl, rfl, by decide⟩
  | array xs => exact ⟨'[', _, rfl, rfl, by decide⟩
  | object ms => exact ⟨'\x7b', _, rfl, rfl, by decide⟩

theorem readValue_number {n : Number} (hn : n.plain = true) (fuel : Nat) {rest : List Char}
    (hrest : Follows rest) :
    readValue (fuel + 1) (n.write ++ rest) = some (.number n, rest) := by
  have hread := readNumber_write hn hrest
  obtain ⟨c, cs, hcs, hc⟩ := exists_number_write_eq n
  have hspace : isSpace c = false := by
    rcases hc with rfl | hc
    · rfl
    · exact isSpace_of_isDigit hc
  rw [hcs, List.cons_append] at hread ⊢
  rw [readValue, skipSpace_cons hspace]
  -- every other kind of value begins with a character that is neither a sign nor a digit
  split
  iterate 6
    · next heq =>
      obtain ⟨rfl, -⟩ := List.cons.inj heq
      exact absurd hc (by decide)
  rw [hread, Option.map_some]

theorem readValue_quote (text : String) (fuel : Nat) (rest : List Char) :
    readValue (fuel + 1) (quote text ++ rest) = some (.string text, rest) := by
  have hread := readPieces_chars text.toList rest
  rw [quote, List.cons_append, List.append_assoc, readValue, skipSpace_cons rfl]
  simp only [List.singleton_append, hread, Option.map_some, ofPieces_chars]

/-! ## Elements and members -/

theorem exists_writeElements_eq (x : Json) (xs : List Json) :
    ∃ c cs, writeElements (x :: xs) = c :: cs ∧ isSpace c = false ∧ c ≠ ']' := by
  obtain ⟨c, cs, hcs, hc⟩ := exists_writeChars_eq x
  cases xs with
  | nil => exact ⟨c, cs, by rw [writeElements, hcs], hc⟩
  | cons y xs => exact ⟨c, _, by rw [writeElements, hcs, List.cons_append], hc⟩

theorem exists_writeMembers_eq (m : String × Json) (ms : List (String × Json)) :
    ∃ cs, writeMembers (m :: ms) = '"' :: cs := by
  obtain ⟨name, x⟩ := m
  cases ms with
  | nil => exact ⟨_, by rw [writeMembers, quote, List.cons_append]⟩
  | cons y ms => exact ⟨_, by rw [writeMembers, quote, List.cons_append]⟩

/-- The last member is read back with its value. -/
theorem readMembers_last (name : String) {x : Json} {fuel : Nat} {value rest : List Char}
    (hx : readValue fuel value = some (x, '\x7d' :: rest)) :
    readMembers (fuel + 1) (quote name ++ ':' :: value) = some ([(name, x)], rest) := by
  have hread := readPieces_chars name.toList (':' :: value)
  rw [quote, List.cons_append, List.append_assoc, readMembers, skipSpace_cons rfl]
  simp only [List.singleton_append, hread, joinPieces_chars, Option.bind_eq_bind, Option.bind_some,
    skipSpace_cons (show isSpace ':' = false from rfl), hx, String.ofList_toList,
    skipSpace_cons (show isSpace '\x7d' = false from rfl)]

/-- A member is read back with its value, and then those after it. -/
theorem readMembers_more (name : String) {x : Json} {fuel : Nat} {value rest : List Char}
    (hx : readValue fuel value = some (x, ',' :: rest)) :
    readMembers (fuel + 1) (quote name ++ ':' :: value) =
      (readMembers fuel rest).map fun read => ((name, x) :: read.1, read.2) := by
  have hread := readPieces_chars name.toList (':' :: value)
  rw [quote, List.cons_append, List.append_assoc, readMembers, skipSpace_cons rfl]
  simp only [List.singleton_append, hread, joinPieces_chars, Option.bind_eq_bind, Option.bind_some,
    skipSpace_cons (show isSpace ':' = false from rfl), hx, String.ofList_toList,
    skipSpace_cons (show isSpace ',' = false from rfl)]

theorem follows_cons {c : Char} (h : c = ',' ∨ c = ']' ∨ c = '\x7d') (rest : List Char) :
    Follows (c :: rest) := by
  rintro d ⟨⟩
  exact h

mutual

/-- A value is read back from its text, before whatever may follow it. -/
theorem readValue_write : (j : Json) → (hj : j.plain = true) → {fuel : Nat} →
    (hfuel : j.writeChars.length < fuel) → {rest : List Char} → (hrest : Follows rest) →
    readValue fuel (j.writeChars ++ rest) = some (j, rest)
  | .null, _, fuel + 1, _, rest, _ => by
    rw [writeChars, List.cons_append, readValue, skipSpace_cons rfl]
    rfl
  | .bool true, _, fuel + 1, _, rest, _ => by
    rw [writeChars, List.cons_append, readValue, skipSpace_cons rfl]
    rfl
  | .bool false, _, fuel + 1, _, rest, _ => by
    rw [writeChars, List.cons_append, readValue, skipSpace_cons rfl]
    rfl
  | .number n, hj, fuel + 1, _, rest, hrest => by
    rw [writeChars, readValue_number (by simpa [plain] using hj) fuel hrest]
  | .string s, _, fuel + 1, _, rest, _ => by
    rw [writeChars, readValue_quote]
  | .array [], _, fuel + 1, _, rest, _ => by
    rw [writeChars, List.cons_append, readValue, skipSpace_cons rfl]
    rfl
  | .array (x :: xs), hj, fuel + 1, hfuel, rest, _ => by
    have hlen : (writeElements (x :: xs)).length + 1 < fuel := by
      rw [writeChars, List.length_cons, List.length_append, List.length_singleton] at hfuel
      omega
    have hread := readElements_write x xs (by simpa [plain] using hj) hlen rest
    obtain ⟨c, cs, hcs, hc, hne⟩ := exists_writeElements_eq x xs
    rw [writeChars, List.cons_append, List.append_assoc, List.singleton_append, readValue,
      skipSpace_cons rfl]
    rw [hcs, List.cons_append] at hread ⊢
    simp only [skipSpace_cons hc]
    split
    · next heq =>
      obtain ⟨rfl, -⟩ := List.cons.inj heq
      exact absurd rfl hne
    · rw [hread, Option.map_some]
  | .object [], _, fuel + 1, _, rest, _ => by
    rw [writeChars, List.cons_append, readValue, skipSpace_cons rfl]
    rfl
  | .object (m :: ms), hj, fuel + 1, hfuel, rest, _ => by
    have hlen : (writeMembers (m :: ms)).length + 1 < fuel := by
      rw [writeChars, List.length_cons, List.length_append, List.length_singleton] at hfuel
      omega
    have hread := readMembers_write m ms (by simpa [plain] using hj) hlen rest
    obtain ⟨cs, hcs⟩ := exists_writeMembers_eq m ms
    rw [writeChars, List.cons_append, List.append_assoc, List.singleton_append, readValue,
      skipSpace_cons rfl]
    rw [hcs, List.cons_append] at hread ⊢
    simp only [skipSpace_cons (show isSpace '"' = false from rfl)]
    show (readMembers fuel _).map _ = _
    rw [hread, Option.map_some]

/-- Elements are read back up to the closing bracket. -/
theorem readElements_write : (x : Json) → (xs : List Json) →
    (hxs : plainElements (x :: xs) = true) → {fuel : Nat} →
    (hfuel : (writeElements (x :: xs)).length + 1 < fuel) → (rest : List Char) →
    readElements fuel (writeElements (x :: xs) ++ ']' :: rest) = some (x :: xs, rest)
  | x, [], hxs, fuel + 1, hfuel, rest => by
    have hx : x.plain = true := by simpa [plainElements] using hxs
    rw [writeElements] at hfuel ⊢
    rw [readElements, readValue_write x hx (by omega) (follows_cons (.inr (.inl rfl)) rest)]
    simp [skipSpace_cons (show isSpace ']' = false from rfl)]
  | x, y :: xs, hxs, fuel + 1, hfuel, rest => by
    obtain ⟨hx, hxs⟩ : x.plain = true ∧ plainElements (y :: xs) = true := by
      simpa [plainElements] using hxs
    rw [writeElements, List.length_append, List.length_cons] at hfuel
    rw [writeElements, List.append_assoc, List.cons_append, readElements,
      readValue_write x hx (by omega) (follows_cons (.inl rfl) _)]
    simp [skipSpace_cons (show isSpace ',' = false from rfl),
      readElements_write y xs hxs (show _ < fuel by omega) rest]

/-- Members are read back up to the closing brace. -/
theorem readMembers_write : (m : String × Json) → (ms : List (String × Json)) →
    (hms : plainMembers (m :: ms) = true) → {fuel : Nat} →
    (hfuel : (writeMembers (m :: ms)).length + 1 < fuel) → (rest : List Char) →
    readMembers fuel (writeMembers (m :: ms) ++ '\x7d' :: rest) = some (m :: ms, rest)
  | (name, x), [], hms, fuel + 1, hfuel, rest => by
    have hx : x.plain = true := by simpa [plainMembers] using hms
    rw [writeMembers, List.length_append, List.length_cons] at hfuel
    have hread := readValue_write x hx (show x.writeChars.length < fuel by omega)
      (follows_cons (.inr (.inr rfl)) rest)
    rw [writeMembers, List.append_assoc, List.cons_append, readMembers_last name hread]
  | (name, x), m :: ms, hms, fuel + 1, hfuel, rest => by
    obtain ⟨hx, hms⟩ : x.plain = true ∧ plainMembers (m :: ms) = true := by
      simpa [plainMembers] using hms
    rw [writeMembers, List.length_append, List.length_cons, List.length_append, List.length_cons]
      at hfuel
    have hread := readValue_write x hx (show x.writeChars.length < fuel by omega)
      (follows_cons (.inl rfl) (writeMembers (m :: ms) ++ '\x7d' :: rest))
    rw [writeMembers, List.append_assoc, List.cons_append, List.append_assoc, List.cons_append,
      readMembers_more name hread]
    simp only [readMembers_write m ms hms (show _ < fuel by omega) rest, Option.map_some]

end

/-- A value is read back from its text. -/
theorem read?_write {j : Json} (hj : j.plain = true) : read? j.write = some j := by
  have hfuel : j.writeChars.length < 2 * j.writeChars.length + 2 := by omega
  have hread := readValue_write j hj hfuel (show Follows [] from nofun)
  rw [List.append_nil] at hread
  simp only [read?, write, String.toList_ofList, hread]
  rfl

end SshTunnels.Json
