import SshTunnels.Key.Generate
import SshTunnels.Proofs.Key.Wire
import SshTunnels.Proofs.Text.Base64
import SshTunnels.Proofs.Text.Identifiers
import SshTunnels.Proofs.Text.Trimmed

/-!
# Reading new keys

Both halves of a new key are read back from their texts (`PublicKey.load_line`,
`PrivateKey.load_armourEd25519`).
-/

namespace SshTunnels

open Text

theorem Curve.Edwards.length_publicKey (seed : Bytes) : (publicKey seed).length = 32 := by
  rw [publicKey, Point.encode, List.length_reverse, Bytes.length_ofNat]

/-! ## Characters of base64 -/

/-- A character that may stand in a word, and in a line. -/
structure WordChar (c : Char) : Prop where
  word : PublicKey.isWordChar c = true
  notBlank : isBlank c = false
  notFeed : c ≠ '\n'
  notReturn : c ≠ '\r'

theorem wordChar_of_mem_encode {c : Char} {bytes : Bytes} (h : c ∈ Base64.encode bytes) :
    WordChar c := by
  have hall : ∀ n : Fin 64, PublicKey.isWordChar (Base64.digitChar n) = true ∧
      isBlank (Base64.digitChar n) = false ∧ Base64.digitChar n ≠ '\n' ∧
      Base64.digitChar n ≠ '\r' := by decide +kernel
  rcases Base64.mem_encode bytes h with rfl | ⟨n, hn, rfl⟩
  · constructor <;> decide
  · obtain ⟨hword, hblank, hfeed, hreturn⟩ := hall ⟨n, hn⟩
    exact ⟨hword, hblank, hfeed, hreturn⟩

namespace PublicKey

theorem readWord_append {word : List Char} (h : ∀ c ∈ word, isWordChar c = true)
    (rest : List Char) : readWord (word ++ ' ' :: rest) = some (word, rest) := by
  have hspace : isWordChar ' ' = false := by decide
  rw [readWord, List.dropWhile_append_of_pos h, List.takeWhile_append_of_pos h,
    List.dropWhile_cons, List.takeWhile_cons, hspace]
  simp

/-- The line of an Ed25519 key with a comment, in characters. -/
theorem toList_line (point : Bytes) {comment : String} (hcomment : comment ≠ "") :
    (line ⟨.ed25519 point, comment⟩).toList = "ssh-ed25519".toList ++
      ' ' :: (Base64.encode (PublicKeyData.encode (.ed25519 point)) ++ ' ' :: comment.toList) := by
  have hempty : comment.isEmpty = false := by
    simpa using hcomment
  simp [line, hempty, algorithmName, PublicKeyData.algorithm, KeyAlgorithm.name]

variable {point : Bytes} {comment : String}

/-- Neither the algorithm's name nor a comment without blanks leaves a blank at an end of the
line. -/
theorem isBlank_ends (point : Bytes) (hne : comment ≠ "")
    (hcomment : ∀ c ∈ comment.toList, isBlank c = false) :
    (∀ c, (line ⟨.ed25519 point, comment⟩).toList.head? = some c → isBlank c = false) ∧
      ∀ c, (line ⟨.ed25519 point, comment⟩).toList.getLast? = some c → isBlank c = false := by
  have hcs : comment.toList ≠ [] := by simpa using hne
  constructor
  · intro c hc
    rw [toList_line point hne] at hc
    cases hc
    rfl
  · intro c hc
    rw [toList_line point hne, List.getLast?_append_of_ne_nil _ (List.cons_ne_nil _ _),
      ← List.singleton_append, List.getLast?_append_of_ne_nil _ (by simp),
      List.getLast?_append_of_ne_nil _ (List.cons_ne_nil _ _), ← List.singleton_append,
      List.getLast?_append_of_ne_nil _ hcs] at hc
    exact hcomment c (List.mem_of_getLast? hc)

/-- The line of an Ed25519 key is read back. -/
theorem ofLine?_line (hpoint : point.length = 32) (hne : comment ≠ "")
    (hcomment : ∀ c ∈ comment.toList, isBlank c = false) :
    ofLine? (line ⟨.ed25519 point, comment⟩).toList = some ⟨.ed25519 point, comment⟩ := by
  have hname : ∀ c ∈ "ssh-ed25519".toList, isWordChar c = true :=
    List.all_eq_true.mp (by decide)
  have hbase64 : ∀ c ∈ Base64.encode (PublicKeyData.encode (.ed25519 point)),
      isWordChar c = true := fun c hc => (wordChar_of_mem_encode hc).word
  have hread := (PublicKeyData.reads_encode hpoint).all.run true
  have hsome : ¬ ("ssh-ed25519".toList = [] ∨
      Base64.encode (PublicKeyData.encode (.ed25519 point)) = []) := by
    rintro (h | h)
    · cases h
    · have hbytes : PublicKeyData.encode (.ed25519 point) ≠ [] := by
        simp [PublicKeyData.encode, Wire.text, Wire.blob, ← List.length_eq_zero_iff]
      have hlen := Base64.four_le_length_encode hbytes
      rw [h] at hlen
      cases hlen
  rw [ofLine?, trimEnd_eq_self (isBlank_ends _ hne hcomment).2, toList_line point hne,
    readWord_append hname]
  simp only [bind, Option.bind]
  rw [readWord_append hbase64]
  simp only [Base64.decode_encode, hread, if_neg hsome, String.ofList_toList]
  exact if_pos rfl

/-- The line of an Ed25519 key is loaded. -/
theorem load_line (hpoint : point.length = 32) (hne : comment ≠ "")
    (hcomment : ∀ c ∈ comment.toList, isBlank c = false) :
    load (Bytes.ofString (line ⟨.ed25519 point, comment⟩)) = .ok ⟨.ed25519 point, comment⟩ := by
  obtain ⟨hstart, hend⟩ := isBlank_ends point hne hcomment
  have hfeed : '\n' ∉ (line ⟨.ed25519 point, comment⟩).toList := by
    rw [toList_line point hne, List.mem_append, List.mem_cons, List.mem_append, List.mem_cons]
    rintro (h | h | h | h | h)
    · exact absurd h (by decide)
    · cases h
    · exact (wordChar_of_mem_encode h).notFeed rfl
    · cases h
    · exact absurd (hcomment _ h) (by decide)
  have hlines : lines (line ⟨.ed25519 point, comment⟩).toList =
      [(line ⟨.ed25519 point, comment⟩).toList] := by
    refine lines_eq_singleton ?_ hfeed
    rw [toList_line point hne]
    exact List.cons_ne_nil _ _
  have hfound : (line ⟨.ed25519 point, comment⟩).toList ≠ [] ∧
      (line ⟨.ed25519 point, comment⟩).toList.head? ≠ some '#' := by
    rw [toList_line point hne]
    exact ⟨List.cons_ne_nil _ _, by rintro ⟨⟩⟩
  rw [load, keyText, Bytes.toString?_ofString]
  simp only [bind, Except.bind, hlines, List.map_singleton, trim_eq_self hstart hend]
  rw [List.find?_cons_of_pos (by simpa using hfound)]
  simp only [ofLine?_line hpoint hne hcomment]

end PublicKey

/-! ## The armour -/

namespace Armour

theorem dropFinalLineEnd?_concat {cs : List Char} (h : cs.getLast? ≠ some '\r') :
    dropFinalLineEnd? (cs ++ ['\n']) = some cs := by
  rw [← List.head?_reverse] at h
  have hreverse : (cs ++ ['\n']).reverse = '\n' :: cs.reverse := List.reverse_concat
  rw [dropFinalLineEnd?, hreverse]
  split
  · next heq =>
    rw [(List.cons.inj heq).2] at h
    exact absurd rfl h
  · next heq => rw [← (List.cons.inj heq).2, List.reverse_reverse]
  · next heq => cases (List.cons.inj heq).1
  · next _ hnone _ => exact (hnone _ rfl).elim

theorem dropSuffix?_append (cs suffix : List Char) :
    dropSuffix? suffix (cs ++ suffix) = some cs := by
  simp [dropSuffix?]

/-- Lines of one width are joined again. -/
theorem exists_wrapLines_eq {width : Nat} (hw : 0 < width) (fuel : Nat) {cs : List Char}
    (hne : cs ≠ []) (hfuel : cs.length ≤ fuel) :
    ∃ wrapped, wrapLines width fuel cs = wrapped ++ ['\n'] ∧
      wrapped.getLast? = cs.getLast? ∧
      ∀ fuel', wrapped.length < fuel' → unwrap width fuel' wrapped = some cs := by
  induction fuel generalizing cs with
  | zero => exact absurd (List.length_eq_zero_iff.mp (Nat.le_zero.mp hfuel)) hne
  | succ fuel ih =>
    have hsome : ¬ cs.isEmpty = true := by simpa using hne
    rw [wrapLines, if_neg hsome]
    by_cases hrest : cs.drop width = []
    · -- the last line
      have htake : cs.take width = cs := List.take_of_length_le (List.drop_eq_nil_iff.mp hrest)
      refine ⟨cs, ?_, rfl, fun fuel' hfuel' => ?_⟩
      · rw [hrest, htake]
        cases fuel <;> rfl
      · obtain ⟨k, rfl⟩ := Nat.exists_eq_succ_of_ne_zero (Nat.ne_of_gt (Nat.zero_lt_of_lt hfuel'))
        rw [unwrap, hrest]
    · have hlen : width < cs.length := by
        simpa [List.drop_eq_nil_iff] using hrest
      have hwidth : (cs.take width).length = width := List.length_take_of_le (Nat.le_of_lt hlen)
      have hless : (cs.drop width).length ≤ fuel := by
        rw [List.length_drop]
        omega
      obtain ⟨wrapped, hwrapped, hlast, hunwrap⟩ := ih hrest hless
      have hcs : cs.take width ++ cs.drop width = cs := List.take_append_drop width cs
      refine ⟨cs.take width ++ '\n' :: wrapped, ?_, ?_, fun fuel' hfuel' => ?_⟩
      · rw [hwrapped, List.append_assoc, List.cons_append]
      · have hne' : wrapped ≠ [] := by
          rintro rfl
          rw [List.getLast?_nil, eq_comm, List.getLast?_eq_none_iff] at hlast
          exact hrest hlast
        rw [List.getLast?_append_of_ne_nil _ (List.cons_ne_nil _ _), ← List.singleton_append,
          List.getLast?_append_of_ne_nil _ hne', hlast, List.getLast?_drop,
          if_neg (Nat.not_le_of_lt hlen)]
      · obtain ⟨k, rfl⟩ := Nat.exists_eq_succ_of_ne_zero (Nat.ne_of_gt (Nat.zero_lt_of_lt hfuel'))
        rw [List.length_append, List.length_cons] at hfuel'
        rw [unwrap, List.drop_left' hwidth, List.take_left' hwidth]
        simp only [dropLineEnd?, bind, Option.bind, hunwrap k (by omega), hcs]

/-- A body is read back from its armour. -/
theorem strictBody_armoured (name : String) {bytes : Bytes} (hbytes : bytes ≠ []) :
    strictBody name (beginMark ++ name.toList ++ "-----".toList ++
      '\n' :: (wrapLines 70 (Base64.encode bytes).length (Base64.encode bytes) ++
        ("-----END ".toList ++ name.toList ++ "-----".toList) ++ ['\n'])) = some bytes := by
  have hne : Base64.encode bytes ≠ [] := by
    intro h
    have hlen := Base64.four_le_length_encode hbytes
    rw [h] at hlen
    cases hlen
  obtain ⟨wrapped, hwrapped, hlast, hunwrap⟩ :=
    exists_wrapLines_eq (show 0 < 70 by decide) _ hne (Nat.le_refl _)
  have hreturn : wrapped.getLast? ≠ some '\r' := by
    rw [hlast]
    exact fun h => (wordChar_of_mem_encode (List.mem_of_getLast? h)).notReturn rfl
  have hfinal (cs : List Char) : (cs ++ ("-----END ".toList ++ name.toList ++
      "-----".toList)).getLast? ≠ some '\r' := by
    rw [← List.append_assoc, List.getLast?_append_of_ne_nil _ (by decide)]
    decide
  have hbegin (cs : List Char) : beginMark.isPrefixOf
      (beginMark ++ name.toList ++ "-----".toList ++ cs) = true := by
    simp
  have hopening (cs : List Char) : (beginMark ++ name.toList ++ "-----".toList).isPrefixOf
      (beginMark ++ name.toList ++ "-----".toList ++ cs) = true := by
    simp
  rw [strictBody, hbegin, if_pos rfl]
  simp only [bind, Option.bind, hopening, not_true_eq_false, if_false, List.drop_left, dropLineEnd?,
    dropFinalLineEnd?_concat (hfinal _), Option.getD_some, dropSuffix?_append, hwrapped,
    dropFinalLineEnd?_concat hreturn, hunwrap _ (Nat.lt_succ_self _), Base64.decode_encode]

end Armour

namespace PrivateKey

variable {point seed : Bytes}

theorem append_lines (opening name dashes body closing : List Char) :
    opening ++ name ++ (dashes ++ ['\n']) ++ body ++ closing ++ name ++ (dashes ++ ['\n']) =
      opening ++ name ++ dashes ++ '\n' :: (body ++ (closing ++ name ++ dashes) ++ ['\n']) := by
  simp

theorem toList_armourEd25519 (check : Nat) (point seed : Bytes) (comment : String) :
    (armourEd25519 check point seed comment).toList =
      Armour.beginMark ++ opensshName.toList ++ "-----".toList ++
        '\n' :: (wrapLines 70 (Base64.encode (encodeEd25519 check point seed comment)).length
            (Base64.encode (encodeEd25519 check point seed comment)) ++
          ("-----END ".toList ++ opensshName.toList ++ "-----".toList) ++ ['\n']) := by
  have hfeed : "-----\n".toList = "-----".toList ++ ['\n'] := by decide
  unfold armourEd25519
  simp only [String.toList_append, String.toList_ofList]
  rw [hfeed]
  exact append_lines _ _ _ _ _

/-- The armour of an Ed25519 key without a comment is loaded. -/
theorem load_armourEd25519 (check : Nat) (hpoint : point.length = 32) (hseed : seed.length = 32) :
    load (Bytes.ofString (armourEd25519 check point seed "")) =
      .ok ⟨⟨.ed25519 point, ""⟩, .ed25519 seed⟩ := by
  have hbytes : encodeEd25519 check point seed "" ≠ [] := by
    simp [encodeEd25519, magic]
  have hread := (reads_encodeEd25519 check hpoint hseed).all.run true
  have hstrict : ofStrict? (armourEd25519 check point seed "").toList =
      some ⟨⟨.ed25519 point, ""⟩, .ed25519 seed⟩ := by
    rw [ofStrict?, toList_armourEd25519, Armour.strictBody_armoured _ hbytes]
    exact hread
  have hsome : trim (armourEd25519 check point seed "").toList ≠ [] := by
    rw [toList_armourEd25519]
    exact trim_cons_ne_nil rfl _
  rw [load, keyText, Bytes.toString?_ofString]
  simp only [bind, Except.bind, loadText, if_neg hsome, hstrict]

end PrivateKey

/-! ## New keys -/

namespace GeneratedKeyPair

variable {seed : Bytes} {comment : String}

/-- The private half of a new key is read back without the comment. -/
theorem load_privateText (hseed : seed.length = 32) (check : Nat) (comment : String) :
    PrivateKey.load (Bytes.ofString (ofSeed seed check comment).privateText) =
      .ok (.ofSeed seed "") :=
  PrivateKey.load_armourEd25519 check (Curve.Edwards.length_publicKey seed) hseed

/-- The public half of a new key is read back with the comment. -/
theorem load_publicText (check : Nat) (hne : comment ≠ "")
    (hcomment : ∀ c ∈ comment.toList, isBlank c = false) :
    PublicKey.load (Bytes.ofString (ofSeed seed check comment).publicText) =
      .ok ⟨.ed25519 (Curve.Edwards.publicKey seed), comment⟩ :=
  PublicKey.load_line (Curve.Edwards.length_publicKey seed) hne hcomment

end GeneratedKeyPair

theorem Uuid.isBlank_of_mem_text {id : Uuid} {c : Char} (h : c ∈ id.text.toList) :
    isBlank c = false := by
  rw [text, String.toList_ofList] at h
  rcases mem_hyphenate h with rfl | h
  · rfl
  · obtain ⟨d, hd, rfl⟩ := exists_digitChar_of_mem (by decide) h
    have hall : ∀ n : Fin 16, isBlank (digitChar n) = false := by decide +kernel
    exact hall ⟨d, hd⟩

end SshTunnels
