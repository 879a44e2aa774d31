import SshTunnels.Key.PrivateKey

/-!
# Reading fields

A reader takes the bytes of its field, whatever follows them, and leaves the rest (`Wire.Reads`). So
readers one after another read back fields one after another (`Wire.Reads.bind`), up to an Ed25519
key and its public half in their binary forms (`PrivateKey.reads_encodeEd25519`,
`PublicKeyData.reads_encode`).
-/

namespace SshTunnels

namespace Bytes

theorem toList_loop_eq (bytes : ByteArray) (i : Nat) (seen : Bytes) :
    ByteArray.toList.loop bytes i seen = seen.reverse ++ bytes.data.toList.drop i := by
  fun_induction ByteArray.toList.loop bytes i seen with
  | case1 i seen h ih =>
    have hi : i < bytes.data.toList.length := h
    have hget : bytes.get! i = bytes.data.toList[i] := by
      show bytes.data[i]! = _
      rw [getElem!_pos bytes.data i h, Array.getElem_toList]
    rw [ih, List.reverse_cons, List.append_assoc, List.singleton_append, hget,
      ← List.drop_eq_getElem_cons hi]
  | case2 i seen h =>
    rw [List.drop_of_length_le (Nat.le_of_not_lt h), List.append_nil]

theorem ofString_eq (text : String) : ofString text = text.toByteArray.data.toList := by
  rw [ofString, String.toUTF8, ByteArray.toList, toList_loop_eq]
  rfl

theorem length_ofString (text : String) : (ofString text).length = text.utf8ByteSize := by
  rw [ofString_eq]
  rfl

theorem ofString_ne_nil {text : String} (h : text ≠ "") : ofString text ≠ [] := by
  intro hnil
  have hlength := length_ofString text
  rw [hnil, List.length_nil] at hlength
  exact h (String.utf8ByteSize_eq_zero_iff.mp hlength.symm)

/-- A text is read back from its bytes. -/
theorem toString?_ofString (text : String) : toString? (ofString text) = some text := by
  have hbytes : ByteArray.mk (ofString text).toArray = text.toByteArray := by
    rw [ofString_eq]
  rw [toString?, hbytes, String.fromUTF8?, dif_pos text.isValidUTF8]
  rfl

@[simp] theorem length_ofNat (width n : Nat) : (ofNat width n).length = width := by
  induction width generalizing n with
  | zero => rfl
  | succ width ih => rw [ofNat, List.length_append, ih, List.length_singleton]

theorem toNat_concat (bytes : Bytes) (b : UInt8) :
    toNat (bytes ++ [b]) = toNat bytes * 256 + b.toNat := by
  rw [toNat, List.foldl_append]
  rfl

/-- A number is read back from its bytes, if these are enough. -/
theorem toNat_ofNat {width n : Nat} (h : n < Nat.pow 256 width) : toNat (ofNat width n) = n := by
  induction width generalizing n with
  | zero =>
    obtain rfl : n = 0 := Nat.lt_one_iff.mp h
    rfl
  | succ width ih =>
    have hrest : n / 256 < Nat.pow 256 width := (Nat.div_lt_iff_lt_mul (by decide)).mpr h
    rw [ofNat, toNat_concat, ih hrest]
    simp
    omega

end Bytes

namespace Wire

/-- The reader takes these bytes, whatever follows them, and answers `a`; if it is not `alone`,
something must follow them, or the bytes must lie in memory. -/
def Reads (alone : Prop) (r : Reader α) (bytes : Bytes) (a : α) : Prop :=
  ∀ rest more streamed, (alone ∨ rest ≠ [] ∨ more = true ∨ streamed = false) →
    r ⟨bytes ++ rest, more, streamed⟩ = some (a, ⟨rest, more, streamed⟩)

/-- The reader answers `a` on a section of these bytes. -/
def ReadsAll (alone : Prop) (r : Reader α) (bytes : Bytes) (a : α) : Prop :=
  ∀ more streamed, (alone ∨ more = true ∨ streamed = false) →
    r ⟨bytes, more, streamed⟩ = some (a, ⟨[], more, streamed⟩)

variable {alone alone' : Prop} {r : Reader α} {f : α → Reader β} {bytes bytes' : Bytes} {a : α}
  {b : β} {c c' : Cursor}

/-- What comes after a reader goes on where it stopped. -/
theorem bind_eq (h : r c = some (a, c')) : (r >>= f) c = f a c' := by
  show (r c).bind _ = _
  rw [h]
  rfl

theorem Reads.mono (h : Reads alone r bytes a) (himp : alone' → alone) : Reads alone' r bytes a :=
  fun rest more streamed hmore => h rest more streamed (hmore.imp_left himp)

theorem Reads.all (h : Reads alone r bytes a) : ReadsAll alone r bytes a := by
  intro more streamed hmore
  have hread := h [] more streamed (hmore.imp_right .inr)
  rwa [List.append_nil] at hread

theorem Reads.pure (a : α) : Reads True (Pure.pure a) [] a :=
  fun _ _ _ _ => rfl

/-- One reader after another. -/
theorem Reads.bind (h : Reads alone r bytes a) (h' : Reads alone' (f a) bytes' b)
    (hlast : bytes' ≠ [] ∨ (alone' → alone)) : Reads alone' (r >>= f) (bytes ++ bytes') b := by
  intro rest more streamed hmore
  have hfirst : alone ∨ bytes' ++ rest ≠ [] ∨ more = true ∨ streamed = false := by
    rcases hlast with hne | himp
    · exact .inr (.inl fun h => hne (List.append_eq_nil_iff.mp h).1)
    · refine hmore.imp himp (Or.imp_left fun hne h => hne (List.append_eq_nil_iff.mp h).2)
  have hread := h (bytes' ++ rest) more streamed hfirst
  rw [List.append_assoc, bind_eq hread]
  exact h' rest more streamed hmore

/-- The last reader of several takes nothing more. -/
theorem Reads.bind_nil (h : Reads alone r bytes a) (h' : Reads True (f a) [] b) :
    Reads alone (r >>= f) bytes b := by
  have hboth := h.bind (h'.mono fun _ : alone => trivial) (.inr id)
  rwa [List.append_nil] at hboth

/-- A reader runs on bytes that come out of a text. -/
theorem ReadsAll.run (h : ReadsAll True r bytes a) (streamed : Bool) :
    r.run bytes streamed = some a := by
  rw [Reader.run, h false streamed (.inl trivial)]

/-! ## Fields -/

theorem reads_take {bytes : Bytes} (h : bytes ≠ []) :
    Reads True (Reader.take bytes.length) bytes bytes := by
  intro rest more streamed _
  have hlen : bytes.length ≠ 0 := by simpa using h
  simp [Reader.take, hlen]

theorem reads_u32 (h : bytes.length = 4) : Reads True Reader.u32 bytes bytes.toNat := by
  have htake := reads_take (show bytes ≠ [] by rintro rfl; cases h)
  rw [h] at htake
  exact htake.bind_nil (f := fun bytes => Pure.pure bytes.toNat) (Reads.pure _)

theorem reads_u32_ofNat {n : Nat} (h : n < UInt32.size) :
    Reads True Reader.u32 (Bytes.ofNat 4 n) n := by
  have hread := reads_u32 (Bytes.length_ofNat 4 n)
  rwa [Bytes.toNat_ofNat h] at hread

theorem get_eq (c : Cursor) : (get : Reader Cursor) c = some (c, c) :=
  rfl

theorem reads_nested (h : ReadsAll alone r bytes a) (hlen : bytes.length < UInt32.size) :
    Reads alone (Reader.nested r) (blob bytes) a := by
  intro rest more streamed hmore
  have hcount := reads_u32_ofNat hlen (bytes ++ rest) more streamed (.inl trivial)
  have hinner := h (more || !rest.isEmpty) streamed (by
    rcases hmore with halone | hrest | hmore | hmemory
    · exact .inl halone
    · exact .inr (.inl (by simp [hrest]))
    · exact .inr (.inl (by simp [hmore]))
    · exact .inr (.inr hmemory))
  have hfits : ¬ (bytes ++ rest).length < bytes.length := by
    rw [List.length_append]
    omega
  rw [blob, List.append_assoc]
  rw [Reader.nested, bind_eq hcount, bind_eq (get_eq _), if_neg hfits]
  simp only [List.take_left, List.drop_left, hinner]
  rfl

/-- A field holds any bytes. -/
theorem reads_blob (bytes : Bytes) (hlen : bytes.length < UInt32.size) :
    Reads (bytes ≠ []) Reader.blob (blob bytes) bytes := by
  refine reads_nested (fun more streamed hmore => ?_) hlen
  show Reader.take bytes.length _ = _
  by_cases hbytes : bytes = []
  · subst hbytes
    have hopen : ¬ (streamed = true ∧ ¬ more = true) := by
      rcases hmore with hne | hmore | hmemory
      · exact absurd rfl hne
      · simp [hmore]
      · simp [hmemory]
    rw [Reader.take, if_neg (Nat.lt_irrefl _), if_neg fun h => hopen h.2.2]
    rfl
  · have htake := (reads_take hbytes).all more streamed (.inl trivial)
    exact htake

theorem reads_text (s : String) (hlen : s.utf8ByteSize < UInt32.size) :
    Reads (s ≠ "") Reader.text (text s) s := by
  have hblob := reads_blob (Bytes.ofString s) (by rwa [Bytes.length_ofString])
  have htext := hblob.bind_nil
    (f := fun bytes => (Bytes.toString? bytes).elim failure pure) (b := s) ?_
  · refine htext.mono fun hne h => hne ?_
    have hsize := Bytes.length_ofString s
    rw [h] at hsize
    exact String.utf8ByteSize_eq_zero_iff.mp hsize.symm
  · rw [Bytes.toString?_ofString]
    exact Reads.pure s

theorem reads_label (s : String) (hlen : s.utf8ByteSize ≤ 48) (hne : s ≠ "") :
    Reads True Reader.label (text s) s := by
  have hsize := Bytes.length_ofString s
  have hblob := reads_blob (Bytes.ofString s)
    (Nat.lt_of_le_of_lt (hsize ▸ hlen) (by decide))
  have hlabel := hblob.bind_nil (b := s) (f := fun bytes =>
    if 48 < bytes.length then failure else (Bytes.toString? bytes).elim failure pure) ?_
  · refine hlabel.mono fun _ h => hne ?_
    rw [h] at hsize
    exact String.utf8ByteSize_eq_zero_iff.mp hsize.symm
  · rw [if_neg (by omega), Bytes.toString?_ofString]
    exact Reads.pure s

end Wire

/-! ## Ed25519 keys -/

namespace PublicKeyData

open Wire

variable {point : Bytes}

theorem reads_point32 (hpoint : point.length = 32) : Reads True readPoint32 (blob point) point := by
  have hblob := reads_blob point (by rw [hpoint]; decide)
  have hread := hblob.bind_nil (b := point) (f := fun point =>
    if point.length = 32 then Pure.pure point else failure) ?_
  · exact hread.mono fun _ h => by simp [h] at hpoint
  · rw [if_pos hpoint]
    exact Reads.pure point

theorem reads_algorithm : Reads True readAlgorithm (text "ssh-ed25519") .ed25519 := by
  have hlabel := reads_label "ssh-ed25519" (by decide) (by decide)
  refine hlabel.bind_nil ?_
  have hname : KeyAlgorithm.ofName? "ssh-ed25519" = some .ed25519 := by decide +kernel
  rw [hname]
  exact Reads.pure _

/-- An Ed25519 key is read back from its wire form. -/
theorem reads_encode (hpoint : point.length = 32) :
    Reads True read (encode (.ed25519 point)) (.ed25519 point) := by
  refine reads_algorithm.bind (f := readFields) ?_ (.inr id)
  exact (reads_point32 hpoint).bind_nil (f := fun point => Pure.pure (PublicKeyData.ed25519 point))
    (Reads.pure _)

end PublicKeyData

namespace PrivateKey

open Wire

variable {point seed : Bytes}

theorem reads_pair (hpoint : point.length = 32) (hseed : seed.length = 32) :
    Reads True (readPair .ed25519) (blob point ++ blob (seed ++ point))
      (.ed25519 point, .ed25519 seed) := by
  have hlen : (seed ++ point).length = 64 := by
    rw [List.length_append, hpoint, hseed]
  refine (PublicKeyData.reads_point32 hpoint).bind ?_ (.inr id)
  have hblob := reads_blob (seed ++ point) (by rw [hlen]; decide)
  refine (hblob.mono fun _ h => by simp [h] at hlen).bind_nil ?_
  have hhalves : (seed ++ point).length = 64 ∧ (seed ++ point).drop 32 = point :=
    ⟨hlen, List.drop_left' hseed⟩
  rw [if_pos hhalves, List.take_left' hseed]
  exact Reads.pure _

theorem length_padding (n : Nat) : (padding n).length = n := by
  simp [padding]

/-- The secret section of an Ed25519 key without a comment, filled up. -/
theorem reads_secretSection (check : Nat) (hpoint : point.length = 32) (hseed : seed.length = 32)
    {n : Nat} (hn : 0 < n) (hn' : n < 8)
    (hblock : ((secretSection check point seed "").length + n) % 8 = 0) :
    ReadsAll True (readSecretSection (.ed25519 point))
      (secretSection check point seed "" ++ padding n)
      ⟨⟨.ed25519 point, ""⟩, .ed25519 seed⟩ := by
  intro more streamed _
  have hcheck (rest : Bytes) :=
    reads_u32 (Bytes.length_ofNat 4 check) rest more streamed (.inl trivial)
  have halgorithm (rest : Bytes) :=
    PublicKeyData.reads_algorithm rest more streamed (.inl trivial)
  have hpair (rest : Bytes) := reads_pair hpoint hseed rest more streamed (.inl trivial)
  -- The comment is empty, and can only be read because the padding follows it.
  have hfilled : padding n ≠ [] := by
    rw [← List.length_pos_iff, length_padding]
    exact hn
  have hcomment := reads_text "" (by decide) (padding n) more streamed (.inr (.inl hfilled))
  have hblocks : ¬ (secretSection check point seed "" ++ padding n).length % 8 ≠ 0 := by
    rw [List.length_append, length_padding, hblock]
    exact fun h => h rfl
  have hpadded : ¬ (8 ≤ (padding n).length ∨ padding n ≠ padding (padding n).length) := by
    rw [length_padding]
    exact fun h => h.elim (Nat.not_le_of_lt hn') fun h => h rfl
  have hwhole : secretSection check point seed "" ++ padding n =
      Bytes.ofNat 4 check ++ (Bytes.ofNat 4 check ++ (text "ssh-ed25519" ++
        ((blob point ++ blob (seed ++ point)) ++ (text "" ++ padding n)))) := by
    simp only [secretSection, List.append_assoc]
  rw [readSecretSection, bind_eq (get_eq _), if_neg hblocks, hwhole, bind_eq (hcheck _),
    bind_eq (hcheck _), if_neg fun h => h rfl, bind_eq (halgorithm _), bind_eq (hpair _)]
  dsimp only
  rw [if_neg fun h => h rfl, bind_eq hcomment, bind_eq (get_eq _)]
  dsimp only
  rw [if_neg hpadded]
  rfl

theorem length_secretSection (check : Nat) (hpoint : point.length = 32) (hseed : seed.length = 32) :
    (secretSection check point seed "").length = 131 := by
  have hname : "ssh-ed25519".utf8ByteSize = 11 := by decide
  have hcomment : "".utf8ByteSize = 0 := by decide
  simp only [secretSection, text, blob, List.length_append, Bytes.length_ofNat,
    Bytes.length_ofString, hname, hcomment, hpoint, hseed]

/-- An Ed25519 key without a comment is read back from its binary form. -/
theorem reads_encodeEd25519 (check : Nat) (hpoint : point.length = 32) (hseed : seed.length = 32) :
    Reads True read (encodeEd25519 check point seed "")
      ⟨⟨.ed25519 point, ""⟩, .ed25519 seed⟩ := by
  intro rest more streamed _
  have hbody := length_secretSection check hpoint hseed
  have hsection := reads_secretSection check hpoint hseed (show 0 < 5 by decide) (by decide)
    (by rw [hbody])
  have hlen : (secretSection check point seed "" ++ padding 5).length < UInt32.size := by
    rw [List.length_append, hbody, length_padding]
    decide
  have hsecret := reads_nested hsection hlen rest more streamed (.inl trivial)
  have hencoded : (PublicKeyData.encode (.ed25519 point)).length < UInt32.size := by
    simp [PublicKeyData.encode, PublicKeyData.fields, PublicKeyData.algorithm, KeyAlgorithm.name,
      text, blob, Bytes.length_ofString, hpoint]
    decide
  have hpublic (rest : Bytes) := reads_nested (PublicKeyData.reads_encode hpoint).all hencoded
    rest more streamed (.inl trivial)
  have hmagic (rest : Bytes) :=
    reads_take (show magic ≠ [] by simp [magic]) rest more streamed (.inl trivial)
  have hnone (rest : Bytes) :=
    reads_label "none" (by decide) (by decide) rest more streamed (.inl trivial)
  have hzero (rest : Bytes) :=
    reads_u32_ofNat (show 0 < UInt32.size by decide) rest more streamed (.inl trivial)
  have hone (rest : Bytes) :=
    reads_u32_ofNat (show 1 < UInt32.size by decide) rest more streamed (.inl trivial)
  have hwhole : encodeEd25519 check point seed "" ++ rest = magic ++ (text "none" ++ (text "none" ++
      (Bytes.ofNat 4 0 ++ (Bytes.ofNat 4 1 ++ (blob (PublicKeyData.encode (.ed25519 point)) ++
        (blob (secretSection check point seed "" ++ padding 5) ++ rest)))))) := by
    simp [encodeEd25519, hbody, blob]
  have hstretching (rest : Bytes) :
      readStretching ⟨text "none" ++ (Bytes.ofNat 4 0 ++ rest), more, streamed⟩ =
        some (false, ⟨rest, more, streamed⟩) := by
    rw [readStretching, bind_eq (hnone _)]
    show (Reader.u32 >>= _) _ = _
    rw [bind_eq (hzero _), if_pos rfl]
    rfl
  have hcipher (c : Cursor) :
      ((cipher? "none").elim failure pure : Reader (Nat × Bool)) c = some ((8, false), c) := rfl
  rw [hwhole, read, bind_eq (hmagic _), if_neg fun h => h rfl, bind_eq (hnone _),
    bind_eq (hcipher _)]
  dsimp only
  rw [bind_eq (hstretching _), bind_eq (hone _), if_neg fun h => h rfl, bind_eq (hpublic _),
    if_neg fun h => h rfl, if_neg Bool.false_ne_true, hsecret]

end PrivateKey
end SshTunnels
