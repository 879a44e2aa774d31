import Mathlib.Logic.Relation
import SshTunnels.Proofs.Key.LegacyKeys

/-!
# The layout of RSA keys

The text of a key can be laid out anew without changing the key that is read (`find?_relaid`): line
ends with or without a carriage return, indentation, headers, the length of the base64 lines and
whatever follows the marker behind are all a matter of layout (`Relaid`).

Each step of layout puts one text for another between two parts that stay. Where no marker can lie
across the two seams (`Apart`), the same markers are found before and after the step, and what is
left to see is that the lines between the markers say the same (`find?_congr`).

`find?_spec` is all of what a text is read as.
-/

namespace SshTunnels.Armour.LegacyKey

open Text Relation

variable {m p q x y b c bs cs text text' : List Char} {ls ls' : List (List Char)}

/-! ## Layouts -/

/-- A line starts behind this text. -/
def LineStart (p : List Char) : Prop :=
  p = [] ∨ ∃ front, p = front ++ ['\n']

/-- A line stops in front of this text. -/
def LineStop (q : List Char) : Prop :=
  q = [] ∨ ∃ back, q = '\n' :: back ∨ q = '\r' :: '\n' :: back

/-- Base64 can start behind this text: at the start of a line, or right behind the marker. -/
def BodyStart (p : List Char) : Prop :=
  LineStart p ∨ ∃ before, FirstAt opening p before []

/-- Base64 can stop in front of this text: at the end of a line, or right at the marker. -/
def BodyStop (q : List Char) : Prop :=
  LineStop q ∨ closing <+: q

/-- One step from a text to another one with the same key, laid out in another way. -/
inductive Relaid : List Char → List Char → Prop where
  /-- A line ends with a carriage return and a line feed instead of a line feed. -/
  | lineEnd (p q : List Char) : Relaid (p ++ ['\n'] ++ q) (p ++ ['\r', '\n'] ++ q)
  /-- A line is indented. -/
  | indented (p bs q : List Char) (hp : LineStart p) (hbs : ∀ c ∈ bs, isBlank c = true) :
      Relaid (p ++ [] ++ q) (p ++ bs ++ q)
  /-- One more header stands in a line of its own. It holds no marker that would be the first. -/
  | header (p name value q : List Char) (hp : LineStart p) (hname : ':' ∉ name)
      (htype : trim name ≠ "Proc-Type".toList) (hline : '\n' ∉ name ++ ':' :: value)
      (hopening : opening <:+: p ∨ ¬ opening <:+: name ++ ':' :: value)
      (hclosing : ¬ closing <:+: name ++ ':' :: value) :
      Relaid (p ++ [] ++ q) (p ++ (name ++ ':' :: value ++ ['\n']) ++ q)
  /-- Base64 is wrapped into other lines. -/
  | rewrapped (p q : List Char) (ls ls' : List (List Char)) (hp : BodyStart p) (hq : BodyStop q)
      (hls : ∀ l ∈ ls, ∀ c ∈ l, isBase64Char c = true)
      (hls' : ∀ l ∈ ls', ∀ c ∈ l, isBase64Char c = true) (heq : ls.flatten = ls'.flatten) :
      Relaid (p ++ ['\n'].intercalate ls ++ q) (p ++ ['\n'].intercalate ls' ++ q)
  /-- Other text follows the marker behind. -/
  | after (u v v' : List Char) : Relaid (u ++ closing ++ v) (u ++ closing ++ v')

/-! ## Lines at the seams -/

theorem LineStart.of_suffix (hp : LineStart p) (h : b <:+ p) : LineStart b := by
  by_cases hb : b = []
  · exact .inl hb
  · rcases hp with rfl | ⟨front, rfl⟩
    · exact absurd (List.suffix_nil.mp h) hb
    · have hlast := h.getLast hb
      rw [List.getLast_append_singleton] at hlast
      exact .inr ⟨b.dropLast, by rw [← hlast, List.dropLast_append_getLast]⟩

theorem LineStart.ofSection_append (hb : LineStart b) (cs : List Char) :
    ofSection (b ++ cs) = ofSection b ++ ofSection cs := by
  rcases hb with rfl | ⟨front, rfl⟩
  · exact (empty_append _).symm
  · rw [ofSection_append_cons, ofSection_nil, append_empty, List.append_assoc,
      List.singleton_append, ofSection_append_cons]

/-- A text is a line behind a text where a line starts. -/
theorem exists_last_line (cs : List Char) :
    ∃ front line, LineStart front ∧ '\n' ∉ line ∧ cs = front ++ line := by
  induction cs using List.reverseRecOn with
  | nil => exact ⟨[], [], .inl rfl, List.not_mem_nil, rfl⟩
  | append_singleton cs c ih =>
    by_cases hc : c = '\n'
    · exact ⟨cs ++ [c], [], .inr ⟨cs, by rw [hc]⟩, List.not_mem_nil, (List.append_nil _).symm⟩
    · obtain ⟨front, line, hfront, hline, rfl⟩ := ih
      refine ⟨front, line ++ [c], hfront, ?_, List.append_assoc front line [c]⟩
      rw [List.mem_append, List.mem_singleton]
      rintro (h | h)
      · exact hline h
      · exact hc h.symm

theorem ofSection_append_return (cs : List Char) : ofSection (cs ++ ['\r']) = ofSection cs := by
  obtain ⟨front, line, hfront, hline, rfl⟩ := exists_last_line cs
  have hreturn : '\n' ∉ line ++ ['\r'] := by
    rw [List.mem_append]
    rintro (h | h)
    · exact hline h
    · exact absurd h (by decide)
  rw [List.append_assoc, hfront.ofSection_append, hfront.ofSection_append,
    ofSection_of_not_mem hreturn, ofSection_of_not_mem hline, ofLine_append_blanks isBlank_return]

theorem ofSection_blank_cons {d : Char} (hd : isBlank d = true) (cs : List Char) :
    ofSection (d :: cs) = ofSection cs := by
  have hblank : ∀ e ∈ [d], isBlank e = true := List.forall_mem_singleton.mpr hd
  have hline (line : List Char) (hline : '\n' ∉ line) :
      ofSection (d :: line) = ofSection line := by
    by_cases hfeed : d = '\n'
    · subst hfeed
      exact (ofSection_append_cons [] line).trans (empty_append _)
    · have hnot : '\n' ∉ d :: line := by
        rintro (_ | ⟨_, h⟩)
        · exact hfeed rfl
        · exact hline h
      rw [ofSection_of_not_mem hnot, ofSection_of_not_mem hline,
        ← ofLine_blanks_append hblank line, List.singleton_append]
  by_cases hmem : '\n' ∈ cs
  · obtain ⟨line, rest, rfl, hnot⟩ := List.eq_append_cons_of_mem hmem
    rw [← List.cons_append, ofSection_append_cons, ofSection_append_cons, hline line hnot]
  · exact hline cs hmem

theorem LineStop.ofSection_append (hc : LineStop c) (cs : List Char) :
    ofSection (cs ++ c) = ofSection cs ++ ofSection c := by
  have hfeed (back : List Char) : ofSection ('\n' :: back) = ofSection back :=
    ofSection_blank_cons rfl back
  rcases hc with rfl | ⟨back, rfl | rfl⟩
  · rw [List.append_nil, ofSection_nil, append_empty]
  · rw [ofSection_append_cons, hfeed]
  · rw [List.append_cons, ofSection_append_cons, ofSection_append_return,
      ofSection_blank_cons rfl, hfeed]

/-- Blanks in front of a line, or lines of them, make no difference. -/
theorem ofSection_blanks_append (hbs : ∀ c ∈ bs, isBlank c = true) (cs : List Char) :
    ofSection (bs ++ cs) = ofSection cs := by
  induction bs with
  | nil => rfl
  | cons d bs ih =>
    rw [List.cons_append, ofSection_blank_cons (hbs d List.mem_cons_self),
      ih fun c hc => hbs c (List.mem_cons_of_mem d hc)]

/-- A header makes no difference unless it says how the key is encrypted. -/
theorem ofLine_header {name value : List Char} (hname : ':' ∉ name)
    (htype : trim name ≠ "Proc-Type".toList) : ofLine (name ++ ':' :: value) = ⟨false, []⟩ := by
  have hunsealed : (ofLine (name ++ ':' :: value)).sealed = false := by
    rw [Bool.eq_false_iff, ne_eq, sealed_ofLine_iff, saysSealed_append_cons_iff hname]
    exact fun h => htype h.1
  have hcolon : ':' ∈ trim (name ++ ':' :: value) :=
    (mem_trim_iff (by decide)).mpr (List.mem_append_right name List.mem_cons_self)
  rw [ofLine_of_contains hcolon] at hunsealed ⊢
  rw [show isSealHeader _ = false from hunsealed]

/-! ## Base64 -/

theorem isBlank_of_isBase64Char {d : Char} (h : isBase64Char d = true) : isBlank d = false := by
  have hrange : 43 ≤ d.toNat ∧ d.toNat ≤ 122 := by
    rw [isBase64Char, Bool.or_eq_true, Bool.or_eq_true, Bool.or_eq_true, beq_iff_eq, beq_iff_eq,
      beq_iff_eq] at h
    rcases h with ((h | rfl) | rfl) | rfl
    · change (d.isUpper || d.isLower || d.isDigit) = true at h
      rw [Bool.or_eq_true, Bool.or_eq_true] at h
      rcases h with (hupper | hlower) | hdigit
      · have hletter : 65 ≤ d.toNat ∧ d.toNat ≤ 90 := of_decide_eq_true hupper
        omega
      · have hletter : 97 ≤ d.toNat ∧ d.toNat ≤ 122 :=
          (Bool.and_eq_true_iff.mp hlower).imp of_decide_eq_true of_decide_eq_true
        omega
      · have hvalue : 48 ≤ d.toNat ∧ d.toNat ≤ 57 :=
          (Bool.and_eq_true_iff.mp hdigit).imp of_decide_eq_true of_decide_eq_true
        omega
    · decide
    · decide
    · decide
  simp [isBlank]
  omega

theorem ofLine_base64 {l : List Char} (hl : ∀ c ∈ l, isBase64Char c = true) :
    ofLine l = ⟨false, l⟩ := by
  have htrim : trim l = l := trim_eq_self
    (fun c hc => isBlank_of_isBase64Char (hl c (List.mem_of_mem_head? hc)))
    (fun c hc => isBlank_of_isBase64Char (hl c (List.mem_of_mem_getLast? hc)))
  have hcolon : ':' ∉ trim l := by
    rw [htrim]
    exact fun h => absurd (hl _ h) (by decide)
  rw [ofLine_of_not_contains hcolon, htrim]

/-- Lines of base64 are read as the base64 that they are made of. -/
theorem ofSection_intercalate (hls : ∀ l ∈ ls, ∀ c ∈ l, isBase64Char c = true) :
    ofSection (['\n'].intercalate ls) = ⟨false, ls.flatten⟩ := by
  have hline {l : List Char} (hl : ∀ c ∈ l, isBase64Char c = true) : '\n' ∉ l :=
    fun h => absurd (hl _ h) (by decide)
  induction ls with
  | nil => rfl
  | cons l ls ih =>
    have hl := hls l List.mem_cons_self
    have hrest := ih fun l' hl' => hls l' (List.mem_cons_of_mem l hl')
    cases ls with
    | nil =>
      rw [List.intercalate_singleton, ofSection_of_not_mem (hline hl), ofLine_base64 hl,
        List.flatten_singleton]
    | cons l' ls =>
      rw [List.intercalate_cons_cons, ← List.append_cons, ofSection_append_cons, hrest,
        ofSection_of_not_mem (hline hl), ofLine_base64 hl, append_eq, List.flatten_cons]
      rfl

theorem not_mem_intercalate {d : Char} (hls : ∀ l ∈ ls, ∀ c ∈ l, isBase64Char c = true)
    (hd : isBase64Char d = false) (hfeed : d ≠ '\n') : d ∉ ['\n'].intercalate ls := by
  induction ls with
  | nil => exact List.not_mem_nil
  | cons l ls ih =>
    have hl : d ∉ l := fun h => Bool.noConfusion (hd.symm.trans (hls l List.mem_cons_self d h))
    have hrest := ih fun l' hl' => hls l' (List.mem_cons_of_mem l hl')
    cases ls with
    | nil => rwa [List.intercalate_singleton]
    | cons l' ls =>
      rw [List.intercalate_cons_cons, List.mem_append, List.mem_append, List.mem_singleton]
      rintro ((h | h) | h)
      · exact hl h
      · exact hfeed h
      · exact hrest h

/-! ## Markers at the seams -/

/-- A marker stands in front of a part that is put into a text or behind it, and not elsewhere. -/
def Apart (m p x q : List Char) : Prop :=
  splitAtFirst? m (p ++ x ++ q) = ((splitAtFirst? m p).map fun s => (s.1, s.2 ++ x ++ q)).or
    ((splitAtFirst? m q).map fun s => (p ++ x ++ s.1, s.2))

theorem Apart.of_not_occurs (h : Apart m p x q) (hp : ¬ m <:+: p) : splitAtFirst? m (p ++ x ++ q) =
    (splitAtFirst? m q).map fun s => (p ++ x ++ s.1, s.2) := by
  rw [h, splitAtFirst?_eq_none_iff.mpr hp]
  rfl

theorem apart_of_clear (hp : Clear m p (x ++ q)) (hq : Clear m x q)
    (hx : splitAtFirst? m x = none) : Apart m p x q := by
  rw [Apart, List.append_assoc, splitAtFirst?_append hp, splitAtFirst?_append_of_none hq hx,
    Option.map_map]
  simp only [Function.comp_def, List.append_assoc]

theorem apart_of_occurs (h : m <:+: p) (x q : List Char) : Apart m p x q := by
  obtain ⟨s, hs⟩ := Option.ne_none_iff_exists'.mp (splitAtFirst?_ne_none h)
  rw [Apart, List.append_assoc, splitAtFirst?_append_of_some hs, hs]
  simp only [Option.map_some, Option.some_or, List.append_assoc]

/-- A text without a hyphen holds no start of a marker. -/
theorem apart_of_not_mem (hm : m ∈ [opening, closing]) (hx : '-' ∉ x) (hp : Clear m p (x ++ q)) :
    Apart m p x q := by
  obtain ⟨t, rfl⟩ : ∃ t, m = '-' :: t := by
    rcases List.mem_pair.mp hm with rfl | rfl
    · exact ⟨opening.tail, rfl⟩
    · exact ⟨closing.tail, rfl⟩
  have hq : Clear ('-' :: t) x q := by
    intro a b hab ha _ hsuffix _
    obtain ⟨d, a, rfl⟩ := List.exists_cons_of_ne_nil ha
    obtain ⟨rfl, -⟩ := List.cons.inj hab
    exact hx (hsuffix.subset List.mem_cons_self)
  exact apart_of_clear hp hq
    (splitAtFirst?_eq_none_iff.mpr fun h => hx (h.subset List.mem_cons_self))

theorem LineStart.clear (hp : LineStart p) (hm : m ∈ [opening, closing]) (v : List Char) :
    Clear m p v := by
  rcases hp with rfl | ⟨front, rfl⟩
  · exact clear_nil_left m v
  · refine clear_concat ?_ front v
    rcases List.mem_pair.mp hm with rfl | rfl <;> decide

/-- Between the part of the marker behind that the marker in front ends with and a part that it
starts with itself, it has a space. -/
theorem space_mem_closing {a : List Char} (h : closing = a ++ x ++ b) (ha : a ≠ []) (hb : b ≠ [])
    (hsuffix : a <:+ opening) (hself : b <+: closing) : ' ' ∈ x := by
  -- both parts are hyphens
  have hfront : ∀ i < 30, closing.take i <:+ opening → i ≤ 5 := by decide +kernel
  have hback : ∀ i < 29, 0 < i → closing.drop i <+: closing → 24 ≤ i := by decide +kernel
  have hlength := congrArg List.length h
  have hclosing : closing.length = 29 := rfl
  have hpos := List.length_pos_iff.mpr ha
  have hpos' := List.length_pos_iff.mpr hb
  rw [List.length_append, List.length_append, hclosing] at hlength
  have hlow : a.length ≤ 5 := by
    refine hfront a.length (by omega) ?_
    rwa [h, List.append_assoc, List.take_left]
  have hhigh : 24 ≤ a.length + x.length := by
    refine hback _ (by omega) (by omega) ?_
    rw [← List.length_append]
    nth_rewrite 1 [h]
    rwa [List.drop_left]
  have hspace : closing[8]? = some ' ' := rfl
  rw [h, List.append_assoc, List.getElem?_append_right (by omega),
    List.getElem?_append_left (by omega)] at hspace
  exact List.mem_of_getElem? hspace

theorem hyphen_mem_of_suffix (hb : b <:+ closing) (hne : b ≠ []) : '-' ∈ b := by
  have hlast : b.getLast hne = '-' := hb.getLast hne
  exact hlast ▸ List.getLast_mem hne

/-- Where base64 stops, what could be the rest of the marker behind is its start. -/
theorem BodyStop.starts_closing (hq : BodyStop q) (hb : b <:+ closing) (hne : b ≠ [])
    (hbq : b <+: q) : b <+: closing := by
  rcases hq with (rfl | ⟨back, rfl | rfl⟩) | hstop
  · exact absurd (List.prefix_nil.mp hbq) hne
  · have hhead : b.head hne = '\n' := hbq.head hne
    exact absurd (hb.subset (hhead ▸ List.head_mem hne)) (by decide)
  · have hhead : b.head hne = '\r' := hbq.head hne
    exact absurd (hb.subset (hhead ▸ List.head_mem hne)) (by decide)
  · exact List.prefix_of_prefix_length_le hbq hstop hb.length_le

/-- No marker lies across base64 that stands behind the marker in front. -/
theorem clear_closing {before : List Char} (hp : p = before ++ opening) (hhyphen : '-' ∉ x)
    (hspace : ' ' ∉ x) (hq : BodyStop q) : Clear closing p (x ++ q) := by
  intro a b hab ha hb hsuffix hfront
  have hrest : b <:+ closing := ⟨a, hab.symm⟩
  have hopening : a <:+ opening := by
    refine List.suffix_of_suffix_length_le hsuffix ⟨before, hp.symm⟩ ?_
    calc a.length
      _ ≤ closing.length := List.IsPrefix.length_le ⟨b, hab.symm⟩
      _ ≤ opening.length := by decide
  -- the marker has a hyphen at its end, so it ends behind the base64
  have hbx : ¬ b <+: x := fun h => hhyphen (h.subset (hyphen_mem_of_suffix hrest hb))
  rcases prefix_append_cases hfront with h | ⟨b', rfl, hbq⟩
  · exact hbx h
  have hne : b' ≠ [] := by
    rintro rfl
    exact hbx (by rw [List.append_nil])
  have hself := hq.starts_closing ((List.suffix_append x b').trans hrest) hne hbq
  rw [← List.append_assoc] at hab
  exact hspace (space_mem_closing hab ha hne hopening hself)

theorem BodyStart.apart (hp : BodyStart p) (hq : BodyStop q) (hm : m ∈ [opening, closing])
    (hhyphen : '-' ∉ x) (hspace : ' ' ∉ x) : Apart m p x q := by
  rcases hp with hp | ⟨before, hfirst⟩
  · exact apart_of_not_mem hm hhyphen (hp.clear hm _)
  · rcases List.mem_pair.mp hm with rfl | rfl
    · exact apart_of_occurs hfirst.occurs x q
    · exact apart_of_not_mem hm hhyphen
        (clear_closing (hfirst.eq.trans (List.append_nil _)) hhyphen hspace hq)

theorem BodyStart.lineStart {before : List Char} (hp : BodyStart p)
    (h : FirstAt opening p before b) : LineStart b := by
  rcases hp with hp | ⟨before', hfirst⟩
  · exact hp.of_suffix ⟨before ++ opening, h.eq.symm⟩
  · have heq := (splitAtFirst?_eq_some_iff.mpr h).symm.trans (splitAtFirst?_eq_some_iff.mpr hfirst)
    cases heq
    exact .inl rfl

theorem BodyStop.lineStop {after : List Char} (hq : BodyStop q) (h : FirstAt closing q c after) :
    LineStop c := by
  have heq := h.eq
  rcases hq with (rfl | ⟨back, rfl | rfl⟩) | ⟨t, rfl⟩
  · exact .inl (List.append_eq_nil_iff.mp (List.append_eq_nil_iff.mp heq.symm).1).1
  · cases c with
    | nil => exact .inl rfl
    | cons d c =>
      obtain ⟨rfl, -⟩ := List.cons.inj heq
      exact .inr ⟨c, .inl rfl⟩
  · cases c with
    | nil => exact .inl rfl
    | cons d c =>
      obtain ⟨rfl, htail⟩ := List.cons.inj heq
      cases c with
      | nil => exact absurd (List.cons.inj htail).1 (by decide)
      | cons e c =>
        obtain ⟨rfl, -⟩ := List.cons.inj htail
        exact .inr ⟨c, .inr rfl⟩
  · have hle := h.first [] t rfl
    exact .inl (List.eq_nil_of_length_eq_zero (Nat.le_zero.mp hle))

/-! ## One text for another -/

/-- Text behind the marker behind does not matter. -/
theorem find?_append (h : closing <:+: p) (q : List Char) : find? (p ++ q) = find? p := by
  obtain ⟨⟨upTo, rest⟩, hp⟩ := Option.ne_none_iff_exists'.mp (splitAtFirst?_ne_none h)
  have hpq := splitAtFirst?_append_of_some hp q
  cases ho : splitAtFirst? opening p with
  | some s => rw [find?_eq_ite ho hp, find?_eq_ite (splitAtFirst?_append_of_some ho q) hpq]
  | none =>
    rw [find?_eq_none_of_opening ho]
    -- a marker in front that is only found now ends too late
    cases hoq : splitAtFirst? opening (p ++ q) with
    | none => exact find?_eq_none_of_opening hoq
    | some s =>
      rw [find?_eq_ite hoq hpq, if_neg]
      intro hle
      obtain ⟨cs, heq, -⟩ := find?_eq_ofSection (splitAtFirst?_eq_some_iff.mp hoq)
        (splitAtFirst?_eq_some_iff.mp hpq) hle
      refine splitAtFirst?_eq_none_iff.mp ho ⟨s.1, cs ++ closing ++ rest, ?_⟩
      rw [(splitAtFirst?_eq_some_iff.mp hp).eq, heq]
      simp only [List.append_assoc]

/-- Where both markers are found behind a text, it does not matter. -/
theorem find?_append_left
    (ho : splitAtFirst? opening (p ++ q) = (splitAtFirst? opening q).map fun s => (p ++ s.1, s.2))
    (hc : splitAtFirst? closing (p ++ q) = (splitAtFirst? closing q).map fun s => (p ++ s.1, s.2)) :
    find? (p ++ q) = find? q := by
  cases hoq : splitAtFirst? opening q with
  | none =>
    rw [hoq] at ho
    rw [find?_eq_none_of_opening hoq, find?_eq_none_of_opening ho]
  | some s =>
    cases hcq : splitAtFirst? closing q with
    | none =>
      rw [hcq] at hc
      rw [find?_eq_none_of_closing hcq, find?_eq_none_of_closing hc]
    | some t =>
      rw [hoq] at ho
      rw [hcq] at hc
      rw [find?_eq_ite ho hc, find?_eq_ite hoq hcq]
      simp only [List.length_append, Nat.add_assoc, Nat.add_le_add_iff_left, List.drop_append,
        List.drop_eq_nil_of_le (Nat.le_add_right p.length _), List.nil_append,
        Nat.add_sub_cancel_left]

/-- The key between two markers, one in front of a part of a text and one behind it. -/
theorem Apart.find?_eq {before after : List Char} (hx : Apart closing p x q)
    (hcp : ¬ closing <:+: p) (ho : FirstAt opening p before b) (hc : FirstAt closing q c after) :
    find? (p ++ x ++ q) = some (ofSection (b ++ x ++ c)) := by
  have hclosing := hx.of_not_occurs hcp
  have hopening := splitAtFirst?_append_of_some (splitAtFirst?_eq_some_iff.mpr ho) (x ++ q)
  rw [splitAtFirst?_eq_some_iff.mpr hc] at hclosing
  rw [← List.append_assoc] at hopening
  have hupTo : p ++ x ++ c = before ++ opening ++ (b ++ x ++ c) := by
    rw [ho.eq]
    simp only [List.append_assoc]
  have hle : (before ++ opening).length ≤ (before ++ opening ++ (b ++ x ++ c)).length :=
    (List.prefix_append _ _).length_le
  rw [find?_eq_ite hopening hclosing, hupTo, ← List.length_append, List.drop_left, if_pos hle]

/-- Where no marker lies across the seams, a text between them can be put for another if the lines
between the markers say the same. -/
theorem find?_congr (hx : ∀ m ∈ [opening, closing], Apart m p x q)
    (hy : ∀ m ∈ [opening, closing], Apart m p y q)
    (hsection : ∀ before b c after, FirstAt opening p before b → FirstAt closing q c after →
      ofSection (b ++ x ++ c) = ofSection (b ++ y ++ c)) :
    find? (p ++ x ++ q) = find? (p ++ y ++ q) := by
  have hopening : opening ∈ [opening, closing] := List.mem_cons_self
  have hclosing : closing ∈ [opening, closing] := List.mem_cons_of_mem _ List.mem_cons_self
  by_cases hcp : closing <:+: p
  · rw [List.append_assoc, List.append_assoc, find?_append hcp, find?_append hcp]
  have hxc := (hx closing hclosing).of_not_occurs hcp
  have hyc := (hy closing hclosing).of_not_occurs hcp
  by_cases hop : opening <:+: p
  · obtain ⟨⟨before, b⟩, ho⟩ := Option.ne_none_iff_exists'.mp (splitAtFirst?_ne_none hop)
    cases hcq : splitAtFirst? closing q with
    | none =>
      rw [hcq] at hxc hyc
      rw [find?_eq_none_of_closing hxc, find?_eq_none_of_closing hyc]
    | some s =>
      have hbefore := splitAtFirst?_eq_some_iff.mp ho
      have hafter := splitAtFirst?_eq_some_iff.mp hcq
      rw [(hx closing hclosing).find?_eq hcp hbefore hafter,
        (hy closing hclosing).find?_eq hcp hbefore hafter, hsection _ _ _ _ hbefore hafter]
  · rw [find?_append_left ((hx opening hopening).of_not_occurs hop) hxc,
      find?_append_left ((hy opening hopening).of_not_occurs hop) hyc]

/-! ## The steps -/

/-- What is put at the start of a line. -/
theorem LineStart.find?_eq (hp : LineStart p) (hx : ∀ m ∈ [opening, closing], Apart m p x q)
    (hsection : ∀ c, ofSection (x ++ c) = ofSection c) :
    find? (p ++ [] ++ q) = find? (p ++ x ++ q) := by
  refine find?_congr (fun m hm => apart_of_not_mem hm List.not_mem_nil (hp.clear hm _)) hx ?_
  intro before b c after ho _
  have hb : LineStart b := hp.of_suffix ⟨before ++ opening, ho.eq.symm⟩
  rw [List.append_nil, List.append_assoc, hb.ofSection_append, hb.ofSection_append, hsection]

theorem find?_lineEnd (p q : List Char) :
    find? (p ++ ['\n'] ++ q) = find? (p ++ ['\r', '\n'] ++ q) := by
  have hapart {d : Char} (x : List Char) (hd : ∀ m ∈ [opening, closing], d ∉ m)
      (hx : '-' ∉ d :: x) (m : List Char) (hm : m ∈ [opening, closing]) : Apart m p (d :: x) q :=
    apart_of_not_mem hm hx (clear_cons (hd m hm) p (x ++ q))
  refine find?_congr (hapart [] (by decide) (by decide)) (hapart ['\n'] (by decide) (by decide)) ?_
  intro before b c after _ _
  rw [← List.append_cons, ofSection_append_cons, List.append_assoc, ← ofSection_append_return b,
    ← ofSection_append_cons]
  simp only [List.append_assoc, List.cons_append, List.nil_append]

theorem find?_header {name value : List Char} (hp : LineStart p) (hname : ':' ∉ name)
    (htype : trim name ≠ "Proc-Type".toList) (hline : '\n' ∉ name ++ ':' :: value)
    (hopening : opening <:+: p ∨ ¬ opening <:+: name ++ ':' :: value)
    (hclosing : ¬ closing <:+: name ++ ':' :: value) (q : List Char) :
    find? (p ++ [] ++ q) = find? (p ++ (name ++ ':' :: value ++ ['\n']) ++ q) := by
  have happart {m : List Char} (hm : m ∈ [opening, closing])
      (hnot : ¬ m <:+: name ++ ':' :: value) :
      Apart m p (name ++ ':' :: value ++ ['\n']) q := by
    have hfeed : '\n' ∉ m := by
      rcases List.mem_pair.mp hm with rfl | rfl <;> decide
    have hend : splitAtFirst? m ['\n'] = none := by
      rcases List.mem_pair.mp hm with rfl | rfl <;> rfl
    refine apart_of_clear (hp.clear hm _) (clear_concat hfeed _ q) ?_
    rw [splitAtFirst?_append_of_none (clear_cons hfeed _ []) (splitAtFirst?_eq_none_iff.mpr hnot),
      hend]
    rfl
  refine hp.find?_eq (fun m hm => ?_) fun c => ?_
  · rcases List.mem_pair.mp hm with rfl | rfl
    · rcases hopening with h | h
      · exact apart_of_occurs h _ q
      · exact happart hm h
    · exact happart hm hclosing
  · rw [← List.append_cons, ofSection_append_cons, ofSection_of_not_mem hline,
      ofLine_header hname htype, empty_append]

theorem find?_rewrapped (hp : BodyStart p) (hq : BodyStop q)
    (hls : ∀ l ∈ ls, ∀ c ∈ l, isBase64Char c = true)
    (hls' : ∀ l ∈ ls', ∀ c ∈ l, isBase64Char c = true) (heq : ls.flatten = ls'.flatten) :
    find? (p ++ ['\n'].intercalate ls ++ q) = find? (p ++ ['\n'].intercalate ls' ++ q) := by
  refine find?_congr (fun m hm => hp.apart hq hm (not_mem_intercalate hls (by decide) (by decide))
    (not_mem_intercalate hls (by decide) (by decide))) (fun m hm => hp.apart hq hm
    (not_mem_intercalate hls' (by decide) (by decide))
    (not_mem_intercalate hls' (by decide) (by decide))) ?_
  intro before b c after ho hc
  have hb := hp.lineStart ho
  have hc := hq.lineStop hc
  rw [List.append_assoc, List.append_assoc, hb.ofSection_append, hb.ofSection_append,
    hc.ofSection_append, hc.ofSection_append, ofSection_intercalate hls,
    ofSection_intercalate hls', heq]

/-- A step of layout leaves the key as it is. -/
theorem Relaid.find?_eq (h : Relaid text text') : find? text = find? text' := by
  cases h with
  | lineEnd p q => exact find?_lineEnd p q
  | indented p bs q hp hbs =>
    refine hp.find?_eq (fun m hm => ?_) fun c => ofSection_blanks_append hbs c
    exact apart_of_not_mem hm (fun h => absurd (hbs _ h) (by decide)) (hp.clear hm _)
  | header p name value q hp hname htype hline hopening hclosing =>
    exact find?_header hp hname htype hline hopening hclosing q
  | rewrapped p q ls ls' hp hq hls hls' heq => exact find?_rewrapped hp hq hls hls' heq
  | after u v v' =>
    have hclosing : closing <:+: u ++ closing := (List.suffix_append u closing).isInfix
    rw [find?_append hclosing, find?_append hclosing]

/-- A text that is laid out anew has the same key. -/
theorem find?_relaid (h : EqvGen Relaid text text') : find? text = find? text' := by
  induction h with
  | rel text text' h => exact h.find?_eq
  | refl text => rfl
  | symm text text' _ ih => exact ih.symm
  | trans text text' text'' _ _ ih ih' => exact ih.trans ih'

/-- Nothing is read of a text where a marker is missing or the first one behind starts too early.
Any other text is read line by line between its markers, and however it is laid out. -/
theorem find?_spec (text : List Char) :
    (find? text = none ↔ ¬ opening <:+: text ∨ ¬ closing <:+: text ∨ ∃ before after upTo rest,
      FirstAt opening text before after ∧ FirstAt closing text upTo rest ∧
        upTo.length < before.length + opening.length) ∧
    (∀ before after upTo rest, FirstAt opening text before after → FirstAt closing text upTo rest →
      before.length + opening.length ≤ upTo.length →
        ∃ cs key, upTo = before ++ opening ++ cs ∧ find? text = some key ∧
          key.body = (((lines cs).map trim).filter (':' ∉ ·)).flatten ∧
          (key.sealed = true ↔ ∃ line ∈ lines cs, SaysSealed line)) ∧
    ∀ text', EqvGen Relaid text text' → find? text' = find? text := by
  refine ⟨find?_eq_none_iff, fun before after upTo rest ho hc hle => ?_, fun text' h =>
    (find?_relaid h).symm⟩
  obtain ⟨cs, hupTo, hfind⟩ := find?_eq_ofSection ho hc hle
  exact ⟨cs, ofSection cs, hupTo, hfind, body_ofSection cs, sealed_ofSection_iff cs⟩

/-- A key in one line, and the same one in two lines, indented and under a header. -/
theorem find?_spec_two_lines :
    (∃ key, find? (opening ++ ['\n', 'M', 'I', 'I', 'B', '\n'] ++ closing) = some key ∧
      key.body = ['M', 'I', 'I', 'B']) ∧
    find? (opening ++ ['\r', '\n', 'A', ':', 'b', '\n', ' ', 'M', 'I', '\n', 'I', 'B', '\n'] ++
        closing ++ [';']) =
      find? (opening ++ ['\n', 'M', 'I', 'I', 'B', '\n'] ++ closing) := by
  constructor
  · have hopening : FirstAt opening (opening ++ ['\n', 'M', 'I', 'I', 'B', '\n'] ++ closing) []
        (['\n', 'M', 'I', 'I', 'B', '\n'] ++ closing) :=
      splitAtFirst?_eq_some_iff.mp (by decide +kernel)
    have hclosing : FirstAt closing (opening ++ ['\n', 'M', 'I', 'I', 'B', '\n'] ++ closing)
        (opening ++ ['\n', 'M', 'I', 'I', 'B', '\n']) [] :=
      splitAtFirst?_eq_some_iff.mp (by decide +kernel)
    obtain ⟨cs, key, hcs, hkey, hbody, -⟩ :=
      (find?_spec _).2.1 _ _ _ _ hopening hclosing (by decide +kernel)
    obtain rfl := List.append_cancel_left hcs
    exact ⟨key, hkey, hbody.trans (by decide +kernel)⟩
  · have step {text text' : List Char} (h : Relaid text text') : find? text' = find? text :=
      (find?_spec text).2.2 text' (.rel text text' h)
    have hstart : LineStart (opening ++ ['\n']) := .inr ⟨opening, rfl⟩
    have hrewrapped := step (.rewrapped (opening ++ ['\n']) ('\n' :: closing) [['M', 'I', 'I', 'B']]
      [['M', 'I'], ['I', 'B']] (.inl hstart) (.inl (.inr ⟨closing, .inl rfl⟩))
      (by simp [isBase64Char]) (by simp [isBase64Char]) rfl)
    have hindented := step (.indented (opening ++ ['\n']) [' ']
      (['M', 'I', '\n', 'I', 'B', '\n'] ++ closing) hstart (List.forall_mem_singleton.mpr rfl))
    have hheader := step (.header (opening ++ ['\n']) ['A'] ['b']
      ([' ', 'M', 'I', '\n', 'I', 'B', '\n'] ++ closing) hstart (by decide) (by decide) (by decide)
      (.inr (by decide)) (by decide))
    have hlineEnd := step (.lineEnd opening
      (['A', ':', 'b', '\n', ' ', 'M', 'I', '\n', 'I', 'B', '\n'] ++ closing))
    have hafter := step (.after (opening ++
      ['\r', '\n', 'A', ':', 'b', '\n', ' ', 'M', 'I', '\n', 'I', 'B', '\n']) [] [';'])
    simp only [List.append_assoc, List.cons_append, List.nil_append, List.append_nil,
      List.intercalate_cons_cons, List.intercalate_singleton] at *
    rw [hafter, hlineEnd, hheader, hindented, hrewrapped]

end SshTunnels.Armour.LegacyKey
