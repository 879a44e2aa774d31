import SshTunnels.Proofs.Json.Records
import SshTunnels.Proofs.Json.Written
import SshTunnels.Proofs.Time.StoredReading
import SshTunnels.Tunnel.Json

/-!
# Reading written configurations

A configuration is read back from its written form (`ofJson?_toJson`), and it is read alike from
objects that say the same (`ofJson?_of_sameFields`): the members may stand in any order, those that
no field has the name of are skipped, and a user who is absent may be left out. Both go for texts,
too (`decode_write`), but not for every member that is skipped: as the kind may be named last, all
members are kept until it is known, and a value that cannot be kept is a fault.
-/

namespace SshTunnels

open Json

theorem Json.port?_ofNat (p : UInt16) : (Json.ofNat p.toNat).port? = some p := by
  have hp : p.toNat < 65536 := p.toNat_lt
  have hint : (Json.ofNat p.toNat).int? = some (p.toNat : Int) := by
    have hsize : p.toNat < UInt64.size := Nat.lt_trans hp (by decide)
    simp [int?, Json.ofNat, Number.toInt?, hsize]
  have hrange : (0 : Int) ≤ p.toNat ∧ (p.toNat : Int) ≤ 65535 := by omega
  simp [port?, intIn?, hint, hrange, Option.filter]

theorem Uuid.ofJson?_text (id : Uuid) : Uuid.ofJson? (.string id.text) = some id := by
  rw [Uuid.ofJson?, string?, Option.bind_some, Uuid.ofString?_text]

theorem Timestamp.ofJson?_text {t : Timestamp} (ht : t.Civil) :
    Timestamp.ofJson? (.string t.text) = some t := by
  rw [Timestamp.ofJson?, string?, Option.bind_some, Timestamp.ofString?_text ht]

namespace StandardTunnel

theorem fields?_members (t : StandardTunnel) :
    (Json.object t.members).fields? fieldNames = some t.members := by
  have hall : t.members.filter (fun m => fieldNames.contains m.1) = t.members := by
    simp [members, fieldNames]
  have hnames : (t.members.map (·.1)).Nodup := by
    simp [members]
  simp only [fields?, hall, if_pos hnames]

/-- A standard tunnel is read back from its members. -/
theorem ofJson?_members {t : StandardTunnel} (ht : t.createdAt.Civil) :
    ofJson? (.object t.members) = some t := by
  have huser : Fields.optional t.members "ssh_user" string? = some t.sshUser := by
    cases h : t.sshUser with
    | none => simp [Fields.optional, members, List.lookup_cons, h, Json.ofString?]
    | some user => simp [Fields.optional, members, List.lookup_cons, h, Json.ofString?, string?]
  rw [members] at huser
  rw [ofJson?, fields?_members]
  simp [Fields.required, members, List.lookup_cons, Uuid.ofJson?_text,
    Timestamp.ofJson?_text ht, port?_ofNat, string?, bool?, huser]

end StandardTunnel

namespace ReverseTunnel

theorem fields?_members (t : ReverseTunnel) :
    (Json.object t.members).fields? fieldNames = some t.members := by
  have hall : t.members.filter (fun m => fieldNames.contains m.1) = t.members := by
    simp [members, fieldNames]
  have hnames : (t.members.map (·.1)).Nodup := by
    simp [members]
  simp only [fields?, hall, if_pos hnames]

/-- A reverse tunnel is read back from its members. -/
theorem ofJson?_members {t : ReverseTunnel} (ht : t.createdAt.Civil) :
    ofJson? (.object t.members) = some t := by
  rw [ofJson?, fields?_members]
  simp [Fields.required, members, List.lookup_cons, Uuid.ofJson?_text, Timestamp.ofJson?_text ht,
    port?_ofNat, bool?]

end ReverseTunnel

namespace TunnelConfig

/-- The members of the written form. -/
def members : TunnelConfig → List (String × Json)
  | .standard t => ("kind", .string TunnelKind.standard.name) :: t.members
  | .reverse t => ("kind", .string TunnelKind.reverse.name) :: t.members

theorem toJson_eq (c : TunnelConfig) : c.toJson = .object c.members := by
  cases c <;> rfl

theorem kept_ofNat (p : UInt16) : (Json.ofNat p.toNat).Kept := by
  have hsize : p.toNat < UInt64.size := Nat.lt_trans p.toNat_lt (by decide)
  refine ⟨?_, Nat.succ_pos _⟩
  simp [keepable, Json.ofNat, Number.toInt?, hsize]

theorem kept_string (text : String) : (Json.string text).Kept :=
  ⟨rfl, Nat.succ_pos _⟩

theorem kept_of_mem_members (c : TunnelConfig) : ∀ m ∈ c.members, m.2.Kept := by
  cases c with
  | standard t =>
    have huser : (Json.ofString? t.sshUser).Kept := by
      cases t.sshUser with
      | none => exact ⟨rfl, Nat.succ_pos _⟩
      | some user => exact kept_string user
    have henabled : (Json.bool t.enabled).Kept := ⟨rfl, Nat.succ_pos _⟩
    simp [members, StandardTunnel.members, kept_string, kept_ofNat, huser, henabled]
  | reverse t =>
    have henabled : (Json.bool t.enabled).Kept := ⟨rfl, Nat.succ_pos _⟩
    simp [members, ReverseTunnel.members, kept_string, kept_ofNat, henabled]

theorem plain_toJson (c : TunnelConfig) : c.toJson.plain = true := by
  cases c with
  | standard t =>
    cases h : t.sshUser <;>
      simp [toJson, StandardTunnel.members, plain, plainMembers, Json.ofNat, Number.plain, h,
        Json.ofString?]
  | reverse t =>
    simp [toJson, ReverseTunnel.members, plain, plainMembers, Json.ofNat, Number.plain]

/-- Reads a configuration of a named kind from the other members of an object. -/
def ofNamed? (ms : List (String × Json)) : String → Option TunnelConfig
  | "standard" => (StandardTunnel.ofJson? (.object ms)).map .standard
  | "reverse" => (ReverseTunnel.ofJson? (.object ms)).map .reverse
  | _ => none

theorem ofJson?_object (ms : List (String × Json)) : ofJson? (.object ms) =
    if ∀ m ∈ ms, m.2.Kept then
      (tagOf? "kind" ms).bind (ofNamed? (ms.filter (·.1 != "kind"))) else none := by
  rw [ofJson?, tagged?_object]
  by_cases hkept : ∀ m ∈ ms, m.2.Kept
  · rw [if_pos hkept, if_pos hkept]
    cases tagOf? "kind" ms with
    | none => rfl
    | some kind =>
      rw [Option.map_some, Option.bind_some]
      split
      · next heq => cases heq; rfl
      · next heq => cases heq; rfl
      · next hstandard hreverse =>
        unfold ofNamed?
        split
        · exact absurd rfl (hstandard _)
        · exact absurd rfl (hreverse _)
        · rfl
  · rw [if_neg hkept, if_neg hkept]

/-- A configuration is read back from its written form. -/
theorem ofJson?_toJson {c : TunnelConfig} (hc : c.createdAt.Civil) :
    ofJson? c.toJson = some c := by
  rw [toJson_eq, ofJson?_object, if_pos c.kept_of_mem_members]
  cases c with
  | standard t =>
    have htag : tagOf? "kind" (members (.standard t)) = some "standard" := by
      simp [tagOf?, members, StandardTunnel.members, TunnelKind.name]
    have hrest : (members (.standard t)).filter (·.1 != "kind") = t.members := by
      simp [members, StandardTunnel.members]
    rw [htag, hrest, Option.bind_some, ofNamed?, StandardTunnel.ofJson?_members hc, Option.map_some]
  | reverse t =>
    have htag : tagOf? "kind" (members (.reverse t)) = some "reverse" := by
      simp [tagOf?, members, ReverseTunnel.members, TunnelKind.name]
    have hrest : (members (.reverse t)).filter (·.1 != "kind") = t.members := by
      simp [members, ReverseTunnel.members]
    rw [htag, hrest, Option.bind_some, ofNamed?, ReverseTunnel.ofJson?_members hc, Option.map_some]

/-! ## Objects that say the same -/

/-- The fields that are read for a tunnel of this kind. -/
def fieldNames : TunnelKind → List String
  | .standard => StandardTunnel.fieldNames
  | .reverse => ReverseTunnel.fieldNames

/-- No field of this name is read from an object with these members. -/
def Unknown (ms : List (String × Json)) (name : String) : Prop :=
  name ≠ "kind" ∧ ∀ kind : TunnelKind, ("kind", .string kind.name) ∈ ms → name ∉ fieldNames kind

/-- The two objects differ in the order of their members, in members of which neither the tag nor a
field of the tunnel has the name, and in whether a user who is absent is said to be. -/
inductive SameFields : List (String × Json) → List (String × Json) → Prop
  | reordered {ms ms' : List (String × Json)} : ms.Perm ms' → SameFields ms ms'
  | extra {ms : List (String × Json)} {name : String} {x : Json} :
      Unknown ms name → x.Kept → SameFields ms ((name, x) :: ms)
  | noUser {ms : List (String × Json)} :
      "ssh_user" ∉ ms.map (·.1) → SameFields ms (("ssh_user", .null) :: ms)
  | symm {ms ms' : List (String × Json)} : SameFields ms ms' → SameFields ms' ms
  | trans {ms ms' ms'' : List (String × Json)} :
      SameFields ms ms' → SameFields ms' ms'' → SameFields ms ms''

end TunnelConfig

/-- The fields that a standard tunnel is read from are the same. -/
structure StandardTunnel.Alike (f f' : Fields) : Prop where
  required : ∀ name, name ≠ "ssh_user" → f.lookup name = f'.lookup name
  user : f.optional "ssh_user" string? = f'.optional "ssh_user" string?

theorem StandardTunnel.ofJson?_congr {ms ms' : List (String × Json)}
    (h : Option.Rel Alike ((Json.object ms).fields? fieldNames)
      ((Json.object ms').fields? fieldNames)) : ofJson? (.object ms) = ofJson? (.object ms') := by
  rw [ofJson?, ofJson?]
  generalize (Json.object ms).fields? fieldNames = f at h
  generalize (Json.object ms').fields? fieldNames = f' at h
  cases h with
  | none => rfl
  | some hf => simp [Fields.required, hf.required, hf.user]

theorem ReverseTunnel.ofJson?_congr {ms ms' : List (String × Json)}
    (h : Option.Rel (fun f f' : Fields => ∀ name, f.lookup name = f'.lookup name)
      ((Json.object ms).fields? fieldNames) ((Json.object ms').fields? fieldNames)) :
    ofJson? (.object ms) = ofJson? (.object ms') := by
  rw [ofJson?, ofJson?]
  generalize (Json.object ms).fields? fieldNames = f at h
  generalize (Json.object ms').fields? fieldNames = f' at h
  cases h with
  | none => rfl
  | some hf => simp [Fields.required, hf]

theorem StandardTunnel.Alike.of_lookup {f f' : Option Fields}
    (h : Option.Rel (fun f f' : Fields => ∀ name, f.lookup name = f'.lookup name) f f') :
    Option.Rel Alike f f' := by
  cases h with
  | none => exact .none
  | some h => exact .some ⟨fun name _ => h name, by rw [Fields.optional, Fields.optional, h]⟩

/-- A user who is said to be absent is absent. -/
theorem StandardTunnel.ofJson?_cons_noUser {ms : List (String × Json)}
    (h : "ssh_user" ∉ ms.map (·.1)) :
    ofJson? (.object (("ssh_user", .null) :: ms)) = ofJson? (.object ms) := by
  refine ofJson?_congr ?_
  have hdeclared : (("ssh_user", Json.null) :: ms).filter (fun m => fieldNames.contains m.1) =
      ("ssh_user", .null) :: ms.filter fun m => fieldNames.contains m.1 := by
    rw [List.filter_cons, if_pos (by decide)]
  simp only [fields?, hdeclared, List.map_cons, List.nodup_cons]
  generalize hfound : ms.filter (fun m => fieldNames.contains m.1) = found
  have habsent : "ssh_user" ∉ found.map (·.1) := fun hmem =>
    h ((List.filter_sublist.map _).subset (hfound ▸ hmem))
  by_cases hn : (found.map (·.1)).Nodup
  · rw [if_pos ⟨habsent, hn⟩, if_pos hn]
    refine .some ⟨fun name hname => ?_, ?_⟩
    · rw [List.lookup_cons, beq_eq_false_iff_ne.mpr hname]
    · have hnone : found.lookup "ssh_user" = none := by
        refine List.lookup_eq_none_iff.mpr fun m hm => bne_iff_ne.mpr fun heq => habsent ?_
        exact heq ▸ List.mem_map_of_mem hm
      rw [Fields.optional, Fields.optional, hnone, List.lookup_cons_self]
  · rw [if_neg hn, if_neg fun hboth => hn hboth.2]
    exact .none

namespace TunnelConfig

variable {ms ms' : List (String × Json)} {name : String}

theorem ofNamed?_perm (hp : ms.Perm ms') (kind : String) : ofNamed? ms kind = ofNamed? ms' kind := by
  unfold ofNamed?
  split
  · rw [StandardTunnel.ofJson?_congr (StandardTunnel.Alike.of_lookup (fields?_perm hp _))]
  · rw [ReverseTunnel.ofJson?_congr (fields?_perm hp _)]
  · rfl

theorem ofJson?_perm (hp : ms.Perm ms') : ofJson? (.object ms) = ofJson? (.object ms') := by
  have hkept : (∀ m ∈ ms, m.2.Kept) ↔ ∀ m ∈ ms', m.2.Kept := by
    simp only [hp.mem_iff]
  have hrest : ofNamed? (ms.filter (·.1 != "kind")) = ofNamed? (ms'.filter (·.1 != "kind")) :=
    funext (ofNamed?_perm (hp.filter _))
  rw [ofJson?_object, ofJson?_object, tagOf?_perm hp, hrest]
  simp only [hkept]

/-- A member that a configuration is not read from can be added to an object. -/
theorem ofJson?_cons {x : Json} (hname : name ≠ "kind") (hx : x.Kept)
    (h : ∀ kind, tagOf? "kind" ms = some kind → ∀ rest : List (String × Json),
      rest = ms.filter (·.1 != "kind") → ofNamed? ((name, x) :: rest) kind = ofNamed? rest kind) :
    ofJson? (.object ((name, x) :: ms)) = ofJson? (.object ms) := by
  have hkept : (∀ m ∈ (name, x) :: ms, m.2.Kept) ↔ ∀ m ∈ ms, m.2.Kept := by
    simp [hx]
  have hrest : ((name, x) :: ms).filter (·.1 != "kind") =
      (name, x) :: ms.filter (·.1 != "kind") := by
    rw [List.filter_cons, if_pos (by simpa using hname)]
  rw [ofJson?_object, ofJson?_object, tagOf?_cons_of_ne hname, hrest]
  simp only [hkept]
  split
  · cases hkind : tagOf? "kind" ms with
    | none => rfl
    | some kind => exact h kind hkind _ rfl
  · rfl

theorem ofJson?_extra {x : Json} (hname : Unknown ms name) (hx : x.Kept) :
    ofJson? (.object ((name, x) :: ms)) = ofJson? (.object ms) := by
  refine ofJson?_cons hname.1 hx fun kind hkind rest _ => ?_
  unfold ofNamed?
  split
  · have hnot : name ∉ StandardTunnel.fieldNames := hname.2 .standard (mem_of_tagOf? hkind)
    rw [StandardTunnel.ofJson?, fields?_cons_of_not_mem hnot, StandardTunnel.ofJson?]
  · have hnot : name ∉ ReverseTunnel.fieldNames := hname.2 .reverse (mem_of_tagOf? hkind)
    rw [ReverseTunnel.ofJson?, fields?_cons_of_not_mem hnot, ReverseTunnel.ofJson?]
  · rfl

theorem ofJson?_noUser (h : "ssh_user" ∉ ms.map (·.1)) :
    ofJson? (.object (("ssh_user", .null) :: ms)) = ofJson? (.object ms) := by
  refine ofJson?_cons (by decide) ⟨rfl, Nat.succ_pos _⟩ fun kind _ rest hrest => ?_
  unfold ofNamed?
  split
  · rw [StandardTunnel.ofJson?_cons_noUser]
    exact fun hmem => h ((List.filter_sublist.map _).subset (hrest ▸ hmem))
  · rw [ReverseTunnel.ofJson?, fields?_cons_of_not_mem (by decide), ReverseTunnel.ofJson?]
  · rfl

/-- Objects that say the same are read alike. -/
theorem ofJson?_of_sameFields (h : SameFields ms ms') :
    ofJson? (.object ms) = ofJson? (.object ms') := by
  induction h with
  | reordered hp => exact ofJson?_perm hp
  | extra hname hx => exact (ofJson?_extra hname hx).symm
  | noUser h => exact (ofJson?_noUser h).symm
  | symm _ ih => exact ih.symm
  | trans _ _ ih ih' => exact ih.trans ih'

/-- Decodes a text. -/
def decode (text : String) : Option TunnelConfig :=
  (read? text).bind ofJson?

/-- A configuration is decoded from its written form, whatever texts are in it. Texts that spell
objects which say the same are decoded alike, and a text with a member that cannot be kept is not
decoded. -/
theorem decode_write :
    (∀ c : TunnelConfig, c.createdAt.Civil → decode c.toJson.write = some c) ∧
    (∀ {text text' : String} {ms ms' : List (String × Json)}, read? text = some (.object ms) →
      read? text' = some (.object ms') → SameFields ms ms' → decode text = decode text') ∧
    ∀ {text : String} {ms : List (String × Json)}, read? text = some (.object ms) →
      (∃ m ∈ ms, ¬ m.2.Kept) → decode text = none := by
  refine ⟨fun c hc => ?_, fun {text text' ms ms'} hread hread' h => ?_, ?_⟩
  · rw [decode, read?_write c.plain_toJson, Option.bind_some, ofJson?_toJson hc]
  · rw [decode, decode, hread, hread', Option.bind_some, Option.bind_some, ofJson?_of_sameFields h]
  · rintro text ms hread ⟨m, hm, hnot⟩
    rw [decode, hread, Option.bind_some, ofJson?_object, if_neg fun h => hnot (h m hm)]

/-- A tunnel whose names hold a quotation mark, a reverse solidus and control characters. -/
def quoted : TunnelConfig :=
  .standard ⟨.ofNat 1, ⟨1704164645, 120000000⟩, true, 40022, none, "a\"b\\c", 22, "\u0001\n\u007f",
    5432⟩

/-- Its members in another order, with one more and without the user. -/
def shuffled : List (String × Json) :=
  (("note", .array [.bool true]) :: quoted.members.filter (·.1 != "ssh_user")).reverse

theorem sameFields_shuffled : SameFields shuffled quoted.members := by
  have hnote : Unknown (quoted.members.filter (·.1 != "ssh_user")) "note" :=
    ⟨by decide, fun kind _ => by cases kind <;> decide⟩
  have huser : ("ssh_user", .null) :: quoted.members.filter (·.1 != "ssh_user") =
      ("ssh_user", .null) :: (quoted.members.take 5 ++ quoted.members.drop 6) := rfl
  refine .trans (.reordered (List.reverse_perm _)) (.trans (.symm (.extra hnote (by decide))) ?_)
  refine .trans (.noUser (by decide)) (.reordered ?_)
  rw [huser]
  exact List.perm_middle.symm

theorem decode_shuffled : decode quoted.toJson.write = some quoted ∧
    decode (Json.object shuffled).write = some quoted := by
  have hwritten := decode_write.1 quoted (by decide +kernel)
  refine ⟨hwritten, ?_⟩
  rw [← hwritten]
  exact decode_write.2.1 (read?_write (by decide +kernel))
    (toJson_eq quoted ▸ read?_write (by decide +kernel)) sameFields_shuffled

/-- A member of no field's name keeps a text from being decoded, if its number is beyond all that can
be kept. -/
theorem decode_extra_none :
    let c : TunnelConfig := .reverse ⟨.ofNat 2, ⟨1704164645, 0⟩, true, 40022⟩
    Unknown c.members "extra" ∧ decode (Json.object c.members).write = some c ∧
      decode (Json.object (c.members ++ [("extra", .number ⟨false, 1, 400, false⟩)])).write =
        none := by
  refine ⟨⟨by decide, fun kind _ => by cases kind <;> decide⟩, ?_, ?_⟩
  · rw [decode, read?_write (by decide +kernel)]
    decide +kernel
  · rw [decode, read?_write (by decide +kernel)]
    decide +kernel

end TunnelConfig
end SshTunnels
