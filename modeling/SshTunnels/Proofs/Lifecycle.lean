import SshTunnels.Lifecycle
import SshTunnels.Proofs.Sessions.Ledger
import SshTunnels.Proofs.Tags

/-!
# The identity that events carry

Every report of a tunnel becomes one event, which is to carry the tunnel's identity. Its tags come
from three sources. The identity counts over the tags of the handle, the tags that are given with a
report count over both, and the session of a report counts over everything (`mirrored_record`).

So the session is always told, and the identity is told unless a report is given with a tag for it
that says something else (`identified_iff_agrees`). `other_tunnel_told` is a report of a boot step
that passes for another tunnel's.
-/

namespace SshTunnels

/-- The tags that say which tunnel an event is about. -/
def TunnelKind.identity (kind : TunnelKind) (id : Uuid) : List (String × String) :=
  [("tunnel_id", id.text), ("tunnel_type", kind.name)]

theorem TunnelKind.nodup_keys_identity (kind : TunnelKind) (id : Uuid) :
    ((kind.identity id).map (·.1)).Nodup := by
  change ["tunnel_id", "tunnel_type"].Nodup
  decide

namespace LifecycleReport

variable {r : LifecycleReport}

/-- The tags that are given with a report. -/
def given : LifecycleReport → Tags
  | .bootEvent _ tags | .sessionEvent _ _ tags => tags
  | _ => .empty

/-- The value that the session of a report gives to a key. -/
def sessionTag? (r : LifecycleReport) (key : String) : Option String :=
  if key = "session_id" then r.session?.map Uuid.text else none

/-- Where the tags given with a report speak of a tunnel, they speak of this one. -/
def AgreesWith (r : LifecycleReport) (id : Uuid) (kind : TunnelKind) : Prop :=
  ∀ tag ∈ kind.identity id, ∀ value ∈ r.given.get? tag.1, value = tag.2

instance (id : Uuid) (kind : TunnelKind) : Decidable (r.AgreesWith id kind) :=
  inferInstanceAs <| Decidable <|
    ∀ tag ∈ kind.identity id, ∀ value ∈ r.given.get? tag.1, value = tag.2

theorem ordered_tags (h : r.given.Ordered) : r.tags.Ordered := by
  cases r with
  | bootEvent _ given => exact h
  | sessionEvent _ _ given => exact Tags.Ordered.insert h _ _
  | sessionError _ _ => exact Tags.ordered_ofList _
  | _ => exact Tags.ordered_empty

/-- The session of a report counts over the tags that are given with it. -/
theorem get?_tags (r : LifecycleReport) (key : String) :
    r.tags.get? key = (r.sessionTag? key).or (r.given.get? key) := by
  rw [sessionTag?]
  cases r with
  | sessionEvent session _ given =>
    change (given.insert "session_id" session.text).get? key = _
    rw [Tags.get?_insert]
    split <;> rfl
  | sessionError session _ =>
    change (Tags.empty.insert "session_id" session.text).get? key = _
    rw [Tags.get?_insert]
    split <;> rfl
  | _ => split <;> rfl

end LifecycleReport

namespace Lifecycle

variable {h : StatsHandle} {id : Uuid} {kind : TunnelKind} {r : LifecycleReport}
  {record : StatRecord} {reports : List LifecycleReport}

/-- The event of a report, with what its tags hold for each key: what the session says, else what is
given with the report, else what the tunnel's identity says, else what the handle holds. -/
inductive Mirrored (h : StatsHandle) (id : Uuid) (kind : TunnelKind) (r : LifecycleReport) :
    StatRecord → Prop where
  | event (tags : Tags) : tags.Ordered →
      (∀ key, tags.get? key = (r.sessionTag? key).or ((r.given.get? key).or
        (((kind.identity id).lookup key).or (h.tags.get? key)))) →
      Mirrored h id kind r (.event r.title r.text tags)

/-- The event of a report with the identity of its tunnel and of its session; all other tags are
those that are given with the report, over those of the handle. -/
inductive Identified (h : StatsHandle) (id : Uuid) (kind : TunnelKind) (r : LifecycleReport) :
    StatRecord → Prop where
  | event (tags : Tags) : tags.Ordered →
      tags.get? "tunnel_id" = some id.text →
      tags.get? "tunnel_type" = some kind.name →
      (∀ session, r.session? = some session → tags.get? "session_id" = some session.text) →
      (∀ key, key ∉ (kind.identity id).map (·.1) → r.sessionTag? key = none →
        tags.get? key = (r.given.get? key).or (h.tags.get? key)) →
      Identified h id kind r (.event r.title r.text tags)

theorem get?_tags_forTunnel (h : StatsHandle) (id : Uuid) (kind : TunnelKind) (key : String) :
    (forTunnel h id kind).stats.tags.get? key =
      ((kind.identity id).lookup key).or (h.tags.get? key) := by
  change (h.tags.merge (.ofList (kind.identity id))).get? key = _
  rw [Tags.get?_merge (Tags.ordered_ofList _), Tags.get?_ofList (kind.nodup_keys_identity id)]

/-- The event of a report has the tags of all three sources. -/
theorem mirrored_record (hh : h.tags.Ordered) (hr : r.given.Ordered) :
    Mirrored h id kind r ((forTunnel h id kind).record r) := by
  refine .event _ ((hh.merge _).merge _) fun key => ?_
  rw [Tags.get?_merge (LifecycleReport.ordered_tags hr), get?_tags_forTunnel,
    LifecycleReport.get?_tags, Option.or_assoc]

/-- A session says nothing of its tunnel. -/
theorem sessionTag?_of_mem_identity {tag : String × String} (htag : tag ∈ kind.identity id) :
    r.sessionTag? tag.1 = none := by
  refine if_neg fun hsession => ?_
  have hkeys : "session_id" ∉ ["tunnel_id", "tunnel_type"] := by decide
  exact hkeys (hsession ▸ List.mem_map_of_mem htag)

/-- The identity is told exactly if what is given with the report agrees with it. -/
theorem Mirrored.identified_iff (hm : Mirrored h id kind r record) :
    Identified h id kind r record ↔ r.AgreesWith id kind := by
  obtain ⟨tags, hordered, htags⟩ := hm
  have htold : ∀ tag ∈ kind.identity id,
      tags.get? tag.1 = some ((r.given.get? tag.1).getD tag.2) := by
    intro tag htag
    rw [htags, sessionTag?_of_mem_identity htag, lookup_of_mem (kind.nodup_keys_identity id) htag]
    cases r.given.get? tag.1 <;> rfl
  constructor
  · rintro (⟨_, -, hid, htype, -, -⟩) tag htag value hgiven
    have hvalue := htold tag htag
    rw [hgiven, Option.getD_some] at hvalue
    have hidentity : tags.get? tag.1 = some tag.2 := by
      rcases List.mem_pair.mp htag with rfl | rfl
      · exact hid
      · exact htype
    exact Option.some.inj (hvalue.symm.trans hidentity)
  · intro hagrees
    have hown : ∀ tag ∈ kind.identity id, tags.get? tag.1 = some tag.2 := by
      intro tag htag
      rw [htold tag htag]
      cases hgiven : r.given.get? tag.1 with
      | none => rfl
      | some value => rw [Option.getD_some, hagrees tag htag value hgiven]
    refine .event tags hordered (hown _ List.mem_cons_self)
      (hown _ (List.mem_cons_of_mem _ List.mem_cons_self)) (fun session hsession => ?_)
      fun key hother hsession => ?_
    · rw [htags, LifecycleReport.sessionTag?, if_pos rfl, hsession]
      rfl
    · rw [htags, hsession, lookup_eq_none_iff_not_mem.mpr hother]
      rfl

/-- For any reports the sink gets one event each, in their order, with tags of all three sources.
They all carry the identity exactly if all that is given with the reports agrees with it. -/
theorem identified_iff_agrees (hh : h.tags.Ordered) (hr : ∀ r ∈ reports, r.given.Ordered) :
    List.Forall₂ (Mirrored h id kind) reports (reports.map (forTunnel h id kind).record) ∧
      (List.Forall₂ (Identified h id kind) reports (reports.map (forTunnel h id kind).record) ↔
        ∀ r ∈ reports, r.AgreesWith id kind) := by
  have hmirrored : ∀ r ∈ reports, Mirrored h id kind r ((forTunnel h id kind).record r) :=
    fun r hmem => mirrored_record hh (hr r hmem)
  rw [List.forall₂_map_right_iff, List.forall₂_map_right_iff, List.forall₂_same,
    List.forall₂_same]
  exact ⟨hmirrored, forall₂_congr fun r hmem => (hmirrored r hmem).identified_iff⟩

/-- A handle that names another tunnel, and a session whose tags name another session: all events
carry the identity. -/
theorem identified_over_handle :
    let h : StatsHandle := ⟨"px", .ofList [("tunnel_id", "other"), ("host", "h1")]⟩
    let reports : List LifecycleReport := [.start, .bootEvent "listen" (.ofList [("host", "h2")]),
      .sessionEvent (.ofNat 7) "open"
        (.ofList [("session_id", "other"), ("tunnel_id", (Uuid.ofNat 1).text)]),
      .sessionError (.ofNat 7) (.forward "no agent connected"), .stop]
    List.Forall₂ (Identified h (.ofNat 1) .reverse) reports
      (reports.map (forTunnel h (.ofNat 1) .reverse).record) := by
  intro h reports
  exact (identified_iff_agrees (by decide +kernel) (by decide +kernel)).2.mpr (by decide +kernel)

/-- A boot step that is reported with the tag of another tunnel: its event names that one. -/
theorem other_tunnel_told :
    let r : LifecycleReport := .bootEvent "listening" (.ofList [("tunnel_id", "other")])
    let record := (forTunnel .root (.ofNat 1) .reverse).record r
    StatsHandle.root.tags.Ordered ∧ r.given.Ordered ∧
      (∃ tags, record = .event "tunnel.boot.listening" "" tags ∧
        tags.get? "tunnel_id" = some "other") ∧
      ¬ List.Forall₂ (Identified .root (.ofNat 1) .reverse) [r] [record] := by
  intro r record
  have hroot : StatsHandle.root.tags.Ordered := by decide
  have hgiven : r.given.Ordered := by decide
  refine ⟨hroot, hgiven, ⟨_, rfl, by decide +kernel⟩, fun hall => ?_⟩
  have hidentified := (List.forall₂_cons.mp hall).1
  exact absurd ((mirrored_record hroot hgiven).identified_iff.mp hidentified) (by decide +kernel)

end Lifecycle
end SshTunnels
