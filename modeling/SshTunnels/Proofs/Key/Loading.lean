import SshTunnels.Key.Source
import SshTunnels.Proofs.Store.Changes
import SshTunnels.Proofs.Traversal

/-!
# Loading the keys of a tunnel

A source of keys looks up which keys a tunnel has, and its key store holds contents for some keys
(`KeySource.Holds`). Fetching and reading are two passes over the keys, so a key that is missing
counts before any that cannot be read, wherever the two stand (`Loading`). `contents_eq` is the
first pass, `loading_iff` both.
-/

namespace SshTunnels

/-- `Loading lookup held read kind tunnel result`: what comes of loading the keys of a tunnel, from
what is looked up for it, what the key store holds and how contents are read. -/
inductive Loading {κ : Type} (lookup : Except TunnelError (List Uuid)) (held : Uuid → Option Bytes)
    (read : Bytes → Except SshError κ) (kind : TunnelKind) (tunnel : Uuid) :
    Except TunnelError (List κ) → Prop
  /-- The look-up fails. -/
  | unanswered {e : TunnelError} : lookup = .error e →
      Loading lookup held read kind tunnel (.error e)
  /-- The tunnel has no keys. -/
  | noKeys : lookup = .ok [] → Loading lookup held read kind tunnel (.error (.noKeys kind tunnel))
  /-- A key is missing, and none before it is. What those before it contain does not matter. -/
  | missing {before after : List Uuid} {key : Uuid} : lookup = .ok (before ++ key :: after) →
      (∀ k ∈ before, held k ≠ none) → held key = none →
      Loading lookup held read kind tunnel (.error (.keyNotFound key))
  /-- No key is missing, one cannot be read, and all before it can. -/
  | unreadable {before after : List Uuid} {key : Uuid} {contents : Bytes} {e : SshError} :
      lookup = .ok (before ++ key :: after) → (∀ k ∈ before ++ key :: after, held k ≠ none) →
      (∀ k ∈ before, ∃ contents loaded, held k = some contents ∧ read contents = .ok loaded) →
      held key = some contents → read contents = .error e →
      Loading lookup held read kind tunnel (.error (.sshCore e))
  /-- All keys are loaded, in the order in which they were looked up. -/
  | loaded {refs : List Uuid} {keys : List κ} : lookup = .ok refs → refs ≠ [] →
      List.Forall₂ (fun ref key => ∃ contents, held ref = some contents ∧ read contents = .ok key)
        refs keys →
      Loading lookup held read kind tunnel (.ok keys)

namespace KeySource

/-- The key store of the source holds these contents, and nothing for any other key. -/
def Holds (source : KeySource) (held : Uuid → Option Bytes) : Prop :=
  ∀ key, source.fetch key = match held key with
    | some contents => .ok contents
    | none => .error (.keyNotFound key)

theorem holds_ofMemory (m : MemoryKeys) : (ofMemory m).Holds fun key => m.contents.lookup key := by
  intro key
  rfl

theorem holds_ofStore {s : Store} (hs : s.isClosed = false) :
    (ofStore s).Holds fun key => (s.database.key? key).map (·.contents) := by
  intro key
  show s.getKey key = match (s.database.key? key).map (·.contents) with
    | some contents => .ok contents
    | none => .error (.keyNotFound key)
  rw [Store.getKey, Store.read_of_open hs]
  cases s.database.key? key <;> rfl

variable {source : KeySource} {held : Uuid → Option Bytes} {tunnel : Uuid} {kind : TunnelKind}
  {refs : List Uuid} {key : Uuid} {contents : Bytes} {κ : Type} {read : Bytes → Except SshError κ}
  {keys : List κ} {result : Except TunnelError (List κ)}

/-! ## Fetching -/

theorem Holds.fetch_eq_ok_iff (hs : source.Holds held) :
    source.fetch key = .ok contents ↔ held key = some contents := by
  rw [hs key]
  cases held key <;> simp

theorem Holds.fetch_eq_error (hs : source.Holds held) {e : TunnelError}
    (h : source.fetch key = .error e) : held key = none ∧ e = .keyNotFound key := by
  rw [hs key] at h
  cases hkey : held key with
  | none =>
    rw [hkey] at h
    cases h
    exact ⟨rfl, rfl⟩
  | some contents =>
    rw [hkey] at h
    cases h

theorem Holds.fetch_of_none (hs : source.Holds held) (h : held key = none) :
    source.fetch key = .error (.keyNotFound key) := by
  rw [hs key, h]

theorem Holds.exists_fetch (hs : source.Holds held) (h : held key ≠ none) :
    ∃ contents, source.fetch key = .ok contents := by
  obtain ⟨contents, hkey⟩ := Option.ne_none_iff_exists'.mp h
  exact ⟨contents, hs.fetch_eq_ok_iff.mpr hkey⟩

theorem Holds.mapM_fetch (hs : source.Holds held) (h : ∀ key ∈ refs, held key ≠ none) :
    refs.mapM source.fetch = .ok (refs.map fun key => (held key).getD []) := by
  rw [mapM_eq_ok_iff, List.forall₂_map_right_iff, List.forall₂_same]
  intro key hmem
  obtain ⟨contents, hkey⟩ := Option.ne_none_iff_exists'.mp (h key hmem)
  rw [hkey]
  exact hs.fetch_eq_ok_iff.mpr hkey

theorem contents_eq (hlookup : source.tunnelKeys tunnel kind = .ok refs) (hne : refs ≠ []) :
    source.contents tunnel kind = refs.mapM source.fetch := by
  rw [KeySource.contents, hlookup]
  cases refs with
  | nil => exact absurd rfl hne
  | cons ref refs => rfl

/-- Loading keys whose contents are all there is reading them. -/
theorem Holds.load_eq (hs : source.Holds held)
    (hlookup : source.tunnelKeys tunnel kind = .ok refs) (hne : refs ≠ [])
    (h : ∀ key ∈ refs, held key ≠ none) : (source.contents tunnel kind >>= readAll read) =
      readAll read (refs.map fun key => (held key).getD []) := by
  rw [contents_eq hlookup hne, hs.mapM_fetch h]
  rfl

/-! ## Loading -/

theorem load_eq_of_loading (hs : source.Holds held)
    (h : Loading (source.tunnelKeys tunnel kind) held read kind tunnel result) :
    (source.contents tunnel kind >>= readAll read) = result := by
  cases h with
  | unanswered hlookup =>
    rw [contents, hlookup]
    rfl
  | noKeys hlookup =>
    rw [contents, hlookup]
    rfl
  | missing hlookup hbefore hkey =>
    rw [contents_eq hlookup (by simp), mapM_eq_error_of_first
      (fun k hmem => hs.exists_fetch (hbefore k hmem)) (hs.fetch_of_none hkey)]
    rfl
  | @unreadable before after key contents e hlookup hheld hbefore hkey hread =>
    rw [hs.load_eq hlookup (by simp) hheld, readAll, List.map_append, List.map_cons, hkey,
      Option.getD_some, mapM_eq_error_of_first ?_ hread]
    intro contents' hmem
    obtain ⟨k, hk, rfl⟩ := List.mem_map.mp hmem
    obtain ⟨contents', loaded, hheld', hloaded⟩ := hbefore k hk
    exact ⟨loaded, by rw [hheld']; exact hloaded⟩
  | @loaded refs keys hlookup hne hall =>
    have hheld : ∀ key ∈ refs, held key ≠ none := by
      refine ((List.forall₂_and_left refs keys).mp (hall.imp fun key k h => ⟨?_, h⟩)).1
      obtain ⟨contents, hkey, -⟩ := h
      rw [hkey]
      nofun
    rw [hs.load_eq hlookup hne hheld, readAll]
    have hread : (refs.map fun key => (held key).getD []).mapM read = .ok keys := by
      rw [mapM_eq_ok_iff, List.forall₂_map_left_iff]
      exact hall.imp fun key k ⟨contents, hkey, hk⟩ => by rw [hkey]; exact hk
    rw [hread]

/-- If no key is missing, reading decides. -/
theorem loading_readAll (hne : refs ≠ [])
    (hheld : ∀ key ∈ refs, ∃ contents, held key = some contents) :
    Loading (.ok refs) held read kind tunnel
      (readAll read (refs.map fun key => (held key).getD [])) := by
  rw [readAll]
  cases hread : (refs.map fun key => (held key).getD []).mapM read with
  | ok keys =>
    refine .loaded rfl hne ?_
    rw [mapM_eq_ok_iff, List.forall₂_map_left_iff] at hread
    refine ((List.forall₂_and_left refs keys).mpr ⟨hheld, hread⟩).imp ?_
    rintro key k ⟨⟨contents, hkey⟩, hk⟩
    rw [hkey] at hk
    exact ⟨contents, hkey, hk⟩
  | error e =>
    obtain ⟨before, contents, after, hrefs, hbefore, hfault⟩ := exists_first_of_mapM_eq_error hread
    obtain ⟨before, rest, rfl, rfl, hrest⟩ := List.map_eq_append_iff.mp hrefs
    obtain ⟨key, after, rfl, rfl, rfl⟩ := List.map_eq_cons_iff.mp hrest
    obtain ⟨contents, hkey⟩ := hheld key (by simp)
    rw [hkey] at hfault
    refine .unreadable rfl (fun k hmem => Option.ne_none_iff_exists'.mpr (hheld k hmem))
      (fun k hmem => ?_) hkey hfault
    obtain ⟨contents, hk⟩ := hheld k (List.mem_append_left _ hmem)
    obtain ⟨loaded, hloaded⟩ := hbefore _ (List.mem_map_of_mem hmem)
    rw [hk] at hloaded
    exact ⟨contents, loaded, hk, hloaded⟩

theorem loading_load (hs : source.Holds held) (tunnel : Uuid) (kind : TunnelKind) :
    Loading (source.tunnelKeys tunnel kind) held read kind tunnel
      (source.contents tunnel kind >>= readAll read) := by
  cases hlookup : source.tunnelKeys tunnel kind with
  | error e =>
    rw [contents, hlookup]
    exact .unanswered rfl
  | ok refs =>
    by_cases hne : refs = []
    · subst hne
      rw [contents, hlookup]
      exact .noKeys rfl
    · cases hfetch : refs.mapM source.fetch with
      | error e =>
        rw [contents_eq hlookup hne, hfetch]
        obtain ⟨before, key, after, rfl, hbefore, hkey⟩ := exists_first_of_mapM_eq_error hfetch
        obtain ⟨hnone, rfl⟩ := hs.fetch_eq_error hkey
        refine .missing rfl (fun k hmem => ?_) hnone
        obtain ⟨contents, hk⟩ := hbefore k hmem
        rw [hs.fetch_eq_ok_iff.mp hk]
        nofun
      | ok contents =>
        have hheld : ∀ key ∈ refs, ∃ contents, held key = some contents := by
          intro key hmem
          obtain ⟨contents, hkey⟩ := exists_mapM_eq_ok_iff.mp ⟨_, hfetch⟩ key hmem
          exact ⟨contents, hs.fetch_eq_ok_iff.mp hkey⟩
        rw [hs.load_eq hlookup hne fun key hmem =>
          Option.ne_none_iff_exists'.mpr (hheld key hmem)]
        exact loading_readAll hne hheld

theorem loading_iff (hs : source.Holds held) (tunnel : Uuid) (kind : TunnelKind) :
    (source.contents tunnel kind >>= readAll read) = result ↔
      Loading (source.tunnelKeys tunnel kind) held read kind tunnel result := by
  constructor
  · rintro rfl
    exact loading_load hs tunnel kind
  · exact load_eq_of_loading hs

/-- The tunnel has keys, and all of them are there and can be read. -/
def Loadable (lookup : Except TunnelError (List Uuid)) (held : Uuid → Option Bytes)
    (read : Bytes → Except SshError κ) : Prop :=
  ∃ refs, lookup = .ok refs ∧ refs ≠ [] ∧
    ∀ ref ∈ refs, ∃ key contents, held ref = some contents ∧ read contents = .ok key

theorem exists_loading_ok_iff {lookup : Except TunnelError (List Uuid)} :
    (∃ keys, Loading lookup held read kind tunnel (.ok keys)) ↔ Loadable lookup held read := by
  constructor
  · rintro ⟨keys, h⟩
    cases h with
    | loaded hlookup hne hall =>
      refine ⟨_, hlookup, hne, ?_⟩
      exact ((List.forall₂_and_left _ keys).mp (hall.imp fun ref key h => ⟨⟨key, h⟩, h⟩)).1
  · rintro ⟨refs, hlookup, hne, hall⟩
    have hread : ∀ ref ∈ refs, ∃ key, read ((held ref).getD []) = .ok key := by
      intro ref hmem
      obtain ⟨key, contents, hheld, hkey⟩ := hall ref hmem
      exact ⟨key, by rw [hheld]; exact hkey⟩
    obtain ⟨keys, hkeys⟩ := exists_mapM_eq_ok_iff.mpr hread
    refine ⟨keys, .loaded hlookup hne ?_⟩
    refine ((List.forall₂_and_left refs keys).mpr ⟨hall, mapM_eq_ok_iff.mp hkeys⟩).imp ?_
    rintro ref key ⟨⟨_, contents, hheld, -⟩, hkey⟩
    rw [hheld] at hkey
    exact ⟨contents, hheld, hkey⟩

/-- Loading is all or nothing, and the faults have their order. -/
structure LoadsAll (lookup : Except TunnelError (List Uuid)) (held : Uuid → Option Bytes)
    (read : Bytes → Except SshError κ) (kind : TunnelKind) (tunnel : Uuid)
    (result : Except TunnelError (List κ)) : Prop where
  /-- It succeeds exactly if there are keys and every one of them can be loaded. -/
  succeeds_iff : (∃ keys, result = .ok keys) ↔ Loadable lookup held read
  /-- What it comes to, keys or fault, is what is to be expected, and nothing else. -/
  outcome_iff : ∀ outcome, result = outcome ↔ Loading lookup held read kind tunnel outcome

theorem loadsAll_load (hs : source.Holds held) (tunnel : Uuid) (kind : TunnelKind) :
    LoadsAll (source.tunnelKeys tunnel kind) held read kind tunnel
      (source.contents tunnel kind >>= readAll read) where
  succeeds_iff := by
    rw [← exists_loading_ok_iff]
    exact exists_congr fun keys => loading_iff hs tunnel kind
  outcome_iff _ := loading_iff hs tunnel kind

/-- Both kinds of tunnels load their keys so, from any source. -/
theorem loadsAll_of_holds (hs : source.Holds held) (tunnel : Uuid) :
    LoadsAll (source.tunnelKeys tunnel .standard) held PrivateKey.load .standard tunnel
        (source.privateKeys tunnel) ∧
      LoadsAll (source.tunnelKeys tunnel .reverse) held PublicKey.load .reverse tunnel
        (source.authorizedKeys tunnel) :=
  ⟨loadsAll_load hs tunnel .standard, loadsAll_load hs tunnel .reverse⟩

/-- Of two keys the first cannot be read and the second is missing: what is told is that the second
is missing. -/
theorem missing_before_unreadable : ∃ (m : MemoryKeys) (tunnel first second : Uuid),
    m.tunnelKeys tunnel .standard = [first, second] ∧ m.get first = .ok [] ∧
      PrivateKey.load [] = .error (.emptyValue "private key") ∧
      m.get second = .error (.keyNotFound second) ∧
      (ofMemory m).privateKeys tunnel = .error (.keyNotFound second) := by
  let m : MemoryKeys :=
    { contents := [(.ofNat 1, [])]
      authorized := [⟨.ofNat 9, .standard, .ofNat 1⟩, ⟨.ofNat 9, .standard, .ofNat 2⟩] }
  refine ⟨m, .ofNat 9, .ofNat 1, .ofNat 2, by decide +kernel, by decide +kernel, by decide +kernel,
    by decide +kernel, ?_⟩
  have hlookup : (ofMemory m).tunnelKeys (.ofNat 9) .standard =
      .ok ([.ofNat 1] ++ .ofNat 2 :: []) := rfl
  have houtcome := (loadsAll_of_holds (holds_ofMemory m) (.ofNat 9)).1.outcome_iff
  exact (houtcome _).mpr (.missing hlookup (by decide +kernel) (by decide +kernel))

end KeySource
end SshTunnels
