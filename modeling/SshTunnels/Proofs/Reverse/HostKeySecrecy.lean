import SshTunnels.Proofs.Key.NewKeys
import SshTunnels.Proofs.Reverse.HostKeyMoments

/-!
# Who may read the host key

A new host key is written into its file before the permissions of others are taken from it. Whether
others can reach the key meanwhile depends on the permission bits that the file has while it is
written, and on nothing else (`never_exposed_iff`). A new file has all those that the umask leaves,
so the usual umask exposes the key (`readable_until_secured`), and for good if the permissions
cannot be changed. A file that was there but was missed by the look keeps its own.
-/

namespace SshTunnels

namespace HostKeyLoad

open FileSystem

variable {path : String} {fresh : GeneratedKeyPair} {fs₀ fs : FileSystem} {load : HostKeyLoad}
  {bytes : Bytes}

/-- Others have access to what has been written of the key. -/
def Exposed (path : String) (fs : FileSystem) (bytes : Bytes) : Prop :=
  bytes ≠ [] ∧ ∃ mode, fs.node? (fs.place path) = some (.file mode (.bytes bytes)) ∧
    mode &&& 0o077 ≠ 0

/-! ## While the key is written -/

/-- What is written into a file with permissions for others is exposed. -/
theorem Wrote.exposed (h : Wrote path fs₀ bytes fs) (hbytes : bytes ≠ [])
    (hmode : modeWhileWriting path fs₀ &&& 0o077 ≠ 0) : Exposed path fs bytes :=
  ⟨hbytes, _, h.node?_eq, hmode⟩

theorem Wrote.not_exposed (h : Wrote path fs₀ bytes fs)
    (hmode : modeWhileWriting path fs₀ &&& 0o077 = 0) : ¬ Exposed path fs bytes := by
  rintro ⟨-, mode, hnode, hothers⟩
  cases h.node?_eq.symm.trans hnode
  exact hothers hmode

/-- A secured file is not exposed. -/
theorem Wrote.not_exposed_secured (h : Wrote path fs₀ bytes fs) :
    ¬ Exposed path (secured path fs bytes) bytes := by
  rintro ⟨-, mode, hnode, hothers⟩
  cases (node?_of_find h.find_secured).symm.trans hnode
  exact hothers rfl

/-! ## All moments -/

/-- A file that gives others no permissions while it is written never exposes the key. -/
theorem Moment.not_exposed (h : Moment path fresh fs₀ fs load bytes)
    (hmode : ∀ bytes fs, Wrote path fs₀ bytes fs → modeWhileWriting path fs₀ &&& 0o077 = 0) :
    ¬ Exposed path fs bytes := by
  have hnothing : ¬ Exposed path fs [] := fun hexposed => hexposed.1 rfl
  cases h.course with
  | looking => exact hnothing
  | reading => exact hnothing
  | read => exact hnothing
  | makingDirectory => exact hnothing
  | writing => exact hnothing
  | failed => exact hnothing
  | securing hwrote => exact hwrote.not_exposed (hmode _ _ hwrote)
  | unsecured _ hwrote => exact hwrote.not_exposed (hmode _ _ hwrote)
  | secured hwrote => exact hwrote.not_exposed_secured

/-- A new key is exposed at no moment of its loading exactly if its file, in case it can be written
at all, gives others no permissions while it is written. -/
theorem never_exposed_iff (htext : fresh.privateText ≠ "") :
    (∀ fs load bytes, Moment path fresh fs₀ fs load bytes → ¬ Exposed path fs bytes) ↔
      ∀ bytes fs, Wrote path fs₀ bytes fs → modeWhileWriting path fs₀ &&& 0o077 = 0 := by
  refine ⟨fun hnever bytes fs hwrote => ?_, fun hmode fs load bytes h => h.not_exposed hmode⟩
  by_contra hothers
  -- a file that takes some bytes takes the whole key
  obtain ⟨fs', hkey⟩ := hwrote.exists (Bytes.ofString fresh.privateText)
  exact hnever _ _ _ hkey.moment (hkey.exposed (Bytes.ofString_ne_nil htext) hothers)

/-- Under a umask that takes everything from others, a new key is exposed at no moment. -/
theorem never_exposed_under_tight_umask :
    let key : GeneratedKeyPair := ⟨"private", "public"⟩
    key.privateText ≠ "" ∧ ∀ fs load bytes,
      Moment "/host_key" key { umask := 0o077 } fs load bytes → ¬ Exposed "/host_key" fs bytes := by
  intro key
  have htext : key.privateText ≠ "" := by decide
  refine ⟨htext, (never_exposed_iff htext).mpr fun _ _ _ => ?_⟩
  decide +kernel

/-- Under the usual umask everyone may read a new key before its file is secured, and also after
that has failed. -/
theorem readable_until_secured :
    let seed : Bytes := List.replicate 32 0
    let key := GeneratedKeyPair.ofSeed seed 0 "tunnelbridge-host"
    let text := Bytes.ofString key.privateText
    PrivateKey.load text = .ok (.ofSeed seed "") ∧
      ∃ fs, Moment "/host_key" key {} fs (.securing key) text ∧
        Moment "/host_key" key {} fs (fail .permissionDenied) text ∧
        fs.node? (fs.place "/host_key") = some (.file 0o644 (.bytes text)) ∧
        Exposed "/host_key" fs text := by
  intro seed key text
  have hload : PrivateKey.load text = .ok (.ofSeed seed "") :=
    GeneratedKeyPair.load_privateText List.length_replicate 0 "tunnelbridge-host"
  have hbytes : text ≠ [] := by
    intro hnil
    rw [hnil] at hload
    cases hload
  obtain ⟨fs, hwrote⟩ := exists_wrote_root text
  have hmode := modeWhileWriting_root
  refine ⟨hload, fs, hwrote.moment, .refused _ hwrote.moment rfl, ?_, hwrote.exposed hbytes ?_⟩
  · rw [hwrote.node?_eq, hmode]
  · rw [hmode]
    decide

/-- If nothing lies at the path and no directory is missing, the key's file has all permission bits
that the umask leaves. -/
theorem Wrote.modeWhileWriting_eq (h : Wrote path fs₀ bytes fs)
    (hfind : fs₀.find (fs₀.place path) = .ok none) :
    modeWhileWriting path fs₀ = fs₀.allowed 0o666 := by
  obtain ⟨hextends, hfiles⟩ := extends_makeParent fs₀ path
  have hplace := hextends.grows.keepsDirectories.place_eq hfind
  have hnode : (fs₀.makeParent path).1.node? (fs₀.place path) = none := by
    rw [← hplace]
    rcases (writeFile_eq_ok h.wrote).1 with hnone | ⟨mode, old, hfile⟩
    · exact node?_of_find hnone
    · have hold := hfiles _ _ _ (node?_of_find hfile)
      rw [hplace, node?_of_find hfind] at hold
      cases hold
  rw [modeWhileWriting, hplace, modeWritten, hnode, allowed, allowed, hextends.umask]

/-- Then a umask that keeps others from reading and writing keeps the key from them. -/
theorem Moment.not_exposed_of_umask (h : Moment path fresh fs₀ fs load bytes)
    (hfind : fs₀.find (fs₀.place path) = .ok none) (humask : fs₀.umask &&& 0o066 = 0o066) :
    ¬ Exposed path fs bytes := by
  refine h.not_exposed fun bytes' fs' hwrote => ?_
  rw [hwrote.modeWhileWriting_eq hfind, allowed_and_eq_zero_iff (by decide)]
  exact humask

end HostKeyLoad
end SshTunnels
