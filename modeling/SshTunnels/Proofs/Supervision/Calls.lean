import SshTunnels.Discovery
import SshTunnels.Proofs.Lookup

/-!
# Calls to discovery

What discovery says of a tunnel depends on the calls about that tunnel alone. The tunnel has an
entry from its last registration on, with the port that was registered, unless it has been
deregistered since; and the entry tells the health that was noted last since the registration
(`details?_replay`). So noting health never makes an entry, and no health outlives a registration.
-/

namespace SshTunnels

/-- A call to discovery. -/
inductive DiscoveryCall where
  | register (id : Uuid) (port : UInt16)
  | deregister (id : Uuid)
  | updateHealth (id : Uuid) (health : TunnelHealth) (reason : Option String) (now : Timestamp)
  deriving DecidableEq, Repr

/-- What a check has found, and when. -/
structure Verdict where
  health : TunnelHealth
  reason : Option String
  checkedAt : Timestamp
  deriving DecidableEq, Repr

/-- The calls that discovery has had, each with the number of the supervisor that it came from, the
latest first. -/
abbrev DiscoveryLog := List (Nat × DiscoveryCall)

namespace Discovery

/-- What a call makes of discovery. -/
def apply (d : Discovery) : DiscoveryCall → Discovery
  | .register id port => d.register id port
  | .deregister id => d.deregister id
  | .updateHealth id health reason now => d.updateHealth id health reason now

/-- The details of a tunnel that was registered at a port, with what has been found since. -/
def entry (host : String) (port : UInt16) : Option Verdict → TunnelDetails
  | none => ⟨host, port, .unknown, none, none⟩
  | some v => ⟨host, port, v.health, v.reason, some v.checkedAt⟩

end Discovery

namespace DiscoveryLog

/-- Discovery after these calls. -/
def replay (host : String) (log : DiscoveryLog) : Discovery :=
  log.foldr (fun call d => d.apply call.2) ⟨host, []⟩

/-- The port that a tunnel has been registered at and has not been deregistered from. -/
def registered? : DiscoveryLog → Uuid → Option UInt16
  | [], _ => none
  | (_, .register id port) :: log, k => if k = id then some port else registered? log k
  | (_, .deregister id) :: log, k => if k = id then none else registered? log k
  | (_, .updateHealth ..) :: log, k => registered? log k

/-- What has been found of a tunnel since it was registered. -/
def verdict? : DiscoveryLog → Uuid → Option Verdict
  | [], _ => none
  | (_, .register id _) :: log, k => if k = id then none else verdict? log k
  | (_, .deregister id) :: log, k => if k = id then none else verdict? log k
  | (_, .updateHealth id health reason now) :: log, k =>
    if k = id then some ⟨health, reason, now⟩ else verdict? log k

/-- The supervisor that registered or deregistered a tunnel last. -/
def caller? : DiscoveryLog → Uuid → Option Nat
  | [], _ => none
  | (n, .register id _) :: log, k | (n, .deregister id) :: log, k =>
    if k = id then some n else caller? log k
  | (_, .updateHealth ..) :: log, k => caller? log k

end DiscoveryLog

namespace Discovery

variable (d : Discovery) (id k : Uuid)

/-! ## One call -/

theorem details?_deregister :
    (d.deregister id).details? k = if k = id then none else d.details? k :=
  lookup_filter_ne d.entries id k

theorem details?_register (port : UInt16) : (d.register id port).details? k =
    if k = id then some (entry d.host port none) else d.details? k := by
  rw [register, details?, lookup_cons_eq]
  split
  · rfl
  · next hk => exact (details?_deregister d id k).trans (if_neg hk)

theorem details?_updateHealth (health : TunnelHealth) (reason : Option String) (now : Timestamp) :
    (d.updateHealth id health reason now).details? k = (d.details? k).map fun t =>
      if k = id then { t with health, reason, checkedAt := some now } else t := by
  have hmap := lookup_map (fun i (t : TunnelDetails) =>
    if i = id then { t with health, reason, checkedAt := some now } else t) d.entries k
  rw [details?, details?, ← hmap]
  congr 1
  refine List.map_congr_left fun (i, t) _ => ?_
  by_cases hi : i = id
  · simp only [hi, beq_self_eq_true, if_true]
  · simp only [hi, beq_iff_eq, if_false]

theorem host_apply (call : DiscoveryCall) : (d.apply call).host = d.host := by
  cases call <;> rfl

end Discovery

/-! ## All calls -/

namespace DiscoveryLog

variable (host : String) (log : DiscoveryLog) (id : Uuid)

theorem host_replay : (log.replay host).host = host := by
  induction log with
  | nil => rfl
  | cons call log ih => exact (Discovery.host_apply _ _).trans ih

/-- The calls of one supervisor come on top of those before. -/
theorem replay_calls (n : Nat) (calls : List DiscoveryCall) :
    replay host ((calls.map fun call => (n, call)).reverse ++ log) =
      calls.foldl Discovery.apply (replay host log) := by
  rw [replay, List.foldr_append, List.foldr_reverse, List.foldl_map]
  rfl

/-- A tunnel has an entry exactly while it is registered, and the entry tells what has been found
since. -/
theorem details?_replay : (log.replay host).details? id =
    (log.registered? id).map fun port => Discovery.entry host port (log.verdict? id) := by
  induction log with
  | nil => rfl
  | cons e log ih =>
    obtain ⟨n, call⟩ := e
    rw [show replay host ((n, call) :: log) = (replay host log).apply call from rfl]
    cases call with
    | register i port =>
      rw [Discovery.apply, Discovery.details?_register, registered?, verdict?, ih, host_replay]
      split <;> rfl
    | deregister i =>
      rw [Discovery.apply, Discovery.details?_deregister, registered?, verdict?, ih]
      split <;> rfl
    | updateHealth i health reason now =>
      rw [Discovery.apply, Discovery.details?_updateHealth, registered?, verdict?, ih,
        Option.map_map]
      refine congrFun (congrArg _ (funext fun port => ?_)) _
      rw [Function.comp]
      split
      · cases verdict? log id <;> rfl
      · rfl

/-- Discovery tells the port that a tunnel is registered at. -/
theorem port_details?_replay :
    ((log.replay host).details? id).map (·.port) = log.registered? id := by
  rw [details?_replay, Option.map_map]
  refine (congrFun (congrArg _ (funext fun port => ?_)) _).trans (congrFun Option.map_id _)
  rw [Function.comp]
  cases log.verdict? id <;> rfl

/-- A tunnel that nobody has called for is not registered. -/
theorem registered?_of_caller? (h : log.caller? id = none) : log.registered? id = none := by
  induction log with
  | nil => rfl
  | cons e log ih =>
    obtain ⟨n, call⟩ := e
    cases call with
    | register i port =>
      rw [caller?] at h
      rw [registered?]
      split at h
      · cases h
      · next hi => rw [if_neg hi, ih h]
    | deregister i =>
      rw [caller?] at h
      rw [registered?]
      split at h
      · cases h
      · next hi => rw [if_neg hi, ih h]
    | updateHealth i health reason now => exact ih h

end DiscoveryLog
end SshTunnels
