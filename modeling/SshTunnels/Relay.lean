import SshTunnels.Bytes
import SshTunnels.SshError

/-!
# Relays

A relay copies bytes between two streams, A and B, in both directions at once. Each direction reads
a chunk, writes all of it, flushes, counts it, and reads again. As soon as one direction ends, the
other is abandoned, both write sides are shut down, and the relay returns.

A relay moves only when a stream answers: `Answer` lists the answers, and `step` says what the relay
does with each. An answer that the relay is not waiting for changes nothing.

Bytes are counted without bound. Counters of 64 bits stand for these numbers, so what is said here
is said of relays of fewer than `2 ^ 64` bytes in each direction.
-/

namespace SshTunnels

/-- Which stream is meant. -/
inductive Side where
  | a
  | b
  deriving DecidableEq, Repr

/-- The stream opposite. -/
def Side.other : Side → Side
  | .a => .b
  | .b => .a

namespace Relay

/-- The greatest number of bytes of one read. -/
def chunkSize : Nat := 16 * 1024

/-- What a direction waits for: bytes from its source; room for what is left of a chunk; the flush
after a chunk; the flush after the end of its source. Or it has ended. -/
inductive Phase where
  | reading
  | writing (left : Bytes) (size : Nat)
  | flushing (size : Nat)
  | lastFlush
  | ended (fault : Option IoError)
  deriving DecidableEq, Repr

/-- A direction: what it waits for, and how many bytes of whole chunks it has copied. -/
structure Direction where
  phase : Phase
  copied : Nat
  deriving DecidableEq, Repr

/-- A stream's answer to a direction that waits: the bytes of a read, of which none means the end of
the source; how many bytes a write took; that a flush is done; or a fault. -/
inductive Answer where
  | bytes (chunk : Bytes)
  | took (n : Nat)
  | flushed
  | fault (error : IoError)
  deriving DecidableEq, Repr

namespace Direction

/-- A direction before its first read. -/
def start : Direction := ⟨.reading, 0⟩

/-- What an answer does to a direction. A write that takes nothing is a fault. -/
def step (d : Direction) : Answer → Direction
  | .bytes chunk =>
    match d.phase with
    | .reading =>
      if chunk = [] then { d with phase := .lastFlush }
      else { d with phase := .writing chunk chunk.length }
    | _ => d
  | .took n =>
    match d.phase with
    | .writing left size =>
      if n = 0 then { d with phase := .ended (some (.plain .writeZero)) }
      else if n < left.length then { d with phase := .writing (left.drop n) size }
      else { d with phase := .flushing size }
    | _ => d
  | .flushed =>
    match d.phase with
    | .flushing size => ⟨.reading, d.copied + size⟩
    | .lastFlush => { d with phase := .ended none }
    | _ => d
  | .fault e =>
    match d.phase with
    | .ended _ => d
    | _ => { d with phase := .ended (some e) }

/-- The bytes that the direction offers to its target. -/
def offered (d : Direction) : Bytes :=
  match d.phase with
  | .writing left _ => left
  | _ => []

end Direction

/-- How far the whole relay is: copying; shutting down A's, then B's write side, with the outcome
settled; or returned. -/
inductive Stage where
  | copying
  | closingA (fault : Option IoError)
  | closingB (fault : Option IoError)
  | returned (fault : Option IoError)
  deriving DecidableEq, Repr

end Relay

/-- A relay between two streams. -/
structure Relay where
  aToB : Relay.Direction
  bToA : Relay.Direction
  stage : Relay.Stage
  deriving DecidableEq, Repr

namespace Relay

/-- A relay before its first read. -/
def start : Relay := ⟨.start, .start, .copying⟩

/-- The direction that reads from a stream. -/
def direction (r : Relay) : Side → Direction
  | .a => r.aToB
  | .b => r.bToA

/-- The relay with a direction replaced. -/
def setDirection (r : Relay) (source : Side) (d : Direction) : Relay :=
  match source with
  | .a => { r with aToB := d }
  | .b => { r with bToA := d }

/-- The fault that a relay ends with: a peer that has gone is none. -/
def outcome : Option IoError → Option IoError
  | some e => if e.kind.isGracefulClose then none else some e
  | none => none

/-- What an answer to the direction from `source` does. The first direction to end settles the
outcome. -/
def step (r : Relay) (source : Side) (answer : Answer) : Relay :=
  match r.stage with
  | .copying =>
    let d := (r.direction source).step answer
    let r := r.setDirection source d
    match d.phase with
    | .ended fault => { r with stage := .closingA (outcome fault) }
    | _ => r
  | _ => r

/-- A shutdown is done, whether or not it went well. -/
def shutdownDone (r : Relay) : Relay :=
  match r.stage with
  | .closingA fault => { r with stage := .closingB fault }
  | .closingB fault => { r with stage := .returned fault }
  | _ => r

/-- What the relay returned, once it has. -/
def result? (r : Relay) : Option (Except SshError Unit) :=
  match r.stage with
  | .returned none => some (.ok ())
  | .returned (some e) => some (.error (.io e))
  | _ => none

end Relay
end SshTunnels
