import SshTunnels.Relay

/-!
# A relay between scripted streams

Two streams whose data, faults and room for writes are given step by step, and a relay between them.
After each step the relay runs until both of its directions wait.
-/

namespace SshTunnels.Rehearsal

/-- What waits to be read from a stream. -/
inductive Incoming where
  | data (bytes : Bytes)
  | endOfFile
  | fault (error : IoError)
  deriving DecidableEq, Repr

/-- A scripted stream: what waits to be read, how many bytes it still accepts (`none` is no limit),
whether writes or flushes fail, and what has happened to it. -/
structure Stream where
  incoming : List Incoming
  room : Option Nat
  writeFault : Option IoError
  flushFault : Option IoError
  accepted : Bytes
  shutdowns : Nat
  deriving DecidableEq, Repr

namespace Stream

/-- A stream with nothing to read that accepts everything. -/
def start : Stream := ⟨[], none, none, none, [], 0⟩

/-- The answer to a read, if there is one yet. -/
def read? (s : Stream) : Option (Relay.Answer × Stream) :=
  match s.incoming with
  | [] => none
  | .data bytes :: rest =>
    let left := bytes.drop Relay.chunkSize
    some (.bytes (bytes.take Relay.chunkSize),
      { s with incoming := if left.isEmpty then rest else .data left :: rest })
  | .endOfFile :: rest => some (.bytes [], { s with incoming := rest })
  | .fault e :: rest => some (.fault e, { s with incoming := rest })

/-- The answer to a write, if there is one yet. -/
def write? (s : Stream) (bytes : Bytes) : Option (Relay.Answer × Stream) :=
  match s.writeFault, s.room with
  | some e, _ => some (.fault e, s)
  | none, some 0 => none
  | none, some room =>
    let n := min room bytes.length
    some (.took n, { s with room := some (room - n), accepted := s.accepted ++ bytes.take n })
  | none, none => some (.took bytes.length, { s with accepted := s.accepted ++ bytes })

/-- The answer to a flush. -/
def flush (s : Stream) : Relay.Answer :=
  s.flushFault.elim .flushed .fault

end Stream

/-- Two scripted streams and the relay between them. -/
structure Streams where
  a : Stream
  b : Stream
  relay : Relay
  deriving DecidableEq, Repr

/-- What a step does to one of the streams. -/
inductive StreamChange where
  | push (incoming : Incoming)
  | failWrites (error : IoError)
  | failFlushes (error : IoError)
  | setRoom (room : Option Nat)
  deriving DecidableEq, Repr

namespace Streams

/-- Fresh streams and a relay before its first read. -/
def start : Streams := ⟨.start, .start, .start⟩

/-- One of the streams. -/
def stream (s : Streams) : Side → Stream
  | .a => s.a
  | .b => s.b

/-- The streams with one of them replaced. -/
def setStream (s : Streams) (side : Side) (stream : Stream) : Streams :=
  match side with
  | .a => { s with a := stream }
  | .b => { s with b := stream }

/-- The next answer that the direction from `source` gets, if it does not have to wait. -/
def advance? (s : Streams) (source : Side) : Option Streams :=
  match (s.relay.direction source).phase with
  | .reading => (s.stream source).read?.map fun (answer, stream) =>
    { s.setStream source stream with relay := s.relay.step source answer }
  | .writing left _ => ((s.stream source.other).write? left).map fun (answer, stream) =>
    { s.setStream source.other stream with relay := s.relay.step source answer }
  | .flushing _ | .lastFlush =>
    some { s with relay := s.relay.step source (s.stream source.other).flush }
  | .ended _ => none

/-- Runs until both directions wait or the relay has returned. -/
def settle : (fuel : Nat) → Streams → Streams
  | 0, s => s
  | fuel + 1, s =>
    match s.relay.stage with
    | .copying =>
      match (s.advance? .a).or (s.advance? .b) with
      | some next => settle fuel next
      | none => s
    | .closingA _ =>
      settle fuel { s with
        a := { s.a with shutdowns := s.a.shutdowns + 1 }, relay := s.relay.shutdownDone }
    | .closingB _ =>
      settle fuel { s with
        b := { s.b with shutdowns := s.b.shutdowns + 1 }, relay := s.relay.shutdownDone }
    | .returned _ => s

/-- More steps than the streams' contents can keep the relay busy for. -/
def patience (s : Streams) : Nat :=
  let size (stream : Stream) : Nat := stream.incoming.foldl (fun sum item => match item with
    | .data bytes => sum + 3 * (bytes.length / Relay.chunkSize + 2)
    | _ => sum + 3) 0
  size s.a + size s.b + 16

/-- What a step does: a change to a stream, and all that follows from it. -/
def step (s : Streams) (side : Side) (change : StreamChange) : Streams :=
  let stream := s.stream side
  let stream := match change with
    | .push incoming => { stream with incoming := stream.incoming ++ [incoming] }
    | .failWrites e => { stream with writeFault := some e }
    | .failFlushes e => { stream with flushFault := some e }
    | .setRoom room => { stream with room }
  let s := s.setStream side stream
  settle s.patience s

/-- The relay has let go of the streams. -/
def isDropped (s : Streams) : Bool :=
  s.relay.result?.isSome

end Streams
end SshTunnels.Rehearsal
