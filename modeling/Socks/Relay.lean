import Socks.Failure
import Socks.Stream

/-!
# Relaying two streams

A relay copies each of two streams to the other, and ends as soon as one direction does: without
failure when that stream has ended, with the error of the first read or write that fails. A
direction reads only when it has written all that it read before.

`Relay.step` is one read or one write of one direction. Directions may take their steps in any
order and read any number of bytes; `Relay.settle` is the order in which the first direction goes
as far as it can before the second.
-/

namespace Socks

/-- One of the two streams of a relay. -/
inductive Side where
  | left | right
deriving DecidableEq

namespace Side

/-- The stream to which a stream is copied. -/
def other : Side → Side
  | left => right
  | right => left

end Side

/-- Two streams, what each direction has read and not written yet, and how the relay ended. -/
structure Relay where
  left : Stream
  right : Stream
  fromLeft : Bytes
  fromRight : Bytes
  result? : Option (Except Failure Unit)

namespace Relay

/-- A relay that has not begun. -/
def start (left right : Stream) : Relay := ⟨left, right, [], [], none⟩

/-- The stream on a side. -/
def stream (r : Relay) : Side → Stream
  | .left => r.left
  | .right => r.right

/-- The relay with another stream on a side. -/
def withStream (r : Relay) (side : Side) (s : Stream) : Relay :=
  match side with
  | .left => { r with left := s }
  | .right => { r with right := s }

/-- What has been read from a side and not written to the other. -/
def pending (r : Relay) : Side → Bytes
  | .left => r.fromLeft
  | .right => r.fromRight

/-- The relay with other bytes read from a side and not written. -/
def withPending (r : Relay) (side : Side) (bytes : Bytes) : Relay :=
  match side with
  | .left => { r with fromLeft := bytes }
  | .right => { r with fromRight := bytes }

/-- The relay after its end. -/
def finish (r : Relay) (result : Except Failure Unit) : Relay := { r with result? := some result }

/-- Writes a part of what is pending. -/
def writeStep (r : Relay) (side : Side) : Relay :=
  match (r.stream side.other).write (r.pending side) with
  | (.ok k, s) => (r.withStream side.other s).withPending side ((r.pending side).drop k)
  | (.error e, s) => (r.withStream side.other s).finish (.error (.transport e))

/-- Reads at most `limit` bytes. -/
def readStep (r : Relay) (side : Side) (limit : Nat) : Relay :=
  match (r.stream side).read limit with
  | (.bytes bytes _, s) => (r.withStream side s).withPending side bytes
  | (.nothingYet, s) => r.withStream side s
  | (.ended, s) => (r.withStream side s).finish (.ok ())
  | (.broken e, s) => (r.withStream side s).finish (.error (.transport e))

/-- One step of the direction that copies a side. -/
def step (r : Relay) (side : Side) (limit : Nat) : Relay :=
  match r.result?, r.pending side with
  | some _, _ => r
  | none, [] => r.readStep side limit
  | none, _ :: _ => r.writeStep side

/-- The most bytes that a direction reads before it writes. -/
def bufferSize : Nat := 8192

/-- So many steps of one direction. -/
def pump (side : Side) : Nat → Relay → Relay
  | 0, r => r
  | n + 1, r => pump side n (r.step side bufferSize)

/-- Steps enough for one direction to copy all that has arrived and to notice an end: each byte
takes at most a read and a write. -/
def enough (r : Relay) (side : Side) : Nat :=
  2 * (r.stream side).incoming.length + (r.pending side).length + 1

/-- Copies all that has arrived, first from the left, then from the right. -/
def settle (r : Relay) : Relay :=
  let r := pump .left (r.enough .left) r
  pump .right (r.enough .right) r

end Relay

end Socks
