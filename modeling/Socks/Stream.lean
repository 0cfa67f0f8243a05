import Socks.Bytes
import Socks.IoError

/-!
# Byte streams

One side of a connection as the server sees it: what has arrived and not been read, what comes
after that, and everything written. A read brings at most one chunk and a write takes at most one;
neither moves nothing when it could move something, so `gather` and `writeAll` reach the same end
for all chunk sizes.
-/

namespace Socks

/-- The most bytes that move at once. -/
abbrev Chunk := { n : Nat // 0 < n }

/-- What comes after the bytes that have arrived. -/
inductive Ending where
  | awaited
  | ended
  | broken (error : IoError)
deriving DecidableEq

/-- A stream that takes so many bytes in all, and then fails every write. -/
structure WriteFault where
  after : Nat
  error : IoError
deriving DecidableEq

/-- A byte stream in both directions. -/
structure Stream where
  incoming : Bytes
  ending : Ending
  written : Bytes
  readChunk? : Option Chunk
  writeChunk? : Option Chunk
  fault? : Option WriteFault

/-- What a read of at most `limit` bytes brings. -/
inductive Arrival (limit : Nat) where
  | bytes (bytes : Bytes) (fits : bytes.length ≤ limit)
  | nothingYet
  | ended
  | broken (error : IoError)

/-- What is there of a block of `n` bytes once no more can be read. -/
inductive Gathered (n : Nat) where
  | full (block : Block n)
  | partly (got : Bytes) (fits : got.length ≤ n)
  | ended
  | broken (error : IoError)

namespace Stream

/-- A stream on which nothing has happened, without limits or faults. -/
def idle : Stream := ⟨[], .awaited, [], none, none, none⟩

/-- A stream that holds these bytes and then ends. -/
def ofBytes (input : Bytes) : Stream := { idle with incoming := input, ending := .ended }

/-- The number of bytes that move at once, of those asked for. -/
def atOnce (chunk? : Option Chunk) (asked : Nat) : Nat :=
  match chunk? with
  | some c => min c.val asked
  | none => asked

theorem atOnce_le (chunk? : Option Chunk) (asked : Nat) : atOnce chunk? asked ≤ asked := by
  cases chunk? with
  | none => exact Nat.le_refl _
  | some c => exact Nat.min_le_right _ _

theorem atOnce_pos (chunk? : Option Chunk) {asked : Nat} (h : 0 < asked) :
    0 < atOnce chunk? asked := by
  cases chunk? with
  | none => exact h
  | some c => exact Nat.lt_min.mpr ⟨c.property, h⟩

/-- Bytes arrive. -/
def arrive (s : Stream) (bytes : Bytes) : Stream := { s with incoming := s.incoming ++ bytes }

/-- Nothing more will arrive. -/
def close (s : Stream) : Stream := { s with ending := .ended }

/-- The stream breaks after what has arrived. -/
def breakOff (s : Stream) (e : IoError) : Stream := { s with ending := .broken e }

/-- Reads at most `limit` bytes; a break is reported once and then reads as the end. -/
def read (s : Stream) (limit : Nat) : Arrival limit × Stream :=
  match s.incoming with
  | [] =>
    match s.ending with
    | .awaited => (.nothingYet, s)
    | .ended => (.ended, s)
    | .broken e => (.broken e, s.close)
  | _ :: _ =>
    let k := atOnce s.readChunk? limit
    (.bytes (s.incoming.take k)
        (Nat.le_trans (List.length_take_le _ _) (atOnce_le _ _)),
      { s with incoming := s.incoming.drop k })

/-- Reads on until a block is full or no more bytes are there; each round reads at least one byte,
so `n` rounds are enough. -/
def gatherWithin {n : Nat} (rounds : Nat) (got : Bytes) (fits : got.length ≤ n) (s : Stream) :
    Gathered n × Stream :=
  if h : got.length = n then (.full ⟨got, h⟩, s)
  else
    match rounds with
    | 0 => (.partly got fits, s)
    | rounds + 1 =>
      match s.read (n - got.length) with
      | (.bytes more room, s) =>
        gatherWithin rounds (got ++ more) (by rw [List.length_append]; omega) s
      | (.nothingYet, s) => (.partly got fits, s)
      | (.ended, s) => (.ended, s)
      | (.broken e, s) => (.broken e, s)

/-- Reads a block of `n` bytes, or all that is there. -/
def gather (s : Stream) (n : Nat) : Gathered n × Stream := gatherWithin n [] (Nat.zero_le n) s

/-- Writes a first part of some bytes and tells how many were taken. -/
def write (s : Stream) (bytes : Bytes) : Except IoError Nat × Stream :=
  let k := atOnce s.writeChunk? bytes.length
  match s.fault? with
  | none => (.ok k, { s with written := s.written ++ bytes.take k })
  | some fault =>
    let k := min k (fault.after - s.written.length)
    if k = 0 then (.error fault.error, s)
    else (.ok k, { s with written := s.written ++ bytes.take k })

/-- Writes on until all is taken; each round takes at least one byte. -/
def writeWithin (rounds : Nat) (s : Stream) (bytes : Bytes) : Except IoError Unit × Stream :=
  match bytes, rounds with
  | [], _ => (.ok (), s)
  | _ :: _, 0 => (.ok (), s)
  | _ :: _, rounds + 1 =>
    match s.write bytes with
    | (.ok k, s) => writeWithin rounds s (bytes.drop k)
    | (.error e, s) => (.error e, s)

/-- Writes all of some bytes, or fails part of the way. -/
def writeAll (s : Stream) (bytes : Bytes) : Except IoError Unit × Stream :=
  writeWithin bytes.length s bytes

end Stream

end Socks
