import Socks.Failure
import Socks.Stream
import Socks.Text

/-!
# Dialogues

What the server says and hears before it acts on a request: a tree whose nodes read a block of
known length or write bytes. A dialogue has no way to reach anything but the control stream.

`Dialogue.eval` gives the meaning of a dialogue on a whole byte sequence. `Dialogue.resume` carries
it out on a stream, chunk by chunk, and stops where the stream has nothing more yet.
-/

namespace Socks

/-- A field is one number or a block of bytes; a field cut short is reported accordingly. -/
inductive Field where
  | number | block
deriving DecidableEq

namespace Field

/-- The error of a field that the end of the input cuts short. -/
def endOfInput : Field → IoError
  | number => .endOfNumber
  | block => .endOfBlock

end Field

/-- A conversation over the control stream that comes to a result. A read that fails ends it. -/
inductive Dialogue (α : Type) where
  | finish (result : Except Failure α)
  | read (field : Field) (n : Nat) (next : Block n → Dialogue α)
  | write (bytes : Bytes) (next : Except IoError Unit → Dialogue α)

/-- What a dialogue comes to on a byte sequence: its result, what it left unread, and what it
said. -/
structure Outcome (α : Type) where
  result : Except Failure α
  rest : Bytes
  said : Bytes

/-- How far a dialogue has come on a stream: to its result, or to a field that is not there yet. -/
inductive Progress (α : Type) where
  | finished (result : Except Failure α)
  | listening (field : Field) (n : Nat) (next : Block n → Dialogue α)

namespace Dialogue

variable {α β : Type}

/-- First one dialogue, then one that depends on its result. -/
def andThen : Dialogue α → (α → Dialogue β) → Dialogue β
  | finish (.ok a), f => f a
  | finish (.error e), _ => finish (.error e)
  | read field n next, f => read field n fun b => (next b).andThen f
  | write bytes next, f => write bytes fun r => (next r).andThen f

instance : Monad Dialogue where
  pure a := finish (.ok a)
  bind := andThen

/-- Ends in failure. -/
def fail (e : Failure) : Dialogue α := finish (.error e)

/-- Fails because a message is malformed. -/
def reject (fault : ProtocolFault) : Dialogue α := fail (.protocol fault)

/-- Goes on with the failure of a dialogue as with a result. -/
def attempt : Dialogue α → Dialogue (Except Failure α)
  | finish r => finish (.ok r)
  | read field n next => read field n fun b => (next b).attempt
  | write bytes next => write bytes fun r => (next r).attempt

/-- One byte. -/
def byte : Dialogue UInt8 := read .number 1 fun b => pure b.octet

/-- One word, high byte first. -/
def word : Dialogue UInt16 := read .number 2 fun b => pure b.word

/-- A block of bytes. -/
def block (n : Nat) : Dialogue (Block n) := read .block n pure

/-- Says something; a failed write ends the dialogue. -/
def say (bytes : Bytes) : Dialogue Unit :=
  write bytes fun
    | .ok () => pure ()
    | .error e => fail (.transport e)

/-- Says something and goes on whether or not it could be written. -/
def trySay (bytes : Bytes) : Dialogue Unit := write bytes fun _ => pure ()

/-- The outcome on a byte sequence that ends, all writes succeeding. -/
def eval : Dialogue α → Bytes → Outcome α
  | finish r, input => ⟨r, input, []⟩
  | read field n next, input =>
    match Block.take? n input with
    | some (b, rest) => (next b).eval rest
    | none => ⟨.error (.transport field.endOfInput), [], []⟩
  | write bytes next, input =>
    let o := (next (.ok ())).eval input
    { o with said := bytes ++ o.said }

/-- Goes on as far as the stream allows. -/
def resume : Dialogue α → Stream → Progress α × Stream
  | finish r, s => (.finished r, s)
  | read field n next, s =>
    match s.gather n with
    | (.full b, s) => (next b).resume s
    | (.partly got fits, s) =>
      (.listening field (n - got.length) fun rest =>
          next ⟨got ++ rest.bytes, by rw [List.length_append, rest.length_bytes]; omega⟩, s)
    | (.ended, s) => (.finished (.error (.transport field.endOfInput)), s)
    | (.broken e, s) => (.finished (.error (.transport e)), s)
  | write bytes next, s =>
    let (r, s) := s.writeAll bytes
    (next r).resume s

/-- Carries out a dialogue on a stream to which nothing more will come. -/
def run (d : Dialogue α) (s : Stream) : Except Failure α × Stream :=
  match d.resume s with
  | (.finished r, s) => (r, s)
  | (.listening field _ _, s) => (.error (.transport field.endOfInput), s)

end Dialogue

end Socks
