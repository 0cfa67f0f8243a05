import Socks.Failure

/-!
# Buffers

A message can be put together in a buffer: everything goes to the end of what is there already, and
whoever fails leaves behind what was put in before. Main statement: two fillings in a row do to a
buffer what the second does to what the first leaves (`Filling.on_bind`).
-/

namespace Socks

/-- Something that is done to a buffer and may fail on the way. -/
abbrev Filling := ExceptT Failure (StateM Bytes)

namespace Filling

variable {α β : Type}

/-- Puts octets at the end of the buffer. -/
def put (bytes : Bytes) : Filling Unit := modify fun buffer => buffer ++ bytes

/-- Puts one octet at the end of the buffer. -/
def putByte (b : UInt8) : Filling Unit := put [b]

/-- Puts a word at the end of the buffer, its high octet first. -/
def putWord (w : UInt16) : Filling Unit := put (Block.ofWord w).bytes

/-- What a filling comes to on a buffer, and the buffer after it. -/
def on (x : Filling α) (buffer : Bytes) : Except Failure α × Bytes := x.run.run buffer

@[simp] theorem on_pure (a : α) (buffer : Bytes) :
    (pure a : Filling α).on buffer = (.ok a, buffer) := rfl

@[simp] theorem on_throw (f : Failure) (buffer : Bytes) :
    (throw f : Filling α).on buffer = (.error f, buffer) := rfl

@[simp] theorem on_put (bytes buffer : Bytes) : (put bytes).on buffer = (.ok (), buffer ++ bytes) :=
  rfl

@[simp] theorem on_putByte (b : UInt8) (buffer : Bytes) :
    (putByte b).on buffer = (.ok (), buffer ++ [b]) := rfl

@[simp] theorem on_putWord (w : UInt16) (buffer : Bytes) :
    (putWord w).on buffer = (.ok (), buffer ++ (Block.ofWord w).bytes) := rfl

/-- One filling after another: the second goes on with the buffer that the first leaves, unless the
first has failed. -/
theorem on_bind (x : Filling α) (f : α → Filling β) (buffer : Bytes) :
    (x >>= f).on buffer =
      match x.on buffer with
      | (.ok a, left) => (f a).on left
      | (.error e, left) => (.error e, left) := by
  unfold on
  rw [ExceptT.run_bind, StateT.run_bind]
  rcases x.run.run buffer with ⟨result, left⟩
  cases result <;> rfl

end Filling

end Socks
