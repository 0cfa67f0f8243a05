/-!
# Bytes

Octet sequences, blocks of a fixed number of octets, and the big-endian reading of a two-octet
block. Main statements: a word and its block determine each other (`Block.word_ofWord`,
`Block.ofWord_word`).
-/

namespace Socks

/-- A sequence of octets, the first one first. -/
abbrev Bytes := List UInt8

/-- Exactly `n` octets. -/
structure Block (n : Nat) where
  bytes : Bytes
  length_bytes : bytes.length = n
deriving DecidableEq

namespace Block

variable {n : Nat}

theorem ext_bytes {a b : Block n} (h : a.bytes = b.bytes) : a = b := by
  cases a; cases b; simp_all

/-- The block of `n` zero octets. -/
def zero (n : Nat) : Block n := ⟨List.replicate n 0, List.length_replicate⟩

/-- The block of no octets. -/
def empty : Block 0 := ⟨[], rfl⟩

/-- The block of one octet. -/
def single (b : UInt8) : Block 1 := ⟨[b], rfl⟩

/-- The octet of a block of one. -/
def octet (b : Block 1) : UInt8 := b.bytes.headD 0

@[simp] theorem octet_single (b : UInt8) : (single b).octet = b := rfl

theorem single_octet (b : Block 1) : single b.octet = b := by
  obtain ⟨bs, h⟩ := b
  match bs, h with
  | [_], _ => rfl

@[simp] theorem bytes_single (b : UInt8) : (single b).bytes = [b] := rfl

theorem bytes_eq_octet (b : Block 1) : b.bytes = [b.octet] :=
  congrArg bytes (single_octet b).symm

/-- Two blocks, one after the other. -/
def append {m : Nat} (a : Block m) (b : Block n) : Block (m + n) :=
  ⟨a.bytes ++ b.bytes, by rw [List.length_append, a.length_bytes, b.length_bytes]⟩

/-- The first `n` octets of a sequence that has them. -/
def take? (n : Nat) (input : Bytes) : Option (Block n × Bytes) :=
  if h : (input.take n).length = n then some (⟨input.take n, h⟩, input.drop n) else none

@[simp] theorem take?_append (b : Block n) (rest : Bytes) :
    take? n (b.bytes ++ rest) = some (b, rest) := by
  obtain ⟨bs, rfl⟩ := b
  simp [take?]

theorem take?_eq_some_iff {input rest : Bytes} {b : Block n} :
    take? n input = some (b, rest) ↔ input = b.bytes ++ rest := by
  constructor
  · intro h
    unfold take? at h
    split at h
    · cases h
      exact (List.take_append_drop n input).symm
    · cases h
  · rintro rfl
    exact take?_append b rest

theorem take?_eq_none_iff {input : Bytes} : take? n input = none ↔ input.length < n := by
  unfold take?
  split
  · rename_i h
    rw [List.length_take] at h
    simp
    omega
  · rename_i h
    rw [List.length_take] at h
    simp
    omega

/-- A word as two octets, the high one first. -/
def ofWord (w : UInt16) : Block 2 :=
  ⟨[UInt8.ofNat (w.toNat / 256), UInt8.ofNat (w.toNat % 256)], rfl⟩

/-- The word whose high octet comes first. -/
def word (b : Block 2) : UInt16 :=
  match b.bytes with
  | [high, low] => UInt16.ofNat (high.toNat * 256 + low.toNat)
  | _ => 0

@[simp] theorem word_ofWord (w : UInt16) : (ofWord w).word = w := by
  have h := w.toNat_lt
  apply UInt16.toNat_inj.mp
  simp [ofWord, word]
  omega

@[simp] theorem ofWord_word (b : Block 2) : ofWord b.word = b := by
  obtain ⟨bs, h⟩ := b
  match bs, h with
  | [high, low], _ =>
    have hh := high.toNat_lt
    have hl := low.toNat_lt
    apply ext_bytes
    simp only [ofWord, word, List.cons.injEq, and_true]
    refine ⟨UInt8.toNat_inj.mp ?_, UInt8.toNat_inj.mp ?_⟩
    · simp
      omega
    · simp

end Block

end Socks
