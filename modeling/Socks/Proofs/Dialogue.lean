import Socks.Dialogue
import Socks.Proofs.Stream

/-!
# Dialogues and the bytes that move them

`Dialogue.Reaches` relates a dialogue to what is left of it after some bytes were heard and some
were said; a complete conversation reaches a `finish`. A dialogue `Reads` a value from the bytes
that bring it to that value without a word said. A dialogue that only reads `Listens`, and one that
ends with the failure to write when a write fails, unless that was its last word, is `Candid`; both
are kept by sequencing.

Main statements: two dialogues in a row are somewhere in the first, or the first is complete
(`Dialogue.reaches_bind_iff`), and so for an attempt (`Dialogue.reaches_attempt_iff`).
-/

namespace Socks

namespace Dialogue

variable {α β : Type}

/-! ### Conversations -/

/-- `d.Reaches heard said d'`: after hearing and saying these bytes, all writes having succeeded,
`d'` is left of the dialogue `d`. -/
inductive Reaches : Dialogue α → Bytes → Bytes → Dialogue α → Prop
  | here (d : Dialogue α) : Reaches d [] [] d
  | read {field : Field} {n : Nat} {next : Block n → Dialogue α} {heard said : Bytes}
      {d' : Dialogue α} (b : Block n) :
      Reaches (next b) heard said d' → Reaches (.read field n next) (b.bytes ++ heard) said d'
  | write {bytes : Bytes} {next : Except IoError Unit → Dialogue α} {heard said : Bytes}
      {d' : Dialogue α} :
      Reaches (next (.ok ())) heard said d' → Reaches (.write bytes next) heard (bytes ++ said) d'

theorem reaches_finish_iff {r : Except Failure α} {heard said : Bytes} {d' : Dialogue α} :
    (finish r).Reaches heard said d' ↔ heard = [] ∧ said = [] ∧ d' = finish r := by
  constructor
  · intro h
    cases h
    exact ⟨rfl, rfl, rfl⟩
  · rintro ⟨rfl, rfl, rfl⟩
    exact .here _

theorem reaches_read_iff {field : Field} {n : Nat} {next : Block n → Dialogue α}
    {heard said : Bytes} {d' : Dialogue α} :
    (read field n next).Reaches heard said d' ↔
      (heard = [] ∧ said = [] ∧ d' = read field n next) ∨
        ∃ b h, heard = b.bytes ++ h ∧ (next b).Reaches h said d' := by
  constructor
  · intro h
    cases h with
    | here => exact .inl ⟨rfl, rfl, rfl⟩
    | read b h => exact .inr ⟨b, _, rfl, h⟩
  · rintro (⟨rfl, rfl, rfl⟩ | ⟨b, h, rfl, hd⟩)
    · exact .here _
    · exact .read b hd

theorem reaches_write_iff {bytes : Bytes} {next : Except IoError Unit → Dialogue α}
    {heard said : Bytes} {d' : Dialogue α} :
    (write bytes next).Reaches heard said d' ↔
      (heard = [] ∧ said = [] ∧ d' = write bytes next) ∨
        ∃ s, said = bytes ++ s ∧ (next (.ok ())).Reaches heard s d' := by
  constructor
  · intro h
    cases h with
    | here => exact .inl ⟨rfl, rfl, rfl⟩
    | write h => exact .inr ⟨_, rfl, h⟩
  · rintro (⟨rfl, rfl, rfl⟩ | ⟨s, rfl, hd⟩)
    · exact .here _
    · exact .write hd

theorem Reaches.append {d₁ d₂ d₃ : Dialogue α} {h₁ s₁ h₂ s₂ : Bytes}
    (r₁ : d₁.Reaches h₁ s₁ d₂) (r₂ : d₂.Reaches h₂ s₂ d₃) :
    d₁.Reaches (h₁ ++ h₂) (s₁ ++ s₂) d₃ := by
  induction r₁ with
  | here d => exact r₂
  | read b _ ih =>
      rw [List.append_assoc]
      exact .read b (ih r₂)
  | write _ ih =>
      rw [List.append_assoc]
      exact .write (ih r₂)

theorem bind_eq (d : Dialogue α) (f : α → Dialogue β) : d >>= f = d.andThen f := rfl

theorem pure_eq (a : α) : (pure a : Dialogue α) = finish (.ok a) := rfl

theorem Reaches.bind {d d' : Dialogue α} {heard said : Bytes} (h : d.Reaches heard said d')
    (f : α → Dialogue β) : (d >>= f).Reaches heard said (d' >>= f) := by
  induction h with
  | here d => exact .here _
  | read b _ ih => exact .read b ih
  | write _ ih => exact .write ih

/-- Two dialogues in a row are somewhere in the first, or the first is complete. -/
theorem reaches_bind_iff {d : Dialogue α} {f : α → Dialogue β} {heard said : Bytes}
    {d' : Dialogue β} :
    (d >>= f).Reaches heard said d' ↔
      (∃ d₀, d.Reaches heard said d₀ ∧ (∀ a, d₀ ≠ finish (.ok a)) ∧ d' = d₀ >>= f) ∨
        ∃ a h₁ s₁ h₂ s₂, heard = h₁ ++ h₂ ∧ said = s₁ ++ s₂ ∧
          d.Reaches h₁ s₁ (finish (.ok a)) ∧ (f a).Reaches h₂ s₂ d' := by
  constructor
  · induction d generalizing heard said with
    | finish r =>
        intro h
        cases r with
        | ok a => exact .inr ⟨a, [], [], heard, said, rfl, rfl, .here _, h⟩
        | error e =>
            obtain ⟨rfl, rfl, rfl⟩ := reaches_finish_iff.mp h
            exact .inl ⟨finish (.error e), .here _, by simp, rfl⟩
    | read field n next ih =>
        intro h
        cases h with
        | here => exact .inl ⟨_, .here _, by simp, rfl⟩
        | read b h =>
            rcases ih b h with ⟨d₀, h, e⟩ | ⟨a, h₁, s₁, h₂, s₂, rfl, rfl, h, hf⟩
            · exact .inl ⟨d₀, .read b h, e⟩
            · exact .inr ⟨a, _, s₁, h₂, s₂, (List.append_assoc ..).symm, rfl, .read b h, hf⟩
    | write bytes next ih =>
        intro h
        cases h with
        | here => exact .inl ⟨_, .here _, by simp, rfl⟩
        | write h =>
            rcases ih (.ok ()) h with ⟨d₀, h, e⟩ | ⟨a, h₁, s₁, h₂, s₂, rfl, rfl, h, hf⟩
            · exact .inl ⟨d₀, .write h, e⟩
            · exact .inr ⟨a, h₁, _, h₂, s₂, rfl, (List.append_assoc ..).symm, .write h, hf⟩
  · rintro (⟨d₀, h, -, rfl⟩ | ⟨a, h₁, s₁, h₂, s₂, rfl, rfl, h, hf⟩)
    · exact h.bind f
    · exact (h.bind f).append hf

/-- Two dialogues in a row succeed when both do. -/
theorem reaches_bind_ok_iff {d : Dialogue α} {f : α → Dialogue β} {heard said : Bytes} {b : β} :
    (d >>= f).Reaches heard said (finish (.ok b)) ↔
      ∃ a h₁ s₁ h₂ s₂, heard = h₁ ++ h₂ ∧ said = s₁ ++ s₂ ∧
        d.Reaches h₁ s₁ (finish (.ok a)) ∧ (f a).Reaches h₂ s₂ (finish (.ok b)) := by
  rw [reaches_bind_iff]
  refine or_iff_right ?_
  rintro ⟨d₀, -, hno, e⟩
  rw [bind_eq] at e
  unfold andThen at e
  split at e
  · exact hno _ rfl
  · cases e
  · cases e
  · cases e

/-- The failure in which a dialogue has ended. -/
def failure? : Dialogue α → Option Failure
  | finish (.error f) => some f
  | _ => none

theorem failure?_eq_some_iff {d : Dialogue α} {f : Failure} :
    d.failure? = some f ↔ d = finish (.error f) := by
  unfold failure?
  split
  · simp
  · rename_i hno
    simp only [reduceCtorEq, false_iff]
    rintro rfl
    exact hno f rfl

theorem failure?_bind {d : Dialogue α} {f : α → Dialogue β} (h : ∀ a, d ≠ finish (.ok a)) :
    (d >>= f).failure? = d.failure? := by
  cases d with
  | finish r =>
      cases r with
      | ok a => exact absurd rfl (h a)
      | error e => rfl
  | read | write => rfl

/-! ### The single messages -/

section messages

variable {heard said : Bytes}

theorem reaches_pure_ok_iff {a b : α} :
    (pure a : Dialogue α).Reaches heard said (finish (.ok b)) ↔ heard = [] ∧ said = [] ∧ a = b := by
  rw [pure_eq, reaches_finish_iff]
  simp [eq_comm]

theorem not_reaches_fail_ok {e : Failure} {a : α} :
    ¬(fail e : Dialogue α).Reaches heard said (finish (.ok a)) := by
  intro h
  have := (reaches_finish_iff.mp h).2.2
  cases this

theorem reaches_block_iff {n : Nat} {b : Block n} :
    (block n).Reaches heard said (finish (.ok b)) ↔ heard = b.bytes ∧ said = [] := by
  unfold block
  simp only [reaches_read_iff, reaches_pure_ok_iff, reduceCtorEq, and_false, false_or]
  constructor
  · rintro ⟨b', h, rfl, rfl, rfl, rfl⟩
    exact ⟨List.append_nil _, rfl⟩
  · rintro ⟨rfl, rfl⟩
    exact ⟨b, [], (List.append_nil _).symm, rfl, rfl, rfl⟩

theorem reaches_byte_iff {b : UInt8} :
    byte.Reaches heard said (finish (.ok b)) ↔ heard = [b] ∧ said = [] := by
  unfold byte
  simp only [reaches_read_iff, reaches_pure_ok_iff, reduceCtorEq, and_false, false_or]
  constructor
  · rintro ⟨b', h, rfl, rfl, rfl, rfl⟩
    exact ⟨by rw [List.append_nil, Block.bytes_eq_octet], rfl⟩
  · rintro ⟨rfl, rfl⟩
    exact ⟨Block.single b, [], rfl, rfl, rfl, rfl⟩

theorem reaches_word_iff {w : UInt16} :
    word.Reaches heard said (finish (.ok w)) ↔ heard = (Block.ofWord w).bytes ∧ said = [] := by
  unfold word
  simp only [reaches_read_iff, reaches_pure_ok_iff, reduceCtorEq, and_false, false_or]
  constructor
  · rintro ⟨b', h, rfl, rfl, rfl, rfl⟩
    exact ⟨by rw [List.append_nil, Block.ofWord_word], rfl⟩
  · rintro ⟨rfl, rfl⟩
    exact ⟨Block.ofWord w, [], (List.append_nil _).symm, rfl, rfl, Block.word_ofWord w⟩

theorem reaches_trySay_iff {bytes : Bytes} {d' : Dialogue Unit} :
    (trySay bytes).Reaches heard said d' ↔
      heard = [] ∧ (said = [] ∧ d' = trySay bytes ∨ said = bytes ∧ d' = finish (.ok ())) := by
  unfold trySay
  simp only [reaches_write_iff, pure_eq, reaches_finish_iff]
  constructor
  · rintro (⟨rfl, rfl, rfl⟩ | ⟨s, rfl, rfl, rfl, rfl⟩)
    · exact ⟨rfl, .inl ⟨rfl, rfl⟩⟩
    · exact ⟨rfl, .inr ⟨List.append_nil _, rfl⟩⟩
  · rintro ⟨rfl, ⟨rfl, rfl⟩ | ⟨rfl, rfl⟩⟩
    · exact .inl ⟨rfl, rfl, rfl⟩
    · exact .inr ⟨[], (List.append_nil _).symm, rfl, rfl, rfl⟩

theorem reaches_say_bind_iff {message : Bytes} {f : Unit → Dialogue α}
    {d' : Dialogue α} :
    (say message >>= f).Reaches heard said d' ↔
      (heard = [] ∧ said = [] ∧ d' = say message >>= f) ∨
        ∃ s, said = message ++ s ∧ (f ()).Reaches heard s d' := by
  constructor
  · intro h
    cases h with
    | here => exact .inl ⟨rfl, rfl, rfl⟩
    | write h => exact .inr ⟨_, rfl, h⟩
  · rintro (⟨rfl, rfl, rfl⟩ | ⟨s, rfl, h⟩)
    · exact .here _
    · exact .write h

theorem reaches_say_bind_ok_iff {message : Bytes} {f : Unit → Dialogue α} {a : α} :
    (say message >>= f).Reaches heard said (finish (.ok a)) ↔
      ∃ s, said = message ++ s ∧ (f ()).Reaches heard s (finish (.ok a)) := by
  rw [reaches_say_bind_iff]
  constructor
  · rintro (⟨-, -, h⟩ | h)
    · cases h
    · exact h
  · exact .inr

theorem reaches_byte_bind_ok_iff {f : UInt8 → Dialogue α} {a : α} :
    (byte >>= f).Reaches heard said (finish (.ok a)) ↔
      ∃ b rest, heard = b :: rest ∧ (f b).Reaches rest said (finish (.ok a)) := by
  rw [reaches_bind_ok_iff]
  constructor
  · rintro ⟨b, h₁, s₁, rest, s, rfl, rfl, hb, hf⟩
    obtain ⟨rfl, rfl⟩ := reaches_byte_iff.mp hb
    exact ⟨b, rest, rfl, hf⟩
  · rintro ⟨b, rest, rfl, hf⟩
    exact ⟨b, [b], [], rest, said, rfl, rfl, reaches_byte_iff.mpr ⟨rfl, rfl⟩, hf⟩

theorem reaches_block_bind_ok_iff {n : Nat} {f : Block n → Dialogue α} {a : α} :
    (block n >>= f).Reaches heard said (finish (.ok a)) ↔
      ∃ (b : Block n) (rest : Bytes), heard = b.bytes ++ rest ∧
        (f b).Reaches rest said (finish (.ok a)) := by
  rw [reaches_bind_ok_iff]
  constructor
  · rintro ⟨b, h₁, s₁, rest, s, rfl, rfl, hb, hf⟩
    obtain ⟨rfl, rfl⟩ := reaches_block_iff.mp hb
    exact ⟨b, rest, rfl, hf⟩
  · rintro ⟨b, rest, rfl, hf⟩
    exact ⟨b, b.bytes, [], rest, said, rfl, rfl, reaches_block_iff.mpr ⟨rfl, rfl⟩, hf⟩

end messages

/-! ### Readers -/

/-- `d.Reads heard a`: after hearing these bytes, and without saying anything, `d` comes to `a`. -/
def Reads (d : Dialogue α) (heard : Bytes) (a : α) : Prop := d.Reaches heard [] (finish (.ok a))

section readers

variable {heard : Bytes}

theorem Reads.bind {d : Dialogue α} {f : α → Dialogue β} {a : α} {b : β} {h₁ h₂ : Bytes}
    (hd : d.Reads h₁ a) (hf : (f a).Reads h₂ b) : (d >>= f).Reads (h₁ ++ h₂) b :=
  reaches_bind_ok_iff.mpr ⟨a, h₁, [], h₂, [], rfl, rfl, hd, hf⟩

theorem Reads.bind_pure {d : Dialogue α} {a : α} {h₁ : Bytes} (hd : d.Reads h₁ a) (g : α → β) :
    (d >>= fun x => pure (g x)).Reads h₁ (g a) :=
  reaches_bind_ok_iff.mpr ⟨a, h₁, [], [], [], (List.append_nil _).symm, rfl, hd,
    reaches_pure_ok_iff.mpr ⟨rfl, rfl, rfl⟩⟩

/-- Two readers in a row read what both read, one after the other. -/
theorem reads_bind_iff {d : Dialogue α} {f : α → Dialogue β} {b : β} :
    (d >>= f).Reads heard b ↔
      ∃ a h₁ h₂, heard = h₁ ++ h₂ ∧ d.Reads h₁ a ∧ (f a).Reads h₂ b := by
  constructor
  · intro h
    obtain ⟨a, h₁, s₁, h₂, s₂, he, hs, hd, hf⟩ := reaches_bind_ok_iff.mp h
    obtain ⟨rfl, rfl⟩ := List.nil_eq_append_iff.mp hs
    exact ⟨a, h₁, h₂, he, hd, hf⟩
  · rintro ⟨a, h₁, h₂, rfl, hd, hf⟩
    exact hd.bind hf

theorem reads_pure_iff {a b : α} : (pure a : Dialogue α).Reads heard b ↔ heard = [] ∧ a = b := by
  rw [Reads, reaches_pure_ok_iff]
  simp

theorem reads_pure (a : α) : (pure a : Dialogue α).Reads [] a := reads_pure_iff.mpr ⟨rfl, rfl⟩

theorem not_reads_fail {e : Failure} {a : α} : ¬(fail e : Dialogue α).Reads heard a :=
  not_reaches_fail_ok

theorem reads_byte_iff {b : UInt8} : byte.Reads heard b ↔ heard = [b] := by
  rw [Reads, reaches_byte_iff]
  simp

theorem reads_byte (b : UInt8) : byte.Reads [b] b := reads_byte_iff.mpr rfl

theorem reads_block_iff {n : Nat} {b : Block n} : (block n).Reads heard b ↔ heard = b.bytes := by
  rw [Reads, reaches_block_iff]
  simp

theorem reads_block {n : Nat} (b : Block n) : (block n).Reads b.bytes b := reads_block_iff.mpr rfl

theorem reads_word_iff {w : UInt16} : word.Reads heard w ↔ heard = (Block.ofWord w).bytes := by
  rw [Reads, reaches_word_iff]
  simp

theorem reads_word (w : UInt16) : word.Reads (Block.ofWord w).bytes w := reads_word_iff.mpr rfl

end readers

/-! ### Dialogues that only listen, and dialogues that tell which write failed -/

/-- A dialogue that says nothing, and whose own failures are as told. -/
def Listens (P : Failure → Prop) : Dialogue α → Prop
  | finish r => ∀ f, r = .error f → P f
  | read _ _ next => ∀ b, (next b).Listens P
  | write _ _ => False

section listening

variable {P : Failure → Prop}

theorem Listens.bind {d : Dialogue α} {f : α → Dialogue β} (hd : d.Listens P)
    (hf : ∀ a, (f a).Listens P) : (d >>= f).Listens P := by
  induction d with
  | finish r =>
      cases r with
      | ok a => exact hf a
      | error e =>
          intro f' h
          cases h
          exact hd _ rfl
  | read field n next ih => exact fun b => ih b (hd b)
  | write bytes next => exact hd.elim

theorem listens_pure (a : α) : (pure a : Dialogue α).Listens P := by
  intro f h
  cases h

theorem listens_fail {e : Failure} (h : P e) : (fail e : Dialogue α).Listens P := by
  intro f hf
  cases hf
  exact h

theorem listens_byte : byte.Listens P := fun _ => listens_pure _

theorem listens_word : word.Listens P := fun _ => listens_pure _

theorem listens_block (n : Nat) : (block n).Listens P := fun _ => listens_pure _

/-- A dialogue that only listens says nothing. -/
theorem Listens.said_eq_nil {d d' : Dialogue α} {heard said : Bytes} (hd : d.Listens P)
    (h : d.Reaches heard said d') : said = [] := by
  induction h with
  | here => rfl
  | read b _ ih => exact ih (hd b)
  | write => exact hd.elim

/-- A dialogue that only listens comes to a result exactly when it reads it. -/
theorem Listens.reaches_ok_iff {d : Dialogue α} {heard said : Bytes} {a : α} (hd : d.Listens P) :
    d.Reaches heard said (finish (.ok a)) ↔ d.Reads heard a ∧ said = [] := by
  constructor
  · intro h
    obtain rfl := hd.said_eq_nil h
    exact ⟨h, rfl⟩
  · rintro ⟨h, rfl⟩
    exact h

theorem Listens.failure {d : Dialogue α} {heard said : Bytes} {f : Failure} (hd : d.Listens P)
    (h : d.Reaches heard said (finish (.error f))) : P f := by
  generalize hd' : finish (.error f) = d' at h
  induction h with
  | here =>
      subst hd'
      exact hd f rfl
  | read b _ ih => exact ih (hd b) hd'
  | write => exact hd.elim

/-- A dialogue that listens without failing, and another one after it. -/
theorem Listens.reaches_bind {d : Dialogue α} {f : α → Dialogue β} {heard said : Bytes}
    {d' : Dialogue β} (hd : d.Listens fun _ => False) (h : (d >>= f).Reaches heard said d') :
    (said = [] ∧ d'.failure? = none) ∨
      ∃ a h₁ h₂, heard = h₁ ++ h₂ ∧ d.Reaches h₁ [] (finish (.ok a)) ∧
        (f a).Reaches h₂ said d' := by
  rcases reaches_bind_iff.mp h with ⟨d₀, h₀, hno, rfl⟩ | ⟨a, h₁, s₁, h₂, s₂, rfl, rfl, h₁', h₂'⟩
  · refine .inl ⟨hd.said_eq_nil h₀, ?_⟩
    rw [failure?_bind hno, Option.eq_none_iff_forall_ne_some]
    intro f' hf'
    rw [failure?_eq_some_iff.mp hf'] at h₀
    exact hd.failure h₀
  · obtain rfl := hd.said_eq_nil h₁'
    exact .inr ⟨a, h₁, h₂, rfl, h₁', h₂'⟩

end listening

/-- A dialogue that a failed write ends with the failure to write, except for the last words: they
are about another failure, which is told whether or not they can be written. Failures without last
words are as told by `P`, and last words as told by `L`. -/
def Candid (P : Failure → Prop) (L : Failure → Bytes → Prop) : Dialogue α → Prop
  | finish r => ∀ f, r = .error f → P f
  | read _ _ next => ∀ b, (next b).Candid P L
  | write bytes next =>
    ((∀ e, next (.error e) = finish (.error (.transport e))) ∧ (next (.ok ())).Candid P L) ∨
      ∃ f, L f bytes ∧ ∀ r, next r = finish (.error f)

section candor

variable {P Q : Failure → Prop} {L : Failure → Bytes → Prop}

theorem Candid.bind {d : Dialogue α} {f : α → Dialogue β} (hd : d.Candid P L)
    (hf : ∀ a, (f a).Candid P L) : (d >>= f).Candid P L := by
  induction d with
  | finish r =>
      cases r with
      | ok a => exact hf a
      | error e =>
          intro f' h
          cases h
          exact hd _ rfl
  | read field n next ih => exact fun b => ih b (hd b)
  | write bytes next ih =>
      rcases hd with ⟨hfails, hnext⟩ | ⟨f', hL, hlast⟩
      · exact .inl ⟨fun e => by simp only [hfails e, andThen], ih _ hnext⟩
      · exact .inr ⟨f', hL, fun r => by simp only [hlast r, andThen]⟩

theorem Listens.candid {d : Dialogue α} (h : d.Listens P) : d.Candid P L := by
  induction d with
  | finish r => exact h
  | read field n next ih => exact fun b => ih b (h b)
  | write bytes next => exact h.elim

/-- To go on candidly with what an attempt brings, only failures that it can bring count. -/
theorem Listens.attempt_bind_candid {d : Dialogue α} {f : Except Failure α → Dialogue β}
    (h : d.Listens Q) (hok : ∀ a, (f (.ok a)).Candid P L)
    (herror : ∀ e, Q e → (f (.error e)).Candid P L) : (d.attempt >>= f).Candid P L := by
  induction d with
  | finish r =>
      cases r with
      | ok a => exact hok a
      | error e => exact herror e (h e rfl)
  | read field n next ih => exact fun b => ih b (h b)
  | write bytes next => exact h.elim

theorem candid_pure (a : α) : (pure a : Dialogue α).Candid P L := (listens_pure a).candid

theorem candid_fail {e : Failure} (h : P e) : (fail e : Dialogue α).Candid P L :=
  (listens_fail h).candid

theorem candid_say (bytes : Bytes) : (say bytes).Candid P L :=
  .inl ⟨fun _ => rfl, candid_pure ()⟩

/-- Last words. -/
theorem candid_trySay_fail {bytes : Bytes} {f : Failure} (h : L f bytes) :
    (trySay bytes >>= fun _ => (fail f : Dialogue α)).Candid P L := .inr ⟨f, h, fun _ => rfl⟩

end candor

/-! ### Attempts -/

/-- What a dialogue attempts is what it does. -/
theorem reaches_attempt_iff {d : Dialogue α} {heard said : Bytes}
    {d' : Dialogue (Except Failure α)} :
    d.attempt.Reaches heard said d' ↔ ∃ d₀, d.Reaches heard said d₀ ∧ d' = d₀.attempt := by
  constructor
  · induction d generalizing heard said with
    | finish r =>
        intro h
        obtain ⟨rfl, rfl, rfl⟩ := reaches_finish_iff.mp h
        exact ⟨finish r, .here _, rfl⟩
    | read field n next ih =>
        intro h
        cases h with
        | here => exact ⟨_, .here _, rfl⟩
        | read b h =>
            obtain ⟨d₀, h, e⟩ := ih b h
            exact ⟨d₀, .read b h, e⟩
    | write bytes next ih =>
        intro h
        cases h with
        | here => exact ⟨_, .here _, rfl⟩
        | write h =>
            obtain ⟨d₀, h, e⟩ := ih (.ok ()) h
            exact ⟨d₀, .write h, e⟩
  · rintro ⟨d₀, h, rfl⟩
    induction h with
    | here => exact .here _
    | read b _ ih => exact .read b ih
    | write _ ih => exact .write ih

/-- An attempt finishes with the result of what was attempted. -/
theorem reaches_attempt_ok_iff {d : Dialogue α} {heard said : Bytes} {r : Except Failure α} :
    d.attempt.Reaches heard said (finish (.ok r)) ↔ d.Reaches heard said (finish r) := by
  rw [reaches_attempt_iff]
  constructor
  · rintro ⟨d₀, h, e⟩
    cases d₀ with
    | finish r' =>
        cases e
        exact h
    | read | write => cases e
  · exact fun h => ⟨_, h, rfl⟩

end Dialogue

end Socks
