import Socks.Proofs.Dialogue.Resumption

/-!
# Readers that fail

`Dialogue.Fails` relates a reader to the bytes on which it fails, with what it leaves of them and
with the failure. It is the counterpart of `Dialogue.Reads`.

Main statements: of two readers in a row the first one fails, or it reads a first part of the bytes
and the second one fails on the rest (`Dialogue.fails_bind_iff`); a reader that listens fails
exactly where it does not succeed, without a word (`Dialogue.Listens.result_eq_error_iff`).
-/

namespace Socks

namespace Dialogue

variable {α β : Type} {input rest : Bytes} {f : Failure}

/-- Two dialogues in a row come to what the second makes of what the first leaves, unless the first
fails. -/
theorem eval_bind (d : Dialogue α) (g : α → Dialogue β) (input : Bytes) :
    (d >>= g).eval input =
      match (d.eval input).result with
      | .ok a =>
        let o := (g a).eval (d.eval input).rest
        ⟨o.result, o.rest, (d.eval input).said ++ o.said⟩
      | .error e => ⟨.error e, (d.eval input).rest, (d.eval input).said⟩ := by
  rw [bind_eq]
  induction d generalizing input with
  | finish r => cases r <;> rfl
  | read field n next ih =>
      simp only [andThen, eval]
      cases Block.take? n input with
      | none => rfl
      | some taken => exact ih taken.1 taken.2
  | write bytes next ih =>
      simp only [andThen, eval, ih (.ok ()) input]
      cases ((next (.ok ())).eval input).result with
      | ok a => simp only [List.append_assoc]
      | error e => rfl

/-- What is made of a result changes nothing else. -/
theorem eval_bind_pure (d : Dialogue α) (g : α → β) (input : Bytes) :
    (d >>= fun a => pure (g a)).eval input =
      ⟨(d.eval input).result.map g, (d.eval input).rest, (d.eval input).said⟩ := by
  rw [eval_bind]
  rcases d.eval input with ⟨result, rest, said⟩
  cases result with
  | ok a => simp only [pure_eq, eval, List.append_nil, Except.map]
  | error e => rfl

/-- `d.Fails input rest f`: on these bytes `d` fails with `f` without saying anything, and leaves
`rest` unread. -/
def Fails (d : Dialogue α) (input rest : Bytes) (f : Failure) : Prop :=
  d.eval input = ⟨.error f, rest, []⟩

theorem Reads.eval_eq {d : Dialogue α} {heard : Bytes} {a : α} (h : d.Reads heard a)
    (rest : Bytes) : d.eval (heard ++ rest) = ⟨.ok a, rest, []⟩ :=
  eval_eq_ok_iff.mpr ⟨heard, rfl, h⟩

/-- After a value is read, a dialogue comes to what the one that goes on from it makes of the
rest. -/
theorem Reads.eval_bind {d : Dialogue α} {heard : Bytes} {a : α} (h : d.Reads heard a)
    (g : α → Dialogue β) (rest : Bytes) : (d >>= g).eval (heard ++ rest) = (g a).eval rest := by
  rw [Dialogue.eval_bind, h.eval_eq rest]
  rfl

/-- After a value is read, a dialogue is where what goes on from it is. -/
theorem Reads.reaches_bind {d : Dialogue α} {heard heard' said : Bytes} {a : α}
    {g : α → Dialogue β} {d' : Dialogue β} (h : d.Reads heard a)
    (hg : (g a).Reaches heard' said d') : (d >>= g).Reaches (heard ++ heard') said d' :=
  reaches_bind_iff.mpr (.inr ⟨a, heard, [], heard', said, rfl, rfl, h, hg⟩)

/-- A dialogue that begins with a reader which fails comes to this failure. -/
theorem Fails.bind {d : Dialogue α} (h : d.Fails input rest f) (g : α → Dialogue β) :
    (d >>= g).Fails input rest f := by
  rw [Fails, Dialogue.eval_bind, h]

/-- Something is said before a dialogue goes on. -/
theorem eval_say_bind (bytes : Bytes) (g : Unit → Dialogue β) (input : Bytes) :
    (say bytes >>= g).eval input =
      ⟨((g ()).eval input).result, ((g ()).eval input).rest, bytes ++ ((g ()).eval input).said⟩ :=
  rfl

/-- Of two readers in a row the first one fails, or it reads a first part of the bytes and the
second one fails on the rest. -/
theorem fails_bind_iff {d : Dialogue α} {g : α → Dialogue β} :
    (d >>= g).Fails input rest f ↔
      d.Fails input rest f ∨
        ∃ a heard left, input = heard ++ left ∧ d.Reads heard a ∧ (g a).Fails left rest f := by
  unfold Fails
  constructor
  · intro h
    rw [eval_bind] at h
    rcases hd : d.eval input with ⟨result, left, said⟩
    rw [hd] at h
    cases result with
    | error e =>
        have hd' : (⟨.error e, left, said⟩ : Outcome β) = ⟨.error f, rest, []⟩ := h
        simp only [Outcome.mk.injEq, Except.error.injEq] at hd'
        obtain ⟨rfl, rfl, rfl⟩ := hd'
        exact .inl rfl
    | ok a =>
        simp only [Outcome.mk.injEq, List.append_eq_nil_iff] at h
        obtain ⟨hresult, hrest, hsaid, hsaid'⟩ := h
        subst hsaid
        obtain ⟨heard, he, hreads⟩ := eval_eq_ok_iff.mp hd
        have hg : (g a).eval left = ⟨.error f, rest, []⟩ := by
          rw [← hresult, ← hrest, ← hsaid']
        exact .inr ⟨a, heard, left, he, hreads, hg⟩
  · rintro (h | ⟨a, heard, left, rfl, hd, hg⟩)
    · rw [eval_bind, h]
    · rw [eval_bind, hd.eval_eq left]
      simp only [hg, List.nil_append]

/-- A reader that goes on after a block fails where the block is cut short, or after it. -/
theorem fails_read_iff {field : Field} {n : Nat} {next : Block n → Dialogue α} :
    (read field n next).Fails input rest f ↔
      (input.length < n ∧ rest = [] ∧ f = .transport field.endOfInput) ∨
        ∃ b left, input = b.bytes ++ left ∧ (next b).Fails left rest f := by
  unfold Fails
  simp only [eval]
  constructor
  · intro h
    cases htake : Block.take? n input with
    | none =>
        rw [htake] at h
        cases h
        exact .inl ⟨Block.take?_eq_none_iff.mp htake, rfl, rfl⟩
    | some taken =>
        rw [htake] at h
        exact .inr ⟨taken.1, taken.2, Block.take?_eq_some_iff.mp htake, h⟩
  · rintro (⟨hlt, rfl, rfl⟩ | ⟨b, left, rfl, h⟩)
    · rw [Block.take?_eq_none_iff.mpr hlt]
    · rw [Block.take?_append]
      exact h

theorem not_fails_pure {a : α} : ¬(pure a : Dialogue α).Fails input rest f := by
  intro h
  cases h

theorem fails_fail_iff {e : Failure} :
    (fail e : Dialogue α).Fails input rest f ↔ rest = input ∧ f = e := by
  constructor
  · intro h
    cases h
    exact ⟨rfl, rfl⟩
  · rintro ⟨rfl, rfl⟩
    rfl

theorem fails_byte_iff :
    byte.Fails input rest f ↔ input = [] ∧ rest = [] ∧ f = .transport .endOfNumber := by
  unfold byte
  simp only [fails_read_iff, not_fails_pure, and_false, exists_false, or_false, Nat.lt_one_iff,
    List.length_eq_zero_iff]
  rfl

theorem fails_word_iff :
    word.Fails input rest f ↔
      input.length < 2 ∧ rest = [] ∧ f = .transport .endOfNumber := by
  unfold word
  simp only [fails_read_iff, not_fails_pure, and_false, exists_false, or_false]
  rfl

theorem fails_block_iff {n : Nat} :
    (block n).Fails input rest f ↔ input.length < n ∧ rest = [] ∧ f = .transport .endOfBlock := by
  unfold block
  simp only [fails_read_iff, not_fails_pure, and_false, exists_false, or_false]
  rfl

section listening

variable {P : Failure → Prop} {d : Dialogue α}

/-- A dialogue that only listens has said nothing, whatever it comes to. -/
theorem Listens.said_eval (hd : d.Listens P) (input : Bytes) : (d.eval input).said = [] := by
  obtain ⟨heard, got, d', -, hr, -⟩ := reaches_of_advance d input
  rw [eval_eq_advance]
  exact hd.said_eq_nil hr

theorem Listens.result_eq_error_iff (hd : d.Listens P) :
    (d.eval input).result = .error f ↔ ∃ rest, d.Fails input rest f := by
  have hsaid := hd.said_eval input
  constructor
  · intro h
    refine ⟨(d.eval input).rest, ?_⟩
    rw [Fails, ← h, ← hsaid]
  · rintro ⟨rest, h⟩
    rw [h]

theorem Listens.eval_eq_error_iff {said : Bytes} (hd : d.Listens P) :
    d.eval input = ⟨.error f, rest, said⟩ ↔ said = [] ∧ d.Fails input rest f := by
  have hsaid := hd.said_eval input
  constructor
  · intro h
    rw [h] at hsaid
    obtain rfl : said = [] := hsaid
    exact ⟨rfl, h⟩
  · rintro ⟨rfl, h⟩
    exact h

/-- A reader after which nothing can fail fails where it fails itself. -/
theorem fails_bind_pure_iff {g : α → β} :
    (d >>= fun a => pure (g a)).Fails input rest f ↔ d.Fails input rest f := by
  rw [fails_bind_iff]
  refine or_iff_left ?_
  rintro ⟨a, heard, left, -, -, h⟩
  exact not_fails_pure h

end listening

end Dialogue

end Socks
