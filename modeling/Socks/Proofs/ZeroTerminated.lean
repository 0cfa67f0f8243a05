import Socks.Proofs.Dialogue.Failing
import Socks.Proofs.Handshake

/-!
# Texts that a zero octet ends

A text of a SOCKS4 request goes up to a zero octet. Its reader takes one octet after the other into
a buffer, up to the first zero octet; it gives up on an octet for which the buffer has no room, and
on octets that end too early.

`Request.collect` is the reader with octets in its buffer. `Dialogue.readsOn` counts the reads of a
dialogue.

Main statement: what the reader comes to on any octets, what it leaves of them, how often it reads
and what it keeps while it reads (`Request.readText_bounded`).
-/

namespace Socks

open Dialogue

/-! ### The first zero octet -/

/-- The first zero octet stands where the octets before it, which are others, end. -/
theorem idxOf?_zero_eq_some_iff {input : Bytes} {k : Nat} :
    input.idxOf? 0 = some k ↔
      ∃ bytes rest : Bytes, 0 ∉ bytes ∧ bytes.length = k ∧ input = bytes ++ 0 :: rest := by
  rw [List.idxOf?_eq_some_iff]
  constructor
  · rintro ⟨hk, hzero, hbefore⟩
    refine ⟨input.take k, input.drop (k + 1), ?_, ?_, ?_⟩
    · intro hmem
      obtain ⟨j, hj, he⟩ := List.mem_take_iff_getElem.mp hmem
      exact hbefore j (by omega) he
    · rw [List.length_take]
      omega
    · rw [← hzero, List.getElem_cons_drop, List.take_append_drop]
  · rintro ⟨bytes, rest, hfree, rfl, rfl⟩
    refine ⟨by simp, by simp, fun j hj he => hfree ?_⟩
    rw [List.getElem_append_left hj] at he
    rw [← he]
    exact List.getElem_mem hj

theorem not_mem_cons_iff {b : UInt8} {bytes : Bytes} : 0 ∉ b :: bytes ↔ b ≠ 0 ∧ 0 ∉ bytes := by
  simp [eq_comm]

/-- What holds of the octets before the first zero octet and of those after it. -/
theorem exists_idxOf?_zero_iff {input rest : Bytes} {P : Nat → Bytes → Prop} :
    (∃ k, input.idxOf? 0 = some k ∧ P k (input.take k) ∧ rest = input.drop (k + 1)) ↔
      ∃ bytes : Bytes, 0 ∉ bytes ∧ P bytes.length bytes ∧ input = bytes ++ 0 :: rest := by
  constructor
  · rintro ⟨k, hk, hP, rfl⟩
    obtain ⟨bytes, rest, hfree, rfl, rfl⟩ := idxOf?_zero_eq_some_iff.mp hk
    refine ⟨bytes, hfree, ?_, ?_⟩
    · simpa using hP
    · simp
  · rintro ⟨bytes, hfree, hP, rfl⟩
    refine ⟨bytes.length, idxOf?_zero_eq_some_iff.mpr ⟨bytes, rest, hfree, rfl, rfl⟩, ?_, ?_⟩
    · simpa using hP
    · simp

/-! ### How often a dialogue reads -/

namespace Dialogue

variable {α β : Type}

/-- How often a dialogue reads on octets after which nothing comes; a read that finds too little
counts. -/
def readsOn : Dialogue α → Bytes → Nat
  | finish _, _ => 0
  | read _ n next, input =>
    match Block.take? n input with
    | some (b, rest) => (next b).readsOn rest + 1
    | none => 1
  | write _ next, input => (next (.ok ())).readsOn input

theorem readsOn_byte_bind_cons (f : UInt8 → Dialogue β) (b : UInt8) (input : Bytes) :
    (byte >>= f).readsOn (b :: input) = (f b).readsOn input + 1 := rfl

theorem pure_andThen (a : α) (g : α → Dialogue β) : (pure a : Dialogue α) >>= g = g a := rfl

/-- Of three dialogues in a row, the first two or the last two can be seen as one. -/
theorem andThen_assoc {γ : Type} (d : Dialogue α) (g : α → Dialogue β) (h : β → Dialogue γ) :
    (d >>= g) >>= h = d >>= fun a => g a >>= h := by
  simp only [bind_eq]
  induction d with
  | finish r => cases r <;> rfl
  | read field n next ih => simp only [andThen, ih]
  | write bytes next ih => simp only [andThen, ih]

/-- A dialogue that begins with an octet waits for it or goes on from it. -/
theorem reaches_byte_bind_iff {g : UInt8 → Dialogue β} {heard said : Bytes} {d' : Dialogue β} :
    (byte >>= g).Reaches heard said d' ↔
      (heard = [] ∧ said = [] ∧ d' = byte >>= g) ∨
        ∃ b more, heard = b :: more ∧ (g b).Reaches more said d' := by
  show (read .number 1 fun b => g b.octet).Reaches heard said d' ↔ _
  rw [reaches_read_iff]
  refine or_congr Iff.rfl ?_
  constructor
  · rintro ⟨b, more, rfl, h⟩
    exact ⟨b.octet, more, by rw [Block.bytes_eq_octet, List.singleton_append], h⟩
  · rintro ⟨b, more, rfl, h⟩
    exact ⟨Block.single b, more, rfl, h⟩

theorem fails_byte_bind_nil_iff {g : UInt8 → Dialogue β} {rest : Bytes} {f : Failure} :
    (byte >>= g).Fails [] rest f ↔ rest = [] ∧ f = .transport .endOfNumber := by
  rw [fails_bind_iff, fails_byte_iff]
  simp [reads_byte_iff]

theorem fails_byte_bind_cons_iff {g : UInt8 → Dialogue β} {b : UInt8} {input rest : Bytes}
    {f : Failure} : (byte >>= g).Fails (b :: input) rest f ↔ (g b).Fails input rest f := by
  rw [Fails, Fails, ← (reads_byte b).eval_bind g input, List.singleton_append]

end Dialogue

namespace Request

variable {field : String} {room : Nat} {input rest bytes : Bytes} {f : Failure}

/-! ### Where the reader fails -/

/-- The text that octets are, or the failure to be one. -/
def decodeText (field : String) (bytes : Bytes) : Dialogue String :=
  match Text.ofBytes? bytes with
  | some text => pure text
  | none => reject (.malformedField field)

theorem fails_decodeText_iff :
    (decodeText field bytes).Fails input rest f ↔
      (∀ text, bytes ≠ Text.toBytes text) ∧ rest = input ∧
        f = .protocol (.malformedField field) := by
  unfold decodeText
  split
  · rename_i text ht
    simpa [not_fails_pure] using fun h => absurd (Text.ofBytes?_eq_some_iff.mp ht) (h text)
  · rename_i hnone
    have hno : ∀ text, bytes ≠ Text.toBytes text := by
      intro text ht
      rw [Text.ofBytes?_eq_some_iff.mpr ht] at hnone
      cases hnone
    simp [reject, fails_fail_iff, hno]

/-- Without octets the reader fails, whatever room it has. -/
theorem fails_readUntilZero_nil_iff :
    (readUntilZero field room).Fails [] rest f ↔ rest = [] ∧ f = .transport .endOfNumber := by
  cases room <;> exact fails_byte_bind_nil_iff

/-- An octet other than zero takes room, if there is any. -/
theorem fails_readUntilZero_cons_iff {b : UInt8} :
    (readUntilZero field room).Fails (b :: input) rest f ↔
      b ≠ 0 ∧ match room with
        | 0 => rest = input ∧ f = .protocol (.fieldTooLong field)
        | room + 1 => (readUntilZero field room).Fails input rest f := by
  cases room with
  | zero =>
      unfold readUntilZero
      rw [fails_byte_bind_cons_iff]
      by_cases hb : b = 0
      · simp [hb, not_fails_pure]
      · simp [hb, reject, fails_fail_iff]
  | succ room =>
      rw [readUntilZero, fails_byte_bind_cons_iff]
      by_cases hb : b = 0
      · simp [hb, not_fails_pure]
      · simp [hb, fails_bind_pure_iff]

/-- The reader fails where the octets end and leave room, or on the first octet that is too many, if
none of them is zero. -/
theorem fails_readUntilZero_iff :
    (readUntilZero field room).Fails input rest f ↔
      (0 ∉ input ∧ input.length ≤ room ∧ rest = [] ∧ f = .transport .endOfNumber) ∨
      ∃ bytes : Bytes, 0 ∉ bytes ∧ bytes.length = room + 1 ∧ input = bytes ++ rest ∧
        f = .protocol (.fieldTooLong field) := by
  induction input generalizing room with
  | nil =>
      rw [fails_readUntilZero_nil_iff]
      simp
  | cons b input ih =>
      rw [fails_readUntilZero_cons_iff]
      constructor
      · rintro ⟨hb, h⟩
        cases room with
        | zero =>
            obtain ⟨rfl, rfl⟩ := h
            exact .inr ⟨[b], by simpa using fun h => hb h.symm, rfl, rfl, rfl⟩
        | succ room =>
            rcases ih.mp h with ⟨hfree, hlen, rfl, rfl⟩ | ⟨bytes, hfree, hlen, rfl, rfl⟩
            · exact .inl ⟨not_mem_cons_iff.mpr ⟨hb, hfree⟩, Nat.succ_le_succ hlen, rfl, rfl⟩
            · exact .inr ⟨b :: bytes, not_mem_cons_iff.mpr ⟨hb, hfree⟩, congrArg (· + 1) hlen, rfl,
                rfl⟩
      · rintro (⟨hfree, hlen, rfl, rfl⟩ | ⟨bytes, hfree, hlen, he, rfl⟩)
        · obtain ⟨hb, hfree⟩ := not_mem_cons_iff.mp hfree
          cases room with
          | zero => cases hlen
          | succ room => exact ⟨hb, ih.mpr (.inl ⟨hfree, Nat.le_of_succ_le_succ hlen, rfl, rfl⟩)⟩
        · cases bytes with
          | nil => cases hlen
          | cons c bytes =>
              obtain ⟨rfl, rfl⟩ := List.cons.inj he
              obtain ⟨hb, hfree⟩ := not_mem_cons_iff.mp hfree
              refine ⟨hb, ?_⟩
              cases room with
              | zero =>
                  obtain rfl : bytes = [] := by simpa using hlen
                  exact ⟨rfl, rfl⟩
              | succ room =>
                  exact ih.mpr (.inr ⟨bytes, hfree, Nat.succ.inj hlen, rfl, rfl⟩)

/-- The reader of a text fails where too few octets or too many come without a zero octet, or after
the first zero octet, if the octets before it are no text. -/
theorem fails_readText_iff :
    (readText field).Fails input rest f ↔
      (0 ∉ input ∧ input.length ≤ 255 ∧ rest = [] ∧ f = .transport .endOfNumber) ∨
      (∃ bytes : Bytes, 0 ∉ bytes ∧ bytes.length = 256 ∧ input = bytes ++ rest ∧
        f = .protocol (.fieldTooLong field)) ∨
      ∃ bytes : Bytes, 0 ∉ bytes ∧ (bytes.length ≤ 255 ∧ ∀ text, bytes ≠ Text.toBytes text) ∧
        input = bytes ++ 0 :: rest ∧ f = .protocol (.malformedField field) := by
  show (readUntilZero field maxFieldLength >>= decodeText field).Fails input rest f ↔ _
  rw [fails_bind_iff, fails_readUntilZero_iff, or_assoc]
  refine or_congr Iff.rfl (or_congr Iff.rfl ?_)
  constructor
  · rintro ⟨bytes, _, left, rfl, hreads, h⟩
    obtain ⟨rfl, hfree, hlen⟩ := reads_readUntilZero_iff.mp hreads
    obtain ⟨hno, rfl, rfl⟩ := fails_decodeText_iff.mp h
    exact ⟨bytes, hfree, ⟨hlen, hno⟩, by simp, rfl⟩
  · rintro ⟨bytes, hfree, ⟨hlen, hno⟩, rfl, rfl⟩
    exact ⟨bytes, bytes ++ [0], rest, by simp, reads_readUntilZero_iff.mpr ⟨rfl, hfree, hlen⟩,
      fails_decodeText_iff.mpr ⟨hno, rfl, rfl⟩⟩

/-! ### The buffer -/

/-- The reader with octets in its buffer and with room for so many more: a zero octet ends the text,
any other goes into the buffer, if there is room. -/
def collect (field : String) : Nat → Bytes → Dialogue String
  | 0, buffer => do
    let b ← byte
    if b = 0 then decodeText field buffer else reject (.fieldTooLong field)
  | room + 1, buffer => do
    let b ← byte
    if b = 0 then decodeText field buffer else collect field room (buffer ++ [b])

theorem collect_eq (buffer : Bytes) :
    collect field room buffer =
      readUntilZero field room >>= fun more => decodeText field (buffer ++ more) := by
  induction room generalizing buffer with
  | zero =>
      unfold collect readUntilZero
      rw [andThen_assoc]
      congr 1
      funext b
      split_ifs
      · rw [pure_andThen, List.append_nil]
      · rfl
  | succ room ih =>
      rw [collect, readUntilZero, andThen_assoc]
      congr 1
      funext b
      split_ifs
      · rw [pure_andThen, List.append_nil]
      · rw [ih, andThen_assoc]
        simp only [pure_andThen, List.append_assoc, List.singleton_append]

/-- The reader begins with an empty buffer. -/
theorem readText_eq_collect (field : String) : readText field = collect field 255 [] :=
  (collect_eq []).symm

/-- Where octets have been judged nothing is left to do. -/
theorem finished_decodeText {heard said : Bytes} {d' : Dialogue String}
    (h : (decodeText field bytes).Reaches heard said d') : ∃ r, d' = finish r := by
  unfold decodeText at h
  split at h <;> exact ⟨_, (reaches_finish_iff.mp h).2.2⟩

/-- The reader has finished, or all that it has heard is in its buffer. -/
theorem reaches_collect {buffer heard said : Bytes} {d' : Dialogue String}
    (h : (collect field room buffer).Reaches heard said d') :
    (∃ r, d' = finish r) ∨
      0 ∉ heard ∧ heard.length ≤ room ∧
        d' = collect field (room - heard.length) (buffer ++ heard) := by
  induction room generalizing buffer heard with
  | zero =>
      rcases reaches_byte_bind_iff.mp h with ⟨rfl, -, rfl⟩ | ⟨b, more, rfl, hmore⟩
      · exact .inr ⟨by simp, Nat.le_refl _, by simp [collect]⟩
      · split_ifs at hmore
        · exact .inl (finished_decodeText hmore)
        · exact .inl ⟨_, (reaches_finish_iff.mp hmore).2.2⟩
  | succ room ih =>
      rcases reaches_byte_bind_iff.mp h with ⟨rfl, -, rfl⟩ | ⟨b, more, rfl, hmore⟩
      · exact .inr ⟨by simp, Nat.zero_le _, by simp [collect]⟩
      · split_ifs at hmore with hb
        · exact .inl (finished_decodeText hmore)
        · rcases ih hmore with hfinished | ⟨hfree, hlen, rfl⟩
          · exact .inl hfinished
          · refine .inr ⟨not_mem_cons_iff.mpr ⟨hb, hfree⟩, Nat.succ_le_succ hlen, ?_⟩
            simp

/-! ### How often the reader reads -/

theorem readsOn_decodeText (bytes input : Bytes) : (decodeText field bytes).readsOn input = 0 := by
  unfold decodeText
  split <;> rfl

/-- The reader reads each octet before the first zero octet, and that one, as far as it has room. -/
theorem readsOn_collect (buffer input : Bytes) :
    (collect field room buffer).readsOn input = min (input.idxOf 0) room + 1 := by
  induction room generalizing buffer input with
  | zero =>
      unfold collect
      cases input with
      | nil => rfl
      | cons b input =>
          rw [readsOn_byte_bind_cons]
          split_ifs
          · simp [readsOn_decodeText]
          · simp
            rfl
  | succ room ih =>
      rw [collect]
      cases input with
      | nil => rfl
      | cons b input =>
          rw [readsOn_byte_bind_cons]
          split_ifs with hb
          · simp [readsOn_decodeText, hb]
          · rw [ih, List.idxOf_cons_ne _ hb]
            omega

/-! ### What the reader comes to -/

section outcomes

variable {said : Bytes}

/-- The reader only listens. -/
theorem listens_text (field : String) : (readText field).Listens fun _ => True :=
  listens_readText (fun _ => trivial) field

/-- The first of so many octets, and those after them. -/
theorem exists_append_iff {n : Nat} :
    (∃ bytes : Bytes, 0 ∉ bytes ∧ bytes.length = n ∧ input = bytes ++ rest) ↔
      (n ≤ input.length ∧ 0 ∉ input.take n) ∧ rest = input.drop n := by
  constructor
  · rintro ⟨bytes, hfree, rfl, rfl⟩
    simpa using hfree
  · rintro ⟨⟨hlen, hfree⟩, rfl⟩
    exact ⟨input.take n, hfree, List.length_take_of_le hlen, (List.take_append_drop n input).symm⟩

theorem eval_readText_eq_ok_iff {text : String} :
    (readText field).eval input = ⟨.ok text, rest, said⟩ ↔
      said = [] ∧ ∃ k, input.idxOf? 0 = some k ∧ (k ≤ 255 ∧ input.take k = Text.toBytes text) ∧
        rest = input.drop (k + 1) := by
  rw [(listens_text field).eval_eq_ok_iff,
    exists_idxOf?_zero_iff (P := fun k bytes => k ≤ 255 ∧ bytes = Text.toBytes text)]
  refine and_congr Iff.rfl ?_
  constructor
  · rintro ⟨_, rfl, h⟩
    obtain ⟨⟨hfree, hlen⟩, rfl⟩ := reads_readText_iff.mp h
    exact ⟨Text.toBytes text, hfree, ⟨hlen, rfl⟩, by simp [terminated]⟩
  · rintro ⟨_, hfree, ⟨hlen, rfl⟩, rfl⟩
    exact ⟨terminated text, by simp [terminated], reads_readText_iff.mpr ⟨⟨hfree, hlen⟩, rfl⟩⟩

theorem eval_readText_eq_malformed_iff :
    (readText field).eval input = ⟨.error (.protocol (.malformedField field)), rest, said⟩ ↔
      said = [] ∧ ∃ k, input.idxOf? 0 = some k ∧
        (k ≤ 255 ∧ ∀ text, input.take k ≠ Text.toBytes text) ∧ rest = input.drop (k + 1) := by
  rw [(listens_text field).eval_eq_error_iff, fails_readText_iff,
    exists_idxOf?_zero_iff (P := fun k bytes => k ≤ 255 ∧ ∀ text, bytes ≠ Text.toBytes text)]
  simp

theorem eval_readText_eq_tooLong_iff :
    (readText field).eval input = ⟨.error (.protocol (.fieldTooLong field)), rest, said⟩ ↔
      said = [] ∧ (256 ≤ input.length ∧ 0 ∉ input.take 256) ∧ rest = input.drop 256 := by
  rw [(listens_text field).eval_eq_error_iff, fails_readText_iff, ← exists_append_iff]
  simp

theorem eval_readText_eq_transport_iff {e : IoError} :
    (readText field).eval input = ⟨.error (.transport e), rest, said⟩ ↔
      said = [] ∧ (input.length ≤ 255 ∧ 0 ∉ input) ∧ rest = [] ∧ e = .endOfNumber := by
  rw [(listens_text field).eval_eq_error_iff, fails_readText_iff]
  simp only [Failure.transport.injEq, reduceCtorEq, and_false, exists_false, or_false]
  tauto

end outcomes

theorem stray_ne_toBytes (text : String) : List.replicate 255 0xFF ≠ Text.toBytes text := by
  intro h
  have hnone : Text.ofBytes? (List.replicate 255 0xFF) = none := by decide +kernel
  rw [Text.ofBytes?_eq_some_iff.mpr h] at hnone
  cases hnone

/-- A text up to a zero octet. The reader comes to a text exactly when the first zero octet is one
of the first 256 and the octets before it are those of the text; it finds them malformed exactly
when they are those of no text. It finds a text too long exactly when the first 256 octets are there
and none of them is zero, and the octets ended exactly when they are fewer and none is zero. What it
leaves are the octets after the zero octet, those after the first 256, or none; so the two faults
can both come after 256 octets, and are told apart by what they say. There is nothing else that it
comes to, and all this does not depend on the pieces in which the octets come. It reads at most 256
times, and while it reads it keeps what it has heard, at most 255 octets. -/
theorem readText_bounded (field : String) (input : Bytes) :
    let o := (readText field).eval input
    (∀ text rest said, o = ⟨.ok text, rest, said⟩ ↔ said = [] ∧
      ∃ k, input.idxOf? 0 = some k ∧ (k ≤ 255 ∧ input.take k = Text.toBytes text) ∧
        rest = input.drop (k + 1)) ∧
    (∀ rest said, o = ⟨.error (.protocol (.malformedField field)), rest, said⟩ ↔ said = [] ∧
      ∃ k, input.idxOf? 0 = some k ∧ (k ≤ 255 ∧ ∀ text, input.take k ≠ Text.toBytes text) ∧
        rest = input.drop (k + 1)) ∧
    (∀ rest said, o = ⟨.error (.protocol (.fieldTooLong field)), rest, said⟩ ↔ said = [] ∧
      (256 ≤ input.length ∧ 0 ∉ input.take 256) ∧ rest = input.drop 256) ∧
    (∀ e rest said, o = ⟨.error (.transport e), rest, said⟩ ↔ said = [] ∧
      (input.length ≤ 255 ∧ 0 ∉ input) ∧ rest = [] ∧ e = .endOfNumber) ∧
    IoError.endOfNumber.kind = .unexpectedEof ∧
    (∀ f, o.result = .error f → f = .protocol (.malformedField field) ∨
      f = .protocol (.fieldTooLong field) ∨ ∃ e, f = .transport e) ∧
    (readText field).readsOn input = min (input.idxOf 0) 255 + 1 ∧
    (∀ heard said d', (readText field).Reaches heard said d' → (∃ r, d' = finish r) ∨
      0 ∉ heard ∧ heard.length ≤ 255 ∧ d' = collect field (255 - heard.length) heard) ∧
    ∀ v : Delivery, v.bytes = input →
      ((readText field).deliver v none .ended).1 = .finished o.result ∧
      ((readText field).deliver v none .ended).2.incoming = o.rest ∧
      ((readText field).deliver v none .ended).2.written = o.said := by
  intro o
  refine ⟨fun text rest said => eval_readText_eq_ok_iff,
    fun rest said => eval_readText_eq_malformed_iff,
    fun rest said => eval_readText_eq_tooLong_iff,
    fun e rest said => eval_readText_eq_transport_iff, rfl, fun f hf => ?_, ?_,
    fun heard said d' h => ?_, ?_⟩
  · obtain ⟨rest, h⟩ := (listens_text field).result_eq_error_iff.mp hf
    rcases fails_readText_iff.mp h with ⟨-, -, -, rfl⟩ | ⟨_, -, -, -, rfl⟩ | ⟨_, -, -, -, rfl⟩
    · exact .inr (.inr ⟨_, rfl⟩)
    · exact .inr (.inl rfl)
    · exact .inl rfl
  · rw [readText_eq_collect, readsOn_collect]
  · rw [readText_eq_collect] at h
    exact reaches_collect h
  · rintro v rfl
    exact (readText field).deliver_ended v

/-- Of 256 octets the last one decides: zero after octets that are no text, it is left behind; any
other is one too many. -/
theorem readText_bounded_last_octet :
    let stray := List.replicate 255 0xFF
    let name := List.replicate 255 97
    (readText "user-id").eval (stray ++ [0, 9]) =
        ⟨.error (.protocol (.malformedField "user-id")), [9], []⟩ ∧
      (readText "user-id").eval (stray ++ [97, 9]) =
        ⟨.error (.protocol (.fieldTooLong "user-id")), [9], []⟩ ∧
      (readText "user-id").readsOn (stray ++ [0, 9]) = 256 ∧
      (readText "user-id").eval (name ++ [0, 9]) =
        ⟨.ok (String.ofList (List.replicate 255 'a')), [9], []⟩ ∧
      (readText "user-id").eval name = ⟨.error (.transport .endOfNumber), [], []⟩ := by
  intro stray name
  obtain ⟨-, hmalformed, -, -, -, -, hreads, -⟩ := readText_bounded "user-id" (stray ++ [0, 9])
  obtain ⟨-, -, hlong, -⟩ := readText_bounded "user-id" (stray ++ [97, 9])
  obtain ⟨hok, -⟩ := readText_bounded "user-id" (name ++ [0, 9])
  obtain ⟨-, -, -, hshort, -⟩ := readText_bounded "user-id" name
  have htake : (stray ++ [0, 9]).take 255 = stray := List.take_left' List.length_replicate
  refine ⟨(hmalformed _ _).mpr ⟨rfl, 255, by decide +kernel,
      ⟨Nat.le_refl _, fun text => by rw [htake]; exact stray_ne_toBytes text⟩, by decide +kernel⟩,
    (hlong _ _).mpr ⟨rfl, by decide +kernel, by decide +kernel⟩, ?_,
    (hok _ _ _).mpr ⟨rfl, 255, by decide +kernel, by decide +kernel, by decide +kernel⟩,
    (hshort _ _ _).mpr ⟨rfl, by decide +kernel, rfl, rfl⟩⟩
  rw [hreads]
  decide +kernel

/-- A fault after exactly 256 octets does not tell that none of them was zero: a zero octet may come
after 255 octets that are no text. -/
theorem fault_after_256_although_terminated :
    let input : Bytes := List.replicate 255 0xFF ++ [0]
    let o := (readText "user-id").eval input
    ¬((∃ fault, o.result = .error (.protocol fault) ∧ input.length = 256 + o.rest.length) ↔
      256 ≤ input.length ∧ 0 ∉ input.take 256) := by
  intro input o h
  have htake : input.take 255 = List.replicate 255 0xFF := List.take_left' List.length_replicate
  have ho : o = ⟨.error (.protocol (.malformedField "user-id")), [], []⟩ :=
    eval_readText_eq_malformed_iff.mpr ⟨rfl, 255, by decide +kernel,
      ⟨Nat.le_refl _, fun text => by rw [htake]; exact stray_ne_toBytes text⟩, by decide +kernel⟩
  have hfree := (h.mp ⟨_, by rw [ho], by rw [ho]; decide +kernel⟩).2
  exact hfree (by decide +kernel)

end Request

end Socks
