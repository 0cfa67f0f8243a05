import Socks.Proofs.Dialogue.Advance

/-!
# Dialogues that are resumed

A stream brings its bytes piece by piece and chunk by chunk, and takes what is written chunk by
chunk. None of this moves a dialogue: it goes as far on two pieces, one after the other, as on both
at once (`Dialogue.resume_followed`), and as far with chunks of one size as with those of another
(`Dialogue.resume_rechunked`). Both hold on streams that fail as well.

Main statements: what a dialogue comes to on bytes that are delivered in any way is what it comes to
on all of them at once (`Dialogue.deliver_eq`), and where they end it is what the dialogue means
(`Dialogue.eval_eq_advance`).
-/

namespace Socks

namespace Stream

/-- What a stream takes depends on its fault alone and on what has been written on it. -/
theorem writeAll_alike {s t : Stream} (hw : t.written = s.written) (hf : t.fault? = s.fault?)
    (bytes : Bytes) :
    ∃ r part, s.writeAll bytes = (r, s.wrote part) ∧ t.writeAll bytes = (r, t.wrote part) := by
  by_cases ht : s.Takes bytes.length
  · have ht' : t.Takes bytes.length := by simpa only [Takes, hw, hf] using ht
    exact ⟨.ok (), bytes, writeAll_of_takes ht, writeAll_of_takes ht'⟩
  · have ht' : ¬t.Takes bytes.length := by simpa only [Takes, hw, hf] using ht
    obtain ⟨fault, hs, -, h⟩ := writeAll_of_not_takes ht
    obtain ⟨fault', hs', -, h'⟩ := writeAll_of_not_takes ht'
    obtain rfl : fault = fault' := Option.some.inj ((hs.symm.trans hf.symm).trans hs')
    exact ⟨_, _, h, by rw [h', hw]⟩

/-! ### Other chunks -/

/-- The stream with chunks of other sizes. -/
def rechunked (s : Stream) (readChunk? writeChunk? : Option Chunk) : Stream :=
  { s with readChunk? := readChunk?, writeChunk? := writeChunk? }

section chunks

variable (readChunk? writeChunk? : Option Chunk)

theorem gather_rechunked (s : Stream) (n : Nat) :
    (s.rechunked readChunk? writeChunk?).gather n =
      ((s.gather n).1, (s.gather n).2.rechunked readChunk? writeChunk?) := by
  have hlen : (s.rechunked readChunk? writeChunk?).incoming.length = s.incoming.length := rfl
  have hend : (s.rechunked readChunk? writeChunk?).ending = s.ending := rfl
  by_cases hn : s.incoming.length < n
  · cases he : s.ending with
    | awaited =>
        obtain ⟨fits, h⟩ := gather_partly hn he
        obtain ⟨fits', h'⟩ := gather_partly (hlen.symm ▸ hn) (hend.trans he)
        rw [h, h']
        rfl
    | ended =>
        rw [gather_ended hn he, gather_ended (hlen.symm ▸ hn) (hend.trans he)]
        rfl
    | broken e =>
        rw [gather_broken hn he, gather_broken (hlen.symm ▸ hn) (hend.trans he)]
        rfl
  · obtain ⟨hb, h⟩ := gather_full (Nat.not_lt.mp hn)
    obtain ⟨hb', h'⟩ := gather_full (hlen.symm ▸ Nat.not_lt.mp hn)
    rw [h, h']
    rfl

theorem writeAll_rechunked (s : Stream) (bytes : Bytes) :
    (s.rechunked readChunk? writeChunk?).writeAll bytes =
      ((s.writeAll bytes).1, (s.writeAll bytes).2.rechunked readChunk? writeChunk?) := by
  obtain ⟨r, part, h, h'⟩ :=
    writeAll_alike (s := s) (t := s.rechunked readChunk? writeChunk?) rfl rfl bytes
  rw [h, h']
  rfl

end chunks

/-! ### More bytes -/

/-- The stream after more bytes have come, when it is known what follows them. -/
def followed (s : Stream) (more : Bytes) (ending : Ending) : Stream :=
  { s with incoming := s.incoming ++ more, ending := ending }

theorem followed_followed (s : Stream) (a b : Bytes) (e e' : Ending) :
    (s.followed a e).followed b e' = s.followed (a ++ b) e' := by
  simp [followed, List.append_assoc]

theorem followed_nil (s : Stream) : s.followed [] s.ending = s := by simp [followed]

theorem writeAll_followed (s : Stream) (bytes more : Bytes) (ending : Ending) :
    (s.followed more ending).writeAll bytes =
      ((s.writeAll bytes).1, (s.writeAll bytes).2.followed more ending) := by
  obtain ⟨r, part, h, h'⟩ := writeAll_alike (s := s) (t := s.followed more ending) rfl rfl bytes
  rw [h, h']
  rfl

theorem ending_writeAll (s : Stream) (bytes : Bytes) : (s.writeAll bytes).2.ending = s.ending := by
  obtain ⟨r, part, h, -⟩ := writeAll_alike (s := s) rfl rfl bytes
  rw [h]
  rfl

end Stream

namespace Dialogue

variable {α : Type}

/-- Chunk sizes do not matter. -/
theorem resume_rechunked (d : Dialogue α) (s : Stream) (readChunk? writeChunk? : Option Chunk) :
    d.resume (s.rechunked readChunk? writeChunk?) =
      ((d.resume s).1, (d.resume s).2.rechunked readChunk? writeChunk?) := by
  induction d generalizing s with
  | finish r => rfl
  | read field n next ih =>
      simp only [resume, Stream.gather_rechunked]
      rcases s.gather n with ⟨gathered, s'⟩
      cases gathered with
      | full b => exact ih b s'
      | partly | ended | broken => rfl
  | write bytes next ih =>
      simp only [resume, Stream.writeAll_rechunked]
      exact ih _ _

section reading

variable {field : Field} {n : Nat} {next : Block n → Dialogue α} {s : Stream}

theorem resume_read_of_le (h : n ≤ s.incoming.length) :
    (read field n next).resume s =
      (next ⟨s.incoming.take n, List.length_take_of_le h⟩).resume (s.skip n) := by
  obtain ⟨hb, hg⟩ := Stream.gather_full h
  simp only [resume, hg]

theorem resume_read_of_awaited (h : s.incoming.length < n) (he : s.ending = .awaited) :
    (read field n next).resume s =
      (.listening field (n - s.incoming.length) fun more =>
          next ⟨s.incoming ++ more.bytes, length_append_block h more⟩, s.drained) := by
  obtain ⟨fits, hg⟩ := Stream.gather_partly h he
  simp only [resume, hg]

theorem resume_read_followed (h : s.incoming.length < n) (more : Bytes) (ending : Ending) :
    (read field n next).resume (s.followed more ending) =
      (read field (n - s.incoming.length) fun rest =>
        next ⟨s.incoming ++ rest.bytes, length_append_block h rest⟩).resume
          (s.drained.followed more ending) := by
  have hall : (s.followed more ending).incoming.length = s.incoming.length + more.length :=
    List.length_append
  have hmore : (s.drained.followed more ending).incoming.length = more.length := rfl
  by_cases hn : more.length < n - s.incoming.length
  · cases ending with
    | awaited =>
        rw [resume_read_of_awaited (s := s.followed more .awaited) (by omega) rfl,
          resume_read_of_awaited (s := s.drained.followed more .awaited) (by omega) rfl]
        refine Prod.ext (Progress.listening_congr (by omega) fun x y hxy => ?_) rfl
        simp only [Stream.followed, Stream.drained, List.nil_append, List.append_assoc, hxy]
    | ended =>
        simp only [resume]
        rw [Stream.gather_ended (s := s.followed more .ended) (by omega) rfl,
          Stream.gather_ended (s := s.drained.followed more .ended) (by omega) rfl]
        rfl
    | broken e =>
        simp only [resume]
        rw [Stream.gather_broken (s := s.followed more (.broken e)) (by omega) rfl,
          Stream.gather_broken (s := s.drained.followed more (.broken e)) (by omega) rfl]
        rfl
  · rw [resume_read_of_le (s := s.followed more ending) (by omega),
      resume_read_of_le (s := s.drained.followed more ending) (by omega)]
    have htake : (s.incoming ++ more).take n = s.incoming ++ more.take (n - s.incoming.length) := by
      rw [List.take_append, List.take_of_length_le (by omega)]
    have hdrop : (s.incoming ++ more).drop n = more.drop (n - s.incoming.length) := by
      rw [List.drop_append, List.drop_of_length_le (by omega), List.nil_append]
    simp only [Stream.followed, Stream.drained, Stream.skip, List.nil_append, htake, hdrop]

end reading

/-- Where more may come, a dialogue goes as far on two pieces, one after the other, as on both at
once. -/
theorem resume_followed (d : Dialogue α) {s : Stream} (he : s.ending = .awaited) (more : Bytes)
    (ending : Ending) :
    d.resume (s.followed more ending) =
      (d.resume s).1.dialogue.resume ((d.resume s).2.followed more ending) := by
  induction d generalizing s with
  | finish r => rfl
  | read field n next ih =>
      by_cases hn : s.incoming.length < n
      · rw [resume_read_followed hn, resume_read_of_awaited hn he]
        rfl
      · have hle : n ≤ s.incoming.length := Nat.not_lt.mp hn
        have hle' : n ≤ (s.followed more ending).incoming.length := by
          simp only [Stream.followed, List.length_append]
          omega
        have htake : (s.followed more ending).incoming.take n = s.incoming.take n :=
          List.take_append_of_le_length hle
        have hskip : (s.followed more ending).skip n = (s.skip n).followed more ending := by
          simp only [Stream.followed, Stream.skip, List.drop_append_of_le_length hle]
        rw [resume_read_of_le hle', resume_read_of_le hle, ← ih _ (s := s.skip n) he, hskip]
        simp only [htake]
  | write bytes next ih =>
      simp only [resume, Stream.writeAll_followed]
      exact ih _ ((s.ending_writeAll bytes).trans he)

theorem ending_of_listening {d : Dialogue α} {s s' : Stream} {field : Field} {n : Nat}
    {next : Block n → Dialogue α} (h : d.resume s = (.listening field n next, s')) :
    s.ending = .awaited := by
  induction d generalizing s with
  | finish r => cases h
  | read field' m next' ih =>
      by_cases hm : s.incoming.length < m
      · cases he : s.ending with
        | awaited => rfl
        | ended =>
            simp only [resume, Stream.gather_ended hm he] at h
            cases h
        | broken e =>
            simp only [resume, Stream.gather_broken hm he] at h
            cases h
      · rw [resume_read_of_le (Nat.not_lt.mp hm)] at h
        exact ih _ (s := s.skip m) h
  | write bytes next' ih =>
      simp only [resume] at h
      exact (s.ending_writeAll bytes).symm.trans (ih _ h)

theorem resume_of_awaited (d : Dialogue α) {s : Stream} (he : s.ending = .awaited) :
    (d.resume s).2.ending = .awaited := by
  induction d generalizing s with
  | finish r => exact he
  | read field n next ih =>
      by_cases hn : s.incoming.length < n
      · rw [resume_read_of_awaited hn he]
        exact he
      · rw [resume_read_of_le (Nat.not_lt.mp hn)]
        exact ih _ (s := s.skip n) he
  | write bytes next ih => exact ih _ ((s.ending_writeAll bytes).trans he)

end Dialogue

/-! ### Deliveries -/

/-- A way in which bytes come to a server and those of the server go away: the sizes of the chunks
of a read and of a write, and the pieces in which the bytes are sent. -/
structure Delivery where
  readChunk? : Option Chunk
  writeChunk? : Option Chunk
  pieces : List Bytes

namespace Delivery

/-- The bytes that are delivered. -/
def bytes (v : Delivery) : Bytes := v.pieces.flatten

/-- The stream on which they come, before the first of them; `fault?` tells how much it takes. -/
def stream (v : Delivery) (fault? : Option WriteFault) : Stream :=
  { Stream.idle with
    readChunk? := v.readChunk?
    writeChunk? := v.writeChunk?
    fault? := fault? }

end Delivery

namespace Dialogue

variable {α : Type}

/-- Goes on with a dialogue after each of some pieces. -/
def hearAll (d : Dialogue α) (s : Stream) (pieces : List Bytes) : Progress α × Stream :=
  pieces.foldl (fun r piece => r.1.dialogue.resume (r.2.arrive piece)) (d.resume s)

/-- Carries out a dialogue on what is delivered, piece by piece, and at last on what follows. -/
def deliver (d : Dialogue α) (v : Delivery) (fault? : Option WriteFault) (ending : Ending) :
    Progress α × Stream :=
  let r := d.hearAll (v.stream fault?) v.pieces
  r.1.dialogue.resume { r.2 with ending := ending }

/-- To hear some pieces, one after the other, is to hear them at once. -/
theorem hearAll_eq (d : Dialogue α) {s : Stream} (he : s.ending = .awaited) (pieces : List Bytes) :
    d.hearAll s pieces = d.resume (s.followed pieces.flatten .awaited) := by
  induction pieces generalizing d s with
  | nil => rw [List.flatten_nil, ← he, Stream.followed_nil, hearAll, List.foldl_nil]
  | cons piece pieces ih =>
      have harrive : (d.resume s).2.arrive piece = (d.resume s).2.followed piece .awaited := by
        rw [Stream.arrive, Stream.followed, ← d.resume_of_awaited he]
      have hstep : d.hearAll s (piece :: pieces) =
          (d.resume s).1.dialogue.hearAll ((d.resume s).2.followed piece .awaited) pieces := by
        rw [hearAll, List.foldl_cons, harrive, hearAll]
      rw [hstep, ih _ rfl, Stream.followed_followed, List.flatten_cons, ← resume_followed d he]

/-- What a dialogue comes to depends on the bytes alone that are delivered. -/
theorem deliver_eq (d : Dialogue α) (v : Delivery) (fault? : Option WriteFault) (ending : Ending) :
    d.deliver v fault? ending =
      let r := d.resume { Stream.idle with
        incoming := v.bytes
        ending := ending
        fault? := fault? }
      (r.1, r.2.rechunked v.readChunk? v.writeChunk?) := by
  have hidle : (v.stream fault?).ending = .awaited := rfl
  have hheard := d.hearAll_eq hidle v.pieces
  have hclose : d.deliver v fault? ending =
      (d.resume ((v.stream fault?).followed v.bytes .awaited)).1.dialogue.resume
        ((d.resume ((v.stream fault?).followed v.bytes .awaited)).2.followed [] ending) := by
    simp [deliver, hheard, Stream.followed, Delivery.bytes]
  have hchunks : (v.stream fault?).followed v.bytes ending =
      ({ Stream.idle with
        incoming := v.bytes
        ending := ending
        fault? := fault? } : Stream).rechunked v.readChunk? v.writeChunk? := rfl
  rw [hclose, ← resume_followed d rfl, Stream.followed_followed, List.append_nil, hchunks,
    resume_rechunked]

/-- What a dialogue comes to on bytes that end is what it means. -/
theorem eval_eq_advance (d : Dialogue α) (input : Bytes) :
    d.eval input =
      let p := d.advance input
      ⟨match p.progress with
        | .finished r => r
        | .listening field _ _ => .error (.transport field.endOfInput), p.rest, p.said⟩ := by
  induction d generalizing input with
  | finish r => rfl
  | read field n next ih =>
      by_cases hn : input.length < n
      · rw [advance_read_of_lt hn, eval, Block.take?_eq_none_iff.mpr hn]
      · have hle : n ≤ input.length := Nat.not_lt.mp hn
        have htake : Block.take? n input =
            some (⟨input.take n, List.length_take_of_le hle⟩, input.drop n) := by
          rw [Block.take?_eq_some_iff, List.take_append_drop]
        rw [advance_read_of_le hle, eval, htake]
        exact ih _ _
  | write bytes next ih => simp only [eval, advance, ih (.ok ()) input]

theorem deliver_ended (d : Dialogue α) (v : Delivery) :
    (d.deliver v none .ended).1 = .finished (d.eval v.bytes).result ∧
      (d.deliver v none .ended).2.incoming = (d.eval v.bytes).rest ∧
      (d.deliver v none .ended).2.written = (d.eval v.bytes).said := by
  have htakes := resume_of_takes (d := d)
    (s := { Stream.idle with incoming := v.bytes, ending := .ended, fault? := none })
    (Stream.takes_of_faultless rfl _)
  rw [deliver_eq, htakes, d.eval_eq_advance v.bytes]
  refine ⟨?_, rfl, rfl⟩
  dsimp only
  cases (d.advance v.bytes).progress <;> rfl

/-- A dialogue succeeds on some bytes exactly when they begin with a conversation that comes to that
success; what follows it is left unread. -/
theorem eval_eq_ok_iff {d : Dialogue α} {input rest said : Bytes} {a : α} :
    d.eval input = ⟨.ok a, rest, said⟩ ↔
      ∃ heard, input = heard ++ rest ∧ d.Reaches heard said (finish (.ok a)) := by
  rw [← advance_eq_finished_iff, eval_eq_advance]
  obtain ⟨progress, left, told⟩ := d.advance input
  cases progress with
  | finished r => simp
  | listening field n next => simp

/-- A dialogue that only listens succeeds on some bytes exactly when it reads the first of them. -/
theorem Listens.eval_eq_ok_iff {P : Failure → Prop} {d : Dialogue α} {input rest said : Bytes}
    {a : α} (hd : d.Listens P) :
    d.eval input = ⟨.ok a, rest, said⟩ ↔
      said = [] ∧ ∃ heard, input = heard ++ rest ∧ d.Reads heard a := by
  rw [Dialogue.eval_eq_ok_iff]
  constructor
  · rintro ⟨heard, rfl, h⟩
    obtain ⟨hreads, rfl⟩ := hd.reaches_ok_iff.mp h
    exact ⟨rfl, heard, rfl, hreads⟩
  · rintro ⟨rfl, heard, rfl, h⟩
    exact ⟨heard, rfl, h⟩

end Dialogue

end Socks
