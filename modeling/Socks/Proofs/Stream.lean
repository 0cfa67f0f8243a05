import Mathlib.Data.List.Basic
import Mathlib.Tactic.Common
import Socks.Stream

/-!
# What streams bring and take

`Stream.gather` and `Stream.writeAll` move bytes chunk by chunk. Here they are put in closed form,
in which no chunk size occurs: a block is read when enough bytes are there and not before
(`gather_full`, `gather_partly`, `gather_ended`, `gather_broken`), and bytes are written whole as
long as the stream takes them (`writeAll_of_takes`), else up to the fault (`writeAll_of_not_takes`).
-/

namespace Socks.Stream

/-- The stream after its first `k` unread bytes have been read. -/
def skip (s : Stream) (k : Nat) : Stream := { s with incoming := s.incoming.drop k }

theorem skip_skip (s : Stream) (j k : Nat) : (s.skip j).skip k = s.skip (j + k) := by
  simp only [skip, List.drop_drop]

/-- The stream after all that had arrived has been read. -/
def drained (s : Stream) : Stream := { s with incoming := [] }

/-- The stream after some bytes have been written. -/
def wrote (s : Stream) (bytes : Bytes) : Stream := { s with written := s.written ++ bytes }

theorem wrote_wrote (s : Stream) (a b : Bytes) : (s.wrote a).wrote b = s.wrote (a ++ b) := by
  simp only [wrote, List.append_assoc]

/-- The stream takes `n` more bytes before a write fails. -/
def Takes (s : Stream) (n : Nat) : Prop :=
  ∀ fault, s.fault? = some fault → n ≤ fault.after - s.written.length

instance (s : Stream) (n : Nat) : Decidable (s.Takes n) :=
  match h : s.fault? with
  | none => isTrue (by intro f hf; rw [h] at hf; cases hf)
  | some fault =>
    decidable_of_iff (n ≤ fault.after - s.written.length)
      ⟨fun hn f hf => by rw [h] at hf; cases hf; exact hn, fun ht => ht fault h⟩

theorem takes_of_faultless {s : Stream} (h : s.fault? = none) (n : Nat) : s.Takes n := by
  intro fault hf
  rw [h] at hf
  cases hf

theorem Takes.of_append {s : Stream} {a b : Bytes} (h : s.Takes (a ++ b).length) :
    s.Takes a.length := by
  intro fault hf
  have hroom := h fault hf
  rw [List.length_append] at hroom
  omega

/-- A stream that takes two parts takes the second after the first. -/
theorem takes_wrote_of_append {s : Stream} {a b : Bytes} (h : s.Takes (a ++ b).length) :
    (s.wrote a).Takes b.length := by
  intro fault hf
  have hroom := h fault hf
  simp only [wrote, List.length_append] at hroom ⊢
  omega

/-- The stream without its fault. -/
def sound (s : Stream) : Stream := { s with fault? := none }

theorem sound_of_faultless {s : Stream} (h : s.fault? = none) : s.sound = s := by
  rw [sound, ← h]

/-! ### Reading -/

section gathering

variable {n : Nat} {got : Bytes} {s : Stream}

/-- One round of gathering brings at least one byte and at most what is wanted. -/
theorem read_of_incoming (limit : Nat) (hl : 0 < limit) (hs : s.incoming ≠ []) :
    ∃ k fits, 0 < k ∧ k ≤ limit ∧ s.read limit = (.bytes (s.incoming.take k) fits, s.skip k) := by
  have hk := atOnce_le s.readChunk? limit
  refine ⟨atOnce s.readChunk? limit, Nat.le_trans (List.length_take_le _ _) hk,
    atOnce_pos _ hl, hk, ?_⟩
  unfold read
  split
  · contradiction
  · rfl

theorem gatherWithin_full (rounds : Nat) (fits : got.length ≤ n)
    (hr : n ≤ got.length + rounds) (hn : n ≤ got.length + s.incoming.length) :
    ∃ h, gatherWithin rounds got fits s =
      (.full ⟨got ++ s.incoming.take (n - got.length), h⟩, s.skip (n - got.length)) := by
  induction rounds generalizing got s with
  | zero =>
      have e : got.length = n := by omega
      refine ⟨by simp; omega, ?_⟩
      unfold gatherWithin
      simp [e, skip]
  | succ rounds ih =>
      unfold gatherWithin
      by_cases e : got.length = n
      · refine ⟨by simp; omega, ?_⟩
        simp [e, skip]
      · have hs : s.incoming ≠ [] := by
          intro h
          rw [h, List.length_nil] at hn
          omega
        obtain ⟨k, room, hk, hkn, hread⟩ := read_of_incoming (n - got.length) (by omega) hs
        have hle : k ≤ s.incoming.length := by omega
        have hlen : (got ++ s.incoming.take k).length = got.length + k := by
          rw [List.length_append, List.length_take_of_le hle]
        have hleft : (s.skip k).incoming.length = s.incoming.length - k := List.length_drop
        have hsum : k + (n - (got.length + k)) = n - got.length := by omega
        obtain ⟨h, ih⟩ := @ih (got ++ s.incoming.take k) (s.skip k) (by omega) (by omega) (by omega)
        have htake : got ++ s.incoming.take k ++
            (s.skip k).incoming.take (n - (got ++ s.incoming.take k).length) =
              got ++ s.incoming.take (n - got.length) := by
          rw [hlen, skip, List.append_assoc, ← List.take_add, hsum]
        have hdrop : (s.skip k).skip (n - (got ++ s.incoming.take k).length) =
            s.skip (n - got.length) := by
          rw [hlen, skip_skip, hsum]
        refine ⟨by rw [← htake]; exact h, ?_⟩
        simp only [e, dite_false, hread, ih, hdrop]
        congr 3

/-- A block is read when enough bytes have arrived. -/
theorem gather_full (hn : n ≤ s.incoming.length) :
    ∃ h, s.gather n = (.full ⟨s.incoming.take n, h⟩, s.skip n) := by
  obtain ⟨h, e⟩ := @gatherWithin_full n [] s n (Nat.zero_le n) (by simp) (by simpa)
  exact ⟨by simpa using h, by simpa [gather] using e⟩

/-- Too few bytes for a block are all read, and then the ending of the stream is met. -/
theorem gatherWithin_short (rounds : Nat) (fits : got.length ≤ n)
    (hr : n ≤ got.length + rounds) (hn : got.length + s.incoming.length < n) :
    ∃ h, gatherWithin rounds got fits s =
      match s.ending with
      | .awaited => (.partly (got ++ s.incoming) h, s.drained)
      | .ended => (.ended, s.drained)
      | .broken e => (.broken e, s.drained.close) := by
  induction rounds generalizing got s with
  | zero => omega
  | succ rounds ih =>
      unfold gatherWithin
      have e : got.length ≠ n := by omega
      by_cases hs : s.incoming = []
      · refine ⟨by simpa [hs] using fits, ?_⟩
        have hd : s.drained = s := by rw [drained, ← hs]
        simp only [e, dite_false, read, hs, hd]
        cases s.ending <;> simp
      · obtain ⟨k, room, hk, hkn, hread⟩ := read_of_incoming (n - got.length) (by omega) hs
        have hpos := List.length_pos_iff.mpr hs
        have hlen : (s.incoming.take k).length = min k s.incoming.length := List.length_take ..
        obtain ⟨h, ih⟩ := @ih (got ++ s.incoming.take k) (s.skip k)
          (by rw [List.length_append]; omega) (by rw [List.length_append]; omega)
          (by simp only [skip, List.length_append, List.length_drop]; omega)
        refine ⟨by rw [List.length_append]; omega, ?_⟩
        simp only [e, dite_false, hread, ih]
        simp only [skip, drained, List.append_assoc, List.take_append_drop]

theorem gather_partly (hn : s.incoming.length < n) (ha : s.ending = .awaited) :
    ∃ h, s.gather n = (.partly s.incoming h, s.drained) := by
  obtain ⟨h, e⟩ := @gatherWithin_short n [] s n (Nat.zero_le n) (by simp) (by simpa)
  exact ⟨by simpa using h, by simpa [gather, ha] using e⟩

theorem gather_ended (hn : s.incoming.length < n) (ha : s.ending = .ended) :
    s.gather n = (.ended, s.drained) := by
  obtain ⟨h, e⟩ := @gatherWithin_short n [] s n (Nat.zero_le n) (by simp) (by simpa)
  simpa [gather, ha] using e

theorem gather_broken {e : IoError} (hn : s.incoming.length < n) (ha : s.ending = .broken e) :
    s.gather n = (.broken e, s.drained.close) := by
  obtain ⟨h, e⟩ := @gatherWithin_short n [] s n (Nat.zero_le n) (by simp) (by simpa)
  simpa [gather, ha] using e

end gathering

/-! ### Writing -/

section writing

variable {s : Stream} {bytes : Bytes}

/-- A write takes at least one byte, or none is taken any more. -/
theorem write_cases (s : Stream) (hb : bytes ≠ []) :
    (∃ k, 0 < k ∧ k ≤ bytes.length ∧ s.Takes k ∧ s.write bytes = (.ok k, s.wrote (bytes.take k))) ∨
      ∃ fault, s.fault? = some fault ∧ fault.after - s.written.length = 0 ∧
        s.write bytes = (.error fault.error, s) := by
  have hpos := atOnce_pos s.writeChunk? (List.length_pos_iff.mpr hb)
  have hle := atOnce_le s.writeChunk? bytes.length
  unfold write
  split
  · rename_i hf
    exact .inl ⟨_, hpos, hle, takes_of_faultless hf _, rfl⟩
  · rename_i fault hf
    by_cases hz : fault.after - s.written.length = 0
    · exact .inr ⟨fault, hf, hz, by simp [hz]⟩
    · refine .inl ⟨min (atOnce s.writeChunk? bytes.length) (fault.after - s.written.length),
        by omega, by omega, ?_, ?_⟩
      · intro fault' hf'
        cases hf.symm.trans hf'
        omega
      · simp only [show ¬ min (atOnce s.writeChunk? bytes.length)
          (fault.after - s.written.length) = 0 by omega, if_false]
        rfl

theorem length_written_wrote (s : Stream) {k : Nat} (hk : k ≤ bytes.length) :
    (s.wrote (bytes.take k)).written.length = s.written.length + k := by
  simp only [wrote, List.length_append, List.length_take]
  omega

theorem writeWithin_of_takes (rounds : Nat) (hr : bytes.length ≤ rounds)
    (h : s.Takes bytes.length) : s.writeWithin rounds bytes = (.ok (), s.wrote bytes) := by
  induction rounds generalizing s bytes with
  | zero =>
      have hb : bytes = [] := List.length_eq_zero_iff.mp (by omega)
      subst hb
      simp [writeWithin, wrote]
  | succ rounds ih =>
      cases bytes with
      | nil => simp [writeWithin, wrote]
      | cons b more =>
          rcases write_cases s (List.cons_ne_nil b more) with
            ⟨k, hpos, hle, -, hw⟩ | ⟨fault, hf, hz, -⟩
          · have ht : (s.wrote ((b :: more).take k)).Takes ((b :: more).drop k).length := by
              intro fault hf
              have hroom := h fault hf
              rw [length_written_wrote s hle, List.length_drop]
              omega
            simp only [writeWithin, hw]
            rw [ih (by rw [List.length_drop]; omega) ht]
            simp [wrote, List.append_assoc, List.take_append_drop]
          · have hroom := h fault hf
            rw [List.length_cons] at hroom
            omega

/-- What the stream takes is written whole. -/
theorem writeAll_of_takes (h : s.Takes bytes.length) :
    s.writeAll bytes = (.ok (), s.wrote bytes) :=
  writeWithin_of_takes _ (Nat.le_refl _) h

theorem writeWithin_of_lt {fault : WriteFault} (rounds : Nat) (hr : bytes.length ≤ rounds)
    (hf : s.fault? = some fault) (h : fault.after - s.written.length < bytes.length) :
    s.writeWithin rounds bytes =
      (.error fault.error, s.wrote (bytes.take (fault.after - s.written.length))) := by
  induction rounds generalizing s bytes with
  | zero => omega
  | succ rounds ih =>
      cases bytes with
      | nil => simp at h
      | cons b more =>
          rcases write_cases s (List.cons_ne_nil b more) with
            ⟨k, hpos, hle, ht, hw⟩ | ⟨fault', hf', hz, hw⟩
          · have hk := ht fault hf
            have hroom : fault.after - (s.wrote ((b :: more).take k)).written.length =
                fault.after - s.written.length - k := by
              rw [length_written_wrote s hle]
              omega
            have hrest : fault.after - (s.wrote ((b :: more).take k)).written.length <
                ((b :: more).drop k).length := by
              rw [hroom, List.length_drop]
              omega
            have hf' : (s.wrote ((b :: more).take k)).fault? = some fault := hf
            simp only [writeWithin, hw]
            rw [ih (by rw [List.length_drop]; omega) hf' hrest, hroom]
            have htake : (b :: more).take (fault.after - s.written.length) =
                (b :: more).take k ++
                  ((b :: more).drop k).take (fault.after - s.written.length - k) := by
              rw [← List.take_add]
              congr 1
              omega
            rw [htake]
            simp [wrote, List.append_assoc]
          · cases hf.symm.trans hf'
            simp only [writeWithin, hw, hz]
            simp [wrote]

/-- A stream that has taken what it could takes no more. -/
theorem not_takes_wrote {fault : WriteFault} (hf : s.fault? = some fault)
    (h : fault.after - s.written.length < bytes.length) :
    ¬(s.wrote (bytes.take (fault.after - s.written.length))).Takes 1 := by
  intro ht
  have hroom := ht fault hf
  rw [length_written_wrote s (Nat.le_of_lt h)] at hroom
  omega

theorem take_ne_self {k : Nat} (h : k < bytes.length) : bytes.take k ≠ bytes := by
  intro he
  have hlen := congrArg List.length he
  rw [List.length_take_of_le (Nat.le_of_lt h)] at hlen
  omega

/-- A stream that does not take all of some bytes takes a proper first part of them and fails. -/
theorem writeAll_of_not_takes (h : ¬s.Takes bytes.length) :
    ∃ fault, s.fault? = some fault ∧ fault.after - s.written.length < bytes.length ∧
      s.writeAll bytes =
        (.error fault.error, s.wrote (bytes.take (fault.after - s.written.length))) := by
  simp only [Takes, not_forall, Nat.not_le] at h
  obtain ⟨fault, hf, hlt⟩ := h
  exact ⟨fault, hf, hlt, writeWithin_of_lt _ (Nat.le_refl _) hf hlt⟩

end writing

end Socks.Stream
