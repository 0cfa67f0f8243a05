import Socks.Proofs.Stream
import Socks.Relay

/-!
# A relay keeps every byte

What has been written to one side of a relay, what has been read from the other side and not yet
written, and what has arrived there and not yet been read are, one after the other, all that the
other side ever sent. `Relay.Moves` says once what a step can do; every step of either direction
keeps this sequence, so no order of steps loses, repeats or invents a byte.

Main statements: `Relay.Reaches.flow` for any order of steps and arrivals,
`Relay.Reaches.whole_of_over` for a relay that has ended because one side did, and
`Relay.pump_of_takes`, `Relay.pump_of_not_takes` for one direction that goes as far as it can.
-/

namespace Socks

namespace Side

theorem other_ne (side : Side) : side.other ≠ side := by cases side <;> decide

@[simp] theorem other_other (side : Side) : side.other.other = side := by cases side <;> rfl

theorem eq_or_eq_other (a b : Side) : a = b ∨ a = b.other := by cases a <;> cases b <;> decide

end Side

namespace Ending

/-- How a relay ends that meets an ending. -/
def result? : Ending → Option (Except Failure Unit)
  | awaited => none
  | ended => some (.ok ())
  | broken e => some (.error (.transport e))

/-- What is left of an ending that has been met. -/
def met : Ending → Ending
  | broken _ => ended
  | ending => ending

theorem awaited_of_result? {ending : Ending} (h : ending.result? = none) : ending = .awaited := by
  cases ending with
  | awaited => rfl
  | ended | broken e => cases h

end Ending

/-- The stream after all that had arrived has been read, with its ending. -/
def Stream.spent (s : Stream) : Stream := { s with incoming := [], ending := s.ending.met }

namespace Relay

/-! ### Streams and pending bytes by side -/

section sides

variable (r : Relay) (side : Side) (s : Stream) (bytes : Bytes)

@[simp] theorem stream_withStream : (r.withStream side s).stream side = s := by cases side <;> rfl

@[simp] theorem stream_withStream_other :
    (r.withStream side.other s).stream side = r.stream side := by cases side <;> rfl

@[simp] theorem stream_other_withStream :
    (r.withStream side s).stream side.other = r.stream side.other := by cases side <;> rfl

@[simp] theorem withStream_stream : r.withStream side (r.stream side) = r := by cases side <;> rfl

@[simp] theorem pending_withStream (side' : Side) :
    (r.withStream side s).pending side' = r.pending side' := by cases side <;> cases side' <;> rfl

@[simp] theorem stream_withPending (side' : Side) :
    (r.withPending side bytes).stream side' = r.stream side' := by
  cases side <;> cases side' <;> rfl

@[simp] theorem pending_withPending : (r.withPending side bytes).pending side = bytes := by
  cases side <;> rfl

@[simp] theorem pending_other_withPending :
    (r.withPending side bytes).pending side.other = r.pending side.other := by cases side <;> rfl

@[simp] theorem result?_withStream : (r.withStream side s).result? = r.result? := by
  cases side <;> rfl

@[simp] theorem result?_withPending : (r.withPending side bytes).result? = r.result? := by
  cases side <;> rfl

variable (result : Except Failure Unit)

@[simp] theorem stream_finish : (r.finish result).stream side = r.stream side := by
  cases side <;> rfl

@[simp] theorem pending_finish : (r.finish result).pending side = r.pending side := by
  cases side <;> rfl

@[simp] theorem result?_finish : (r.finish result).result? = some result := rfl

end sides

/-! ### What one step can do -/

/-- What a direction has still to pass on of what has arrived. -/
def backlog (r : Relay) (side : Side) : Bytes := r.pending side ++ (r.stream side).incoming

theorem backlog_eq_nil_iff {r : Relay} {side : Side} :
    r.backlog side = [] ↔ r.pending side = [] ∧ (r.stream side).incoming = [] :=
  List.append_eq_nil_iff

/-- The relay after `k` bytes of a side have been read when nothing was pending. -/
def took (r : Relay) (side : Side) (k : Nat) : Relay :=
  (r.withStream side ((r.stream side).skip k)).withPending side ((r.stream side).incoming.take k)

/-- The relay after `k` bytes that were pending from a side have been written. -/
def gave (r : Relay) (side : Side) (k : Nat) : Relay :=
  (r.withStream side.other ((r.stream side.other).wrote ((r.pending side).take k))).withPending side
    ((r.pending side).drop k)

/-- The outcomes of a step of the direction that copies a side: it rests when the relay is over or
nothing has arrived, reads when nothing is pending, writes a part of what is pending, or ends the
relay. -/
inductive Moves (r : Relay) (side : Side) (limit : Nat) : Relay → Prop
  | stopped {result : Except Failure Unit} : r.result? = some result → Moves r side limit r
  | idle :
      r.result? = none → r.backlog side = [] → (r.stream side).ending = .awaited →
        Moves r side limit r
  | took (k : Nat) :
      r.result? = none → r.pending side = [] → (r.stream side).incoming ≠ [] →
      (0 < limit → 0 < k) → Moves r side limit (r.took side k)
  | gave (k : Nat) :
      r.result? = none → 0 < k → k ≤ (r.pending side).length → (r.stream side.other).Takes k →
        Moves r side limit (r.gave side k)
  | ended :
      r.backlog side = [] → (r.stream side).ending = .ended →
        Moves r side limit (r.finish (.ok ()))
  | broken {e : IoError} :
      r.backlog side = [] → (r.stream side).ending = .broken e →
        Moves r side limit
          ((r.withStream side (r.stream side).close).finish (.error (.transport e)))
  | refused {fault : WriteFault} :
      r.pending side ≠ [] → (r.stream side.other).fault? = some fault →
      fault.after - (r.stream side.other).written.length = 0 →
        Moves r side limit (r.finish (.error (.transport fault.error)))

theorem moves_readStep {r : Relay} {side : Side} (limit : Nat) (hr : r.result? = none)
    (hp : r.pending side = []) : r.Moves side limit (r.readStep side limit) := by
  unfold readStep
  cases hi : (r.stream side).incoming with
  | nil =>
      have hb : r.backlog side = [] := backlog_eq_nil_iff.mpr ⟨hp, hi⟩
      cases he : (r.stream side).ending with
      | awaited =>
          simp only [Stream.read, hi, he, withStream_stream]
          exact .idle hr hb he
      | ended =>
          simp only [Stream.read, hi, he, withStream_stream]
          exact .ended hb he
      | broken e =>
          simp only [Stream.read, hi, he]
          exact .broken hb he
  | cons b more =>
      have hne : (r.stream side).incoming ≠ [] := by
        rw [hi]
        exact List.cons_ne_nil b more
      have hk : 0 < limit → 0 < Stream.atOnce (r.stream side).readChunk? limit :=
        Stream.atOnce_pos _
      have h := Moves.took _ hr hp hne hk
      simpa only [Relay.took, Stream.read, Stream.skip, hi] using h

theorem moves_writeStep {r : Relay} {side : Side} (limit : Nat) (hr : r.result? = none)
    (hp : r.pending side ≠ []) : r.Moves side limit (r.writeStep side) := by
  unfold writeStep
  rcases Stream.write_cases (r.stream side.other) hp with
    ⟨k, hpos, hle, hroom, hw⟩ | ⟨fault, hf, hz, hw⟩
  · simp only [hw]
    exact .gave k hr hpos hle hroom
  · simp only [hw, withStream_stream]
    exact .refused hp hf hz

theorem moves_step (r : Relay) (side : Side) (limit : Nat) :
    r.Moves side limit (r.step side limit) := by
  unfold step
  split
  · rename_i hr
    exact .stopped hr
  · rename_i hr hp
    exact moves_readStep limit hr hp
  · rename_i b more hr hp
    refine moves_writeStep limit hr ?_
    rw [hp]
    exact List.cons_ne_nil b more

/-! ### Conservation -/

/-- All that has come in from a side, in the order in which it is passed on: what has been written
to the other side, what is pending, and what has not been read yet. -/
def flow (r : Relay) (side : Side) : Bytes :=
  (r.stream side.other).written ++ r.pending side ++ (r.stream side).incoming

@[simp] theorem flow_finish (r : Relay) (side : Side) (result : Except Failure Unit) :
    (r.finish result).flow side = r.flow side := by
  simp only [flow, stream_finish, pending_finish]

theorem flow_arrive (r : Relay) (side side' : Side) (bytes : Bytes) :
    (r.withStream side ((r.stream side).arrive bytes)).flow side' =
      r.flow side' ++ if side' = side then bytes else [] := by
  rcases Side.eq_or_eq_other side' side with rfl | rfl
  · simp [flow, Stream.arrive]
  · simp [flow, Stream.arrive, Side.other_ne]

theorem flow_close (r : Relay) (side side' : Side) :
    (r.withStream side (r.stream side).close).flow side' = r.flow side' := by
  rcases Side.eq_or_eq_other side' side with rfl | rfl <;> simp [flow, Stream.close]

theorem flow_breakOff (r : Relay) (side side' : Side) (e : IoError) :
    (r.withStream side ((r.stream side).breakOff e)).flow side' = r.flow side' := by
  rcases Side.eq_or_eq_other side' side with rfl | rfl <;> simp [flow, Stream.breakOff]

theorem flow_took (r : Relay) (side side' : Side) (k : Nat) (hp : r.pending side = []) :
    (r.took side k).flow side' = r.flow side' := by
  rcases Side.eq_or_eq_other side' side with rfl | rfl
  · simp [flow, took, Stream.skip, hp]
  · simp [flow, took, Stream.skip]

theorem flow_gave (r : Relay) (side side' : Side) (k : Nat) :
    (r.gave side k).flow side' = r.flow side' := by
  rcases Side.eq_or_eq_other side' side with rfl | rfl
  · simp [flow, gave, Stream.wrote]
  · simp [flow, gave, Stream.wrote]

/-- No step loses or invents a byte, of the direction that takes it or of the other one. -/
theorem Moves.flow {r r' : Relay} {side : Side} {limit : Nat} (h : r.Moves side limit r')
    (side' : Side) : r'.flow side' = r.flow side' := by
  cases h with
  | stopped | idle => rfl
  | took k _ hp => exact flow_took r side side' k hp
  | gave k => exact flow_gave r side side' k
  | ended => rw [flow_finish]
  | broken => rw [flow_finish, flow_close]
  | refused => rw [flow_finish]

/-- What has become of a relay: its directions took steps in some order, and each side sent what is
told, nothing after it had ended or broken. -/
inductive Reaches (r₀ : Relay) : (Side → Bytes) → Relay → Prop
  | start : Reaches r₀ (fun _ => []) r₀
  | step {sent : Side → Bytes} {r : Relay} (side : Side) (limit : Nat) :
      Reaches r₀ sent r → Reaches r₀ sent (r.step side limit)
  | hears {sent : Side → Bytes} {r : Relay} (side : Side) (bytes : Bytes) :
      Reaches r₀ sent r → (r.stream side).ending = .awaited →
        Reaches r₀ (fun s => if s = side then sent s ++ bytes else sent s)
          (r.withStream side ((r.stream side).arrive bytes))
  | ends {sent : Side → Bytes} {r : Relay} (side : Side) :
      Reaches r₀ sent r → Reaches r₀ sent (r.withStream side (r.stream side).close)
  | breaks {sent : Side → Bytes} {r : Relay} (side : Side) (e : IoError) :
      Reaches r₀ sent r → Reaches r₀ sent (r.withStream side ((r.stream side).breakOff e))

variable {r₀ r : Relay} {sent : Side → Bytes}

/-- In whatever order a relay takes its steps, all that a side sent is there, in order. -/
theorem Reaches.flow (h : r₀.Reaches sent r) (side : Side) :
    r.flow side = r₀.flow side ++ sent side := by
  induction h with
  | start => rw [List.append_nil]
  | step side' limit _ ih => rw [(moves_step _ side' limit).flow, ih]
  | hears side' bytes _ _ ih =>
      rw [flow_arrive, ih, List.append_assoc]
      by_cases hs : side = side' <;> simp [hs]
  | ends side' _ ih => rw [flow_close, ih]
  | breaks side' e _ ih => rw [flow_breakOff, ih]

/-! ### The end of a relay -/

/-- A side that has ended, or broken, and of which everything has been passed on. -/
def Exhausted (r : Relay) (side : Side) : Prop :=
  (r.stream side).ending ≠ .awaited ∧ r.pending side = [] ∧ (r.stream side).incoming = []

/-- A relay goes on, or a side is exhausted, or a stream cannot be written any more. -/
def Explained (r : Relay) : Prop :=
  r.result? = none ∨ (∃ side, r.Exhausted side) ∨ ∃ side fault, (r.stream side).fault? = some fault

theorem Exhausted.withStream {side side' : Side} {s : Stream} (h : r.Exhausted side)
    (he : s.ending ≠ .awaited) (hi : s.incoming = (r.stream side').incoming) :
    (r.withStream side' s).Exhausted side := by
  rcases Side.eq_or_eq_other side side' with rfl | rfl
  · simpa [Exhausted, he, hi] using h.2
  · simpa [Exhausted] using h

theorem Explained.withStream {side : Side} {s : Stream} (h : r.Explained)
    (he : s.ending ≠ .awaited) (hi : s.incoming = (r.stream side).incoming)
    (hf : s.fault? = (r.stream side).fault?) : (r.withStream side s).Explained := by
  rcases h with h | ⟨side', h⟩ | ⟨side', fault, h⟩
  · exact .inl (by rw [result?_withStream, h])
  · exact .inr (.inl ⟨side', h.withStream he hi⟩)
  · refine .inr (.inr ⟨side', fault, ?_⟩)
    rcases Side.eq_or_eq_other side' side with rfl | rfl
    · rw [stream_withStream, hf, h]
    · rw [stream_other_withStream, h]

/-- A step that ends a relay explains its end. -/
theorem Moves.explained {r' : Relay} {side : Side} {limit : Nat} (h : r.Moves side limit r')
    (hr : r.Explained) : r'.Explained := by
  cases h with
  | stopped | idle => exact hr
  | took k hn => exact .inl (by simpa [Relay.took] using hn)
  | gave k hn => exact .inl (by simpa [Relay.gave] using hn)
  | ended hb he =>
      obtain ⟨hp, hi⟩ := backlog_eq_nil_iff.mp hb
      exact .inr (.inl ⟨side, by simp [Exhausted, hp, hi, he]⟩)
  | broken hb he =>
      obtain ⟨hp, hi⟩ := backlog_eq_nil_iff.mp hb
      exact .inr (.inl ⟨side, by simp [Exhausted, hp, hi, Stream.close]⟩)
  | refused _ hf => exact .inr (.inr ⟨side.other, _, by rw [stream_finish, hf]⟩)

theorem Reaches.explained (h : r₀.Reaches sent r) (h₀ : r₀.result? = none) : r.Explained := by
  induction h with
  | start => exact .inl h₀
  | step side limit _ ih => exact (moves_step _ side limit).explained ih
  | @hears sent r side bytes _ ha ih =>
      rcases ih with h | ⟨side', h⟩ | ⟨side', fault, h⟩
      · exact .inl (by rw [result?_withStream, h])
      · rcases Side.eq_or_eq_other side' side with rfl | rfl
        · exact absurd ha h.1
        · exact .inr (.inl ⟨side.other, by simpa [Exhausted] using h⟩)
      · refine .inr (.inr ⟨side', fault, ?_⟩)
        rcases Side.eq_or_eq_other side' side with rfl | rfl <;> simpa [Stream.arrive] using h
  | ends side _ ih => exact ih.withStream (by simp [Stream.close]) rfl rfl
  | breaks side e _ ih => exact ih.withStream (by simp [Stream.breakOff]) rfl rfl

theorem Moves.fault? {r' : Relay} {side : Side} {limit : Nat} (h : r.Moves side limit r')
    (side' : Side) : (r'.stream side').fault? = (r.stream side').fault? := by
  cases h with
  | stopped | idle => rfl
  | took | gave | broken =>
      rcases Side.eq_or_eq_other side' side with rfl | rfl <;>
        simp [Relay.took, Relay.gave, Stream.skip, Stream.wrote, Stream.close]
  | ended | refused => rw [stream_finish]

theorem Reaches.fault? (h : r₀.Reaches sent r) (side : Side) :
    (r.stream side).fault? = (r₀.stream side).fault? := by
  induction h with
  | start => rfl
  | step side' limit _ ih => rw [(moves_step _ side' limit).fault?, ih]
  | hears side' bytes _ _ ih =>
      rw [← ih]
      rcases Side.eq_or_eq_other side side' with rfl | rfl <;> simp [Stream.arrive]
  | ends side' _ ih =>
      rw [← ih]
      rcases Side.eq_or_eq_other side side' with rfl | rfl <;> simp [Stream.close]
  | breaks side' e _ ih =>
      rw [← ih]
      rcases Side.eq_or_eq_other side side' with rfl | rfl <;> simp [Stream.breakOff]

/-- A relay between streams that take every write, once it is over, has passed on all of the one
side if the other side has not ended. -/
theorem Reaches.whole_of_over (h : r₀.Reaches sent r) (h₀ : r₀.result? = none)
    (hf : ∀ side, (r₀.stream side).fault? = none) (hover : r.result? ≠ none) {side : Side}
    (ha : (r.stream side.other).ending = .awaited) :
    (r.stream side.other).written = r₀.flow side ++ sent side := by
  rcases h.explained h₀ with hn | ⟨side', he, hp, hi⟩ | ⟨side', fault, hs⟩
  · exact absurd hn hover
  · rcases Side.eq_or_eq_other side' side with rfl | rfl
    · rw [← h.flow, Relay.flow, hp, hi, List.append_nil, List.append_nil]
    · exact absurd ha he
  · rw [h.fault?, hf] at hs
    cases hs

/-! ### One direction as far as it goes -/

section pumping

variable {side : Side}

theorem ext_side {r' : Relay} (side : Side) (hs : r.stream side = r'.stream side)
    (ho : r.stream side.other = r'.stream side.other) (hp : r.pending side = r'.pending side)
    (hq : r.pending side.other = r'.pending side.other) (hr : r.result? = r'.result?) : r = r' := by
  obtain ⟨left, right, fromLeft, fromRight, result?⟩ := r
  obtain ⟨left', right', fromLeft', fromRight', result?'⟩ := r'
  cases side <;> simp_all [stream, pending, Side.other]

/-- The relay after one direction has copied all that is there and met the ending of its stream. -/
def copied (r : Relay) (side : Side) : Relay :=
  { ((r.withStream side (r.stream side).spent).withStream side.other
      ((r.stream side.other).wrote (r.pending side ++ (r.stream side).incoming))).withPending side
        [] with
    result? := (r.stream side).ending.result? }

@[simp] theorem stream_copied (r : Relay) (side : Side) :
    (r.copied side).stream side = (r.stream side).spent := by cases side <;> rfl

@[simp] theorem stream_other_copied (r : Relay) (side : Side) :
    (r.copied side).stream side.other =
      (r.stream side.other).wrote (r.pending side ++ (r.stream side).incoming) := by
  cases side <;> rfl

@[simp] theorem pending_copied (r : Relay) (side : Side) : (r.copied side).pending side = [] := by
  cases side <;> rfl

@[simp] theorem pending_other_copied (r : Relay) (side : Side) :
    (r.copied side).pending side.other = r.pending side.other := by cases side <;> rfl

@[simp] theorem result?_copied (r : Relay) (side : Side) :
    (r.copied side).result? = (r.stream side).ending.result? := rfl

theorem pump_of_step_eq {limit : Nat} (n : Nat) (hl : limit = bufferSize)
    (h : r.step side limit = r) : pump side n r = r := by
  subst hl
  induction n with
  | zero => rfl
  | succ n ih => rw [pump, h, ih]

theorem pump_of_result {result : Except Failure Unit} (n : Nat) (h : r.result? = some result) :
    pump side n r = r := by
  refine pump_of_step_eq n rfl ?_
  rw [step, h]

theorem copied_of_awaited (hr : r.result? = none) (hb : r.backlog side = [])
    (he : (r.stream side).ending = .awaited) : r.copied side = r := by
  obtain ⟨hp, hi⟩ := backlog_eq_nil_iff.mp hb
  refine ext_side side ?_ ?_ ?_ ?_ ?_ <;>
    simp [Stream.spent, Stream.wrote, Ending.met, Ending.result?, hi, he, hp, hr]
  rw [← hi, ← he]

theorem copied_of_ended (hb : r.backlog side = []) (he : (r.stream side).ending = .ended) :
    r.copied side = r.finish (.ok ()) := by
  obtain ⟨hp, hi⟩ := backlog_eq_nil_iff.mp hb
  refine ext_side side ?_ ?_ ?_ ?_ ?_ <;>
    simp [Stream.spent, Stream.wrote, Ending.met, Ending.result?, hi, he, hp]
  rw [← hi, ← he]

theorem copied_of_broken {e : IoError} (hb : r.backlog side = [])
    (he : (r.stream side).ending = .broken e) :
    r.copied side =
      (r.withStream side (r.stream side).close).finish (.error (.transport e)) := by
  obtain ⟨hp, hi⟩ := backlog_eq_nil_iff.mp hb
  refine ext_side side ?_ ?_ ?_ ?_ ?_ <;>
    simp [Stream.spent, Stream.wrote, Stream.close, Ending.met, Ending.result?, hi, he, hp]

section progress

variable {k : Nat}

theorem result?_took : (r.took side k).result? = r.result? := by simp [took]

theorem result?_gave : (r.gave side k).result? = r.result? := by simp [gave]

theorem stream_took : (r.took side k).stream side = (r.stream side).skip k := by simp [took]

theorem stream_other_took : (r.took side k).stream side.other = r.stream side.other := by
  simp [took]

theorem stream_gave : (r.gave side k).stream side = r.stream side := by simp [gave]

theorem stream_other_gave :
    (r.gave side k).stream side.other =
      (r.stream side.other).wrote ((r.pending side).take k) := by simp [gave]

theorem backlog_took (hp : r.pending side = []) :
    (r.took side k).backlog side = r.backlog side := by
  simp [backlog, took, Stream.skip, hp]

theorem backlog_gave :
    (r.pending side).take k ++ (r.gave side k).backlog side = r.backlog side := by
  simp only [backlog, gave, stream_withPending, stream_withStream_other, pending_withPending]
  rw [← List.append_assoc, List.take_append_drop]

theorem copied_took (hp : r.pending side = []) : (r.took side k).copied side = r.copied side := by
  refine ext_side side ?_ ?_ ?_ ?_ ?_ <;> simp [took, Stream.spent, Stream.skip, hp]

theorem copied_gave : (r.gave side k).copied side = r.copied side := by
  refine ext_side side ?_ ?_ ?_ ?_ ?_ <;> simp [gave, Stream.wrote]
  rw [← List.append_assoc, List.take_append_drop]

-- A read or a write leaves fewer steps to take than there were.
theorem enough_took (hk : 0 < k) (hp : r.pending side = []) (hi : (r.stream side).incoming ≠ []) :
    (r.took side k).enough side < r.enough side := by
  have hpos := List.length_pos_iff.mpr hi
  simp only [enough, took, stream_withPending, stream_withStream, pending_withPending, Stream.skip,
    hp, List.length_drop, List.length_take, List.length_nil]
  omega

theorem enough_gave (hk : 0 < k) (hle : k ≤ (r.pending side).length) :
    (r.gave side k).enough side < r.enough side := by
  simp only [enough, gave, stream_withPending, stream_withStream_other, pending_withPending,
    List.length_drop]
  omega

theorem length_pending_le_backlog : (r.pending side).length ≤ (r.backlog side).length := by
  rw [backlog, List.length_append]
  exact Nat.le_add_right _ _

theorem takes_gave_iff (hle : k ≤ (r.pending side).length) (hroom : (r.stream side.other).Takes k) :
    ((r.gave side k).stream side.other).Takes ((r.gave side k).backlog side).length ↔
      (r.stream side.other).Takes (r.backlog side).length := by
  have hlen := congrArg List.length (@backlog_gave r side k)
  rw [List.length_append, List.length_take_of_le hle] at hlen
  have hwritten := Stream.length_written_wrote (r.stream side.other) hle
  rw [stream_other_gave]
  constructor
  · intro h fault hf
    have h₁ := h fault hf
    have h₂ := hroom fault hf
    omega
  · intro h fault hf
    have h₁ := h fault hf
    omega

end progress

/-- One direction that goes as far as it can, between streams of which the second takes all that
the first has brought. -/
theorem pump_of_takes (n : Nat) (hr : r.result? = none) (hn : r.enough side ≤ n)
    (ht : (r.stream side.other).Takes (r.backlog side).length) : pump side n r = r.copied side := by
  induction n generalizing r with
  | zero =>
      unfold enough at hn
      omega
  | succ n ih =>
      unfold pump
      have hm := moves_step r side bufferSize
      generalize hstep : r.step side bufferSize = r' at hm
      cases hm with
      | stopped h =>
          rw [hr] at h
          cases h
      | idle _ hb he => rw [pump_of_step_eq n rfl hstep, copied_of_awaited hr hb he]
      | took k _ hp hi hk =>
          have hless := enough_took (hk (by decide)) hp hi
          rw [ih (result?_took.trans hr) (by omega), copied_took hp]
          rw [backlog_took hp, stream_other_took]
          exact ht
      | gave k _ hk hle hroom =>
          have hless := enough_gave hk hle
          rw [ih (result?_gave.trans hr) (by omega), copied_gave]
          exact (takes_gave_iff hle hroom).mpr ht
      | ended hb he => rw [pump_of_result n rfl, copied_of_ended hb he]
      | broken hb he => rw [pump_of_result n rfl, copied_of_broken hb he]
      | @refused fault hp hf hz =>
          have hpos := List.length_pos_iff.mpr hp
          have hall := @length_pending_le_backlog r side
          have hroom := ht fault hf
          omega

/-- A relay `r'` that a failed write has ended when it had passed on what the second stream takes
of the backlog of `r`. -/
def CutOff (r : Relay) (side : Side) (r' : Relay) : Prop :=
  ∃ fault k, (r.stream side.other).fault? = some fault ∧
    fault.after - (r.stream side.other).written.length < (r.backlog side).length ∧
    r'.result? = some (.error (.transport fault.error)) ∧
    r'.stream side = (r.stream side).skip k ∧
    r'.stream side.other =
      (r.stream side.other).wrote
        ((r.backlog side).take (fault.after - (r.stream side.other).written.length))

theorem CutOff.of_took {r' : Relay} {k : Nat} (h : (r.took side k).CutOff side r')
    (hp : r.pending side = []) : r.CutOff side r' := by
  obtain ⟨fault, j, hf, hlt, hresult, hsource, hsink⟩ := h
  rw [stream_other_took] at hf hlt hsink
  rw [backlog_took hp] at hlt hsink
  rw [stream_took] at hsource
  refine ⟨fault, k + j, hf, hlt, hresult, ?_, hsink⟩
  rw [hsource, Stream.skip_skip]

theorem CutOff.of_gave {r' : Relay} {k : Nat} (h : (r.gave side k).CutOff side r')
    (hle : k ≤ (r.pending side).length) (hroom : (r.stream side.other).Takes k) :
    r.CutOff side r' := by
  obtain ⟨fault, j, hf, hlt, hresult, hsource, hsink⟩ := h
  rw [stream_other_gave] at hf hlt hsink
  rw [stream_gave] at hsource
  rw [Stream.length_written_wrote _ hle] at hlt hsink
  have hall := @backlog_gave r side k
  have hk : ((r.pending side).take k).length = k := List.length_take_of_le hle
  have hleft := hroom fault hf
  have hsub : fault.after - ((r.stream side.other).written.length + k) =
      fault.after - (r.stream side.other).written.length - k := Nat.sub_add_eq ..
  refine ⟨fault, j, hf, ?_, hresult, hsource, ?_⟩
  · rw [← hall, List.length_append, hk]
    omega
  · have hfirst : ((r.pending side).take k).take
        (fault.after - (r.stream side.other).written.length) = (r.pending side).take k :=
      List.take_of_length_le (by omega)
    rw [hsink, ← hall, @List.take_append _ ((r.pending side).take k), hk, hsub, hfirst]
    simp [Stream.wrote]

theorem cutOff_refused {fault : WriteFault} (hp : r.pending side ≠ [])
    (hf : (r.stream side.other).fault? = some fault)
    (hz : fault.after - (r.stream side.other).written.length = 0) :
    r.CutOff side (r.finish (.error (.transport fault.error))) := by
  have hpos := List.length_pos_iff.mpr hp
  have hall := @length_pending_le_backlog r side
  refine ⟨fault, 0, hf, by omega, rfl, ?_, ?_⟩
  · simp [Stream.skip]
  · simp [hz, Stream.wrote]

/-- One direction that goes as far as it can, between streams of which the second does not take all
that the first has brought: the relay ends at the write that fails. -/
theorem pump_of_not_takes (n : Nat) (hr : r.result? = none) (hn : r.enough side ≤ n)
    (ht : ¬(r.stream side.other).Takes (r.backlog side).length) :
    r.CutOff side (pump side n r) := by
  induction n generalizing r with
  | zero =>
      unfold enough at hn
      omega
  | succ n ih =>
      unfold pump
      have hm := moves_step r side bufferSize
      have hempty : r.backlog side ≠ [] := by
        intro hb
        refine ht fun fault _ => ?_
        rw [hb]
        exact Nat.zero_le _
      generalize r.step side bufferSize = r' at hm
      cases hm with
      | stopped h =>
          rw [hr] at h
          cases h
      | idle _ hb | ended hb | broken hb => exact absurd hb hempty
      | took k _ hp hi hk =>
          have hless := enough_took (hk (by decide)) hp hi
          refine (ih (result?_took.trans hr) (by omega) ?_).of_took hp
          rw [backlog_took hp, stream_other_took]
          exact ht
      | gave k _ hk hle hroom =>
          have hless := enough_gave hk hle
          refine (ih (result?_gave.trans hr) (by omega) ?_).of_gave hle hroom
          rw [takes_gave_iff hle hroom]
          exact ht
      | refused hp hf hz =>
          rw [pump_of_result n rfl]
          exact cutOff_refused hp hf hz

end pumping

end Relay

end Socks
