import Socks.Proofs.Relay

/-!
# What a relay passes on, and how it ends

The two directions of a relay take turns in any order, and between two turns anything may happen to
its streams: bytes arrive, a stream ends or breaks, takes smaller pieces than before, or takes
nothing any more. A direction whose writes are slow may also read on before it has written all that
it read.

Main statement: `Relay.keeps_integrity`. What has been written to one stream is at any moment a
first part of what has been read from the other one; the first direction that comes to an end ends
the relay, with its own outcome; and then nothing more is written.
-/

namespace Socks

namespace Relay

/-- What happens to a relay: the direction that copies a side takes a turn, or reads on, or one of
the streams changes. A stream that refuses fails every write from then on. -/
inductive Incident where
  | turn (side : Side) (limit : Nat)
  | ahead (side : Side) (limit : Nat)
  | arrives (side : Side) (bytes : Bytes)
  | ends (side : Side)
  | breaks (side : Side) (error : IoError)
  | paces (side : Side) (readChunk? writeChunk? : Option Chunk)
  | refuses (side : Side) (error : IoError)

/-- Reads at most `limit` bytes more, although some may be pending. The end of the stream is left
for a turn to meet, when nothing is pending. -/
def readAhead (r : Relay) (side : Side) (limit : Nat) : Relay :=
  match r.result?, (r.stream side).read limit with
  | none, (.bytes more _, s) => (r.withStream side s).withPending side (r.pending side ++ more)
  | none, (.broken e, s) => (r.withStream side s).finish (.error (.transport e))
  | _, _ => r

/-- The relay after an incident. -/
def undergo (r : Relay) : Incident → Relay
  | .turn side limit => r.step side limit
  | .ahead side limit => r.readAhead side limit
  | .arrives side bytes => r.withStream side ((r.stream side).arrive bytes)
  | .ends side => r.withStream side (r.stream side).close
  | .breaks side e => r.withStream side ((r.stream side).breakOff e)
  | .paces side readChunk? writeChunk? =>
    r.withStream side { r.stream side with readChunk? := readChunk?, writeChunk? := writeChunk? }
  | .refuses side e => r.withStream side { r.stream side with fault? := some ⟨0, e⟩ }

/-- The relay after a number of incidents. -/
def after (r : Relay) (incidents : List Incident) : Relay := incidents.foldl undergo r

/-- The bytes of a side that arrive with an incident. -/
def Incident.brings (side : Side) : Incident → Bytes
  | arrives side' bytes => if side = side' then bytes else []
  | _ => []

/-- All the bytes of a side that arrive in the course of some incidents. -/
def brought (side : Side) (incidents : List Incident) : Bytes :=
  incidents.flatMap (Incident.brings side)

/-- What the direction that copies a side comes to at its turn, if that is an end: of its stream, or
by an error of the read or write that it makes. -/
def outcome? (r : Relay) (side : Side) (limit : Nat) : Option (Except IoError Unit) :=
  match r.pending side with
  | [] =>
    match ((r.stream side).read limit).1 with
    | .ended => some (.ok ())
    | .broken e => some (.error e)
    | _ => none
  | b :: more =>
    match ((r.stream side.other).write (b :: more)).1 with
    | .error e => some (.error e)
    | .ok _ => none

/-- What a direction comes to that reads on, if that is an error. -/
def aheadOutcome? (r : Relay) (side : Side) (limit : Nat) : Option (Except IoError Unit) :=
  match ((r.stream side).read limit).1 with
  | .broken e => some (.error e)
  | _ => none

/-- The direction that comes to an end with an incident, if one does, and its outcome. -/
def ending? (r : Relay) : Incident → Option (Side × Except IoError Unit)
  | .turn side limit => (r.outcome? side limit).map (Prod.mk side)
  | .ahead side limit => (r.aheadOutcome? side limit).map (Prod.mk side)
  | _ => none

/-- After the incidents `before`, the incident `last` is the first with which a direction comes to
an end. -/
structure FirstEnding (r : Relay) (before : List Incident) (last : Incident) (side : Side)
    (outcome : Except IoError Unit) : Prop where
  ends : (r.after before).ending? last = some (side, outcome)
  first : ∀ earlier incident later, before = earlier ++ incident :: later →
    (r.after earlier).ending? incident = none

variable {r : Relay} {side : Side} {limit : Nat} {incident : Incident} {incidents : List Incident}

theorem after_cons (r : Relay) (incident : Incident) (incidents : List Incident) :
    r.after (incident :: incidents) = (r.undergo incident).after incidents := rfl

theorem after_append (r : Relay) (a b : List Incident) :
    r.after (a ++ b) = (r.after a).after b := List.foldl_append ..

@[simp] theorem brought_cons (side : Side) (incident : Incident) (incidents : List Incident) :
    brought side (incident :: incidents) = incident.brings side ++ brought side incidents := rfl

/-! ### How an incident ends a relay -/

/-- A relay that is over stays as it ended. -/
theorem result?_undergo_of_over {result : Except Failure Unit} (h : r.result? = some result)
    (incident : Incident) : (r.undergo incident).result? = some result := by
  cases incident with
  | turn => simp [undergo, step, h]
  | ahead => simp [undergo, readAhead, h]
  | arrives | ends | breaks | paces | refuses => simp [undergo, h]

theorem result?_step (h : r.result? = none) (side : Side) (limit : Nat) :
    (r.step side limit).result? = (r.outcome? side limit).map (Except.mapError .transport) := by
  unfold step outcome?
  rw [h]
  cases hp : r.pending side with
  | nil =>
      simp only [readStep]
      split <;> simp_all [Except.mapError]
  | cons b more =>
      simp only [writeStep, hp]
      split <;> simp_all [Except.mapError]

theorem result?_readAhead (h : r.result? = none) (side : Side) (limit : Nat) :
    (r.readAhead side limit).result? =
      (r.aheadOutcome? side limit).map (Except.mapError .transport) := by
  unfold readAhead aheadOutcome?
  rw [h]
  cases hread : (r.stream side).read limit with
  | mk arrival s => cases arrival <;> simp [Except.mapError, h]

/-- A relay that goes on ends with an incident exactly if a direction comes to an end with it, and
with the outcome of that direction. -/
theorem result?_undergo (h : r.result? = none) (incident : Incident) :
    (r.undergo incident).result? =
      (r.ending? incident).map fun ending => ending.2.mapError .transport := by
  cases incident with
  | turn side limit =>
      simp only [undergo, ending?, result?_step h, Option.map_map]
      rfl
  | ahead side limit =>
      simp only [undergo, ending?, result?_readAhead h, Option.map_map]
      rfl
  | arrives | ends | breaks | paces | refuses => simp [undergo, ending?, h]

theorem result?_after_of_over {result : Except Failure Unit} (h : r.result? = some result)
    (incidents : List Incident) : (r.after incidents).result? = some result := by
  induction incidents generalizing r with
  | nil => exact h
  | cons incident incidents ih => exact ih (result?_undergo_of_over h incident)

theorem FirstEnding.of_cons {before : List Incident} {last : Incident} {side : Side}
    {outcome : Except IoError Unit} (h : r.FirstEnding (incident :: before) last side outcome) :
    (r.undergo incident).FirstEnding before last side outcome := by
  refine ⟨h.ends, fun earlier incident' later he => ?_⟩
  exact h.first (incident :: earlier) incident' later (by rw [he, List.cons_append])

theorem FirstEnding.cons {before : List Incident} {last : Incident} {side : Side}
    {outcome : Except IoError Unit} (h : (r.undergo incident).FirstEnding before last side outcome)
    (hi : r.ending? incident = none) : r.FirstEnding (incident :: before) last side outcome := by
  refine ⟨h.ends, fun earlier incident' later he => ?_⟩
  cases earlier with
  | nil =>
      rw [List.nil_append, List.cons.injEq] at he
      rw [← he.1]
      exact hi
  | cons _ earlier =>
      rw [List.cons_append, List.cons.injEq] at he
      rw [← he.1]
      exact h.first earlier incident' later he.2

/-- A relay is over exactly if a direction has come to an end, and it ends with the outcome of the
first one that does. -/
theorem result?_after_eq_some_iff (h : r.result? = none) {result : Except Failure Unit} :
    (r.after incidents).result? = some result ↔
      ∃ before last later side outcome, incidents = before ++ last :: later ∧
        r.FirstEnding before last side outcome ∧ result = outcome.mapError .transport := by
  induction incidents generalizing r with
  | nil =>
      constructor
      · intro hover
        rw [after, List.foldl_nil, h] at hover
        cases hover
      · rintro ⟨before, last, later, _, _, he, -⟩
        exact absurd he (by simp)
  | cons incident incidents ih =>
      rw [after_cons]
      have hresult := result?_undergo h incident
      cases hending : r.ending? incident with
      | none =>
          rw [hending] at hresult
          rw [ih hresult]
          constructor
          · rintro ⟨before, last, later, side, outcome, rfl, hfirst, hres⟩
            exact ⟨incident :: before, last, later, side, outcome, rfl, hfirst.cons hending, hres⟩
          · rintro ⟨before, last, later, side, outcome, he, hfirst, hres⟩
            cases before with
            | nil =>
                rw [List.nil_append, List.cons.injEq] at he
                have hends : r.ending? last = some (side, outcome) := hfirst.ends
                rw [← he.1, hending] at hends
                cases hends
            | cons _ before =>
                rw [List.cons_append, List.cons.injEq] at he
                obtain ⟨rfl, he⟩ := he
                exact ⟨before, last, later, side, outcome, he, hfirst.of_cons, hres⟩
      | some ending =>
          obtain ⟨side, outcome⟩ := ending
          rw [hending] at hresult
          rw [result?_after_of_over hresult]
          constructor
          · intro hres
            exact ⟨[], incident, incidents, side, outcome, rfl, ⟨hending, by simp⟩,
              (Option.some.inj hres).symm⟩
          · rintro ⟨before, last, later, side', outcome', he, hfirst, rfl⟩
            cases before with
            | nil =>
                rw [List.nil_append, List.cons.injEq] at he
                have hends : r.ending? last = some (side', outcome') := hfirst.ends
                rw [← he.1, hending] at hends
                cases hends
                rfl
            | cons _ before =>
                rw [List.cons_append, List.cons.injEq] at he
                have hnone := hfirst.first [] incident before (by rw [he.1]; rfl)
                have hsome : r.ending? incident = none := hnone
                rw [hending] at hsome
                cases hsome

/-- Up to its first ending a relay goes on, and with it the relay is over. -/
theorem FirstEnding.over {before : List Incident} {last : Incident} {side : Side}
    {outcome : Except IoError Unit} (hf : r.FirstEnding before last side outcome)
    (h : r.result? = none) :
    ((r.after before).undergo last).result? = some (outcome.mapError .transport) := by
  have hgoing : (r.after before).result? = none := by
    by_contra hne
    obtain ⟨result, hover⟩ := Option.ne_none_iff_exists'.mp hne
    obtain ⟨earlier, incident, later, _, _, he, hfirst, -⟩ :=
      (result?_after_eq_some_iff h).mp hover
    have hends := hfirst.ends
    rw [hf.first earlier incident later he] at hends
    cases hends
  rw [result?_undergo hgoing, hf.ends]
  rfl

/-! ### What an incident does to the bytes -/

theorem flow_withStream {s : Stream} (hi : s.incoming = (r.stream side).incoming)
    (hw : s.written = (r.stream side).written) (side' : Side) :
    (r.withStream side s).flow side' = r.flow side' := by
  rcases Side.eq_or_eq_other side' side with rfl | rfl <;> simp [flow, hi, hw]

theorem flow_readAhead (r : Relay) (side side' : Side) (limit : Nat) :
    (r.readAhead side limit).flow side' = r.flow side' := by
  unfold readAhead
  cases hr : r.result? with
  | some result => rfl
  | none =>
      cases hi : (r.stream side).incoming with
      | nil =>
          cases he : (r.stream side).ending with
          | awaited | ended => simp only [Stream.read, hi, he]
          | broken e => simp only [Stream.read, hi, he, flow_finish, flow_close]
      | cons b more =>
          simp only [Stream.read, hi]
          rcases Side.eq_or_eq_other side' side with rfl | rfl
          · simp [flow, hi]
          · simp [flow]

/-- No incident loses a byte, and none invents one that does not arrive with it. -/
theorem flow_undergo (r : Relay) (incident : Incident) (side : Side) :
    (r.undergo incident).flow side = r.flow side ++ incident.brings side := by
  cases incident with
  | turn side' limit => simp [undergo, Incident.brings, (moves_step r side' limit).flow]
  | ahead side' limit => simp [undergo, Incident.brings, flow_readAhead]
  | arrives side' bytes => exact flow_arrive r side' side bytes
  | ends side' => simp [undergo, Incident.brings, flow_close]
  | breaks side' e => simp [undergo, Incident.brings, flow_breakOff]
  | paces side' | refuses side' =>
      refine Eq.trans ?_ (List.append_nil _).symm
      exact flow_withStream (by rfl) (by rfl) side

theorem flow_after (r : Relay) (incidents : List Incident) (side : Side) :
    (r.after incidents).flow side = r.flow side ++ brought side incidents := by
  induction incidents generalizing r with
  | nil => exact (List.append_nil _).symm
  | cons incident incidents ih =>
      rw [after_cons, ih, flow_undergo, brought_cons, List.append_assoc]

/-! ### What an incident writes -/

theorem written_withStream {s : Stream} (hw : s.written = (r.stream side).written) (side' : Side) :
    ((r.withStream side s).stream side').written = (r.stream side').written := by
  rcases Side.eq_or_eq_other side' side with rfl | rfl <;> simp [hw]

theorem written_readAhead (r : Relay) (side side' : Side) (limit : Nat) :
    ((r.readAhead side limit).stream side').written = (r.stream side').written := by
  unfold readAhead
  cases hr : r.result? with
  | some result => rfl
  | none =>
      cases hi : (r.stream side).incoming with
      | nil =>
          cases he : (r.stream side).ending with
          | awaited | ended => simp only [Stream.read, hi, he]
          | broken e =>
              simp only [Stream.read, hi, he, stream_finish]
              exact written_withStream (by rfl) side'
      | cons b more =>
          simp only [Stream.read, hi, stream_withPending]
          exact written_withStream (by rfl) side'

/-- An incident writes nothing to a stream, or it is a turn that leaves the relay to go on. -/
theorem written_undergo (r : Relay) (incident : Incident) (side : Side) :
    ((r.undergo incident).stream side).written = (r.stream side).written ∨
      ∃ side' k, r.result? = none ∧ r.undergo incident = r.gave side' k := by
  cases incident with
  | turn side' limit =>
      have hm := moves_step r side' limit
      simp only [undergo]
      generalize r.step side' limit = r' at hm ⊢
      cases hm with
      | gave k hr => exact .inr ⟨side', k, hr, rfl⟩
      | stopped | idle => exact .inl rfl
      | ended | refused => exact .inl (by rw [stream_finish])
      | took k =>
          rw [took, stream_withPending]
          exact .inl (written_withStream (by rfl) side)
      | broken =>
          rw [stream_finish]
          exact .inl (written_withStream (by rfl) side)
  | ahead side' limit => exact .inl (written_readAhead ..)
  | arrives | ends | breaks | paces | refuses => exact .inl (written_withStream (by rfl) side)

theorem written_prefix_gave (r : Relay) (side side' : Side) (k : Nat) :
    (r.stream side).written <+: ((r.gave side' k).stream side).written := by
  rw [gave, stream_withPending]
  rcases Side.eq_or_eq_other side side'.other with rfl | rfl
  · rw [stream_withStream]
    exact List.prefix_append ..
  · simp only [stream_other_withStream, List.prefix_refl]

/-- What has been written stays written. -/
theorem written_prefix_after (r : Relay) (incidents : List Incident) (side : Side) :
    (r.stream side).written <+: ((r.after incidents).stream side).written := by
  induction incidents generalizing r with
  | nil => exact List.prefix_refl _
  | cons incident incidents ih =>
      refine List.IsPrefix.trans ?_ (ih (r.undergo incident))
      rcases written_undergo r incident side with h | ⟨side', k, -, h⟩
      · exact h ▸ List.prefix_refl _
      · rw [h]
        exact written_prefix_gave ..

/-- An incident with which a relay is over writes nothing. -/
theorem written_undergo_of_over (h : (r.undergo incident).result? ≠ none) (side : Side) :
    ((r.undergo incident).stream side).written = (r.stream side).written := by
  rcases written_undergo r incident side with hw | ⟨side', k, hr, hgave⟩
  · exact hw
  · rw [hgave, result?_gave, hr] at h
    exact absurd rfl h

theorem written_after_of_over {result : Except Failure Unit} (h : r.result? = some result)
    (incidents : List Incident) (side : Side) :
    ((r.after incidents).stream side).written = (r.stream side).written := by
  induction incidents generalizing r with
  | nil => rfl
  | cons incident incidents ih =>
      have hover := result?_undergo_of_over h incident
      rw [after_cons, ih hover, written_undergo_of_over (by simp [hover])]

/-! ### The relay as a whole -/

/-- What has been written to one stream is a first part of what has been read from the other: of
what was there and what arrived, less what is still unread. -/
theorem written_prefix_read (a b : Stream) (incidents : List Incident) (side : Side) :
    let r₀ := start a b
    let r := r₀.after incidents
    ∃ read written,
      read ++ (r.stream side).incoming = (r₀.stream side).incoming ++ brought side incidents ∧
      (r.stream side.other).written = (r₀.stream side.other).written ++ written ∧
      written <+: read := by
  intro r₀ r
  have hflow := flow_after r₀ incidents side
  obtain ⟨written, hw⟩ := written_prefix_after r₀ incidents side.other
  have hpending : r₀.pending side = [] := by cases side <;> rfl
  refine ⟨written ++ r.pending side, written, ?_, hw.symm, List.prefix_append ..⟩
  simp only [flow, ← hw, hpending, List.append_nil, List.append_assoc,
    List.append_cancel_left_eq] at hflow
  rw [List.append_assoc]
  exact hflow

/-- A direction that ends because its stream has ended has written all that the stream brought. -/
theorem all_written_of_ended (h : r.ending? incident = some (side, .ok ())) :
    r.backlog side = [] ∧ (r.stream side).ending = .ended := by
  cases incident with
  | turn side' limit =>
      simp only [ending?, Option.map_eq_some_iff, Prod.mk.injEq] at h
      obtain ⟨outcome, ho, rfl, rfl⟩ := h
      unfold outcome? at ho
      split at ho
      · rename_i hp
        cases hi : (r.stream side').incoming with
        | cons b more => simp [Stream.read, hi] at ho
        | nil =>
            cases he : (r.stream side').ending with
            | ended => exact ⟨backlog_eq_nil_iff.mpr ⟨hp, hi⟩, rfl⟩
            | awaited | broken => simp [Stream.read, hi, he] at ho
      · split at ho <;> simp at ho
  | ahead side' limit =>
      simp only [ending?, aheadOutcome?, Option.map_eq_some_iff, Prod.mk.injEq] at h
      obtain ⟨outcome, ho, rfl, rfl⟩ := h
      split at ho <;> simp at ho
  | arrives | ends | breaks | paces | refuses => cases h

theorem FirstEnding.whole {a b : Stream} {before : List Incident} {last : Incident} {side : Side}
    (h : (start a b).FirstEnding before last side (.ok ())) :
    (((start a b).after before).stream side.other).written =
      ((start a b).stream side.other).written ++
        (((start a b).stream side).incoming ++ brought side before) := by
  obtain ⟨hb, -⟩ := all_written_of_ended h.ends
  obtain ⟨hp, hi⟩ := backlog_eq_nil_iff.mp hb
  have hflow := flow_after (start a b) before side
  have hpending : (start a b).pending side = [] := by cases side <;> rfl
  simpa only [flow, hp, hi, hpending, List.append_nil, List.append_assoc] using hflow

theorem pump_eq_after (side : Side) (n : Nat) (r : Relay) :
    pump side n r = r.after (List.replicate n (.turn side bufferSize)) := by
  induction n generalizing r with
  | zero => rfl
  | succ n ih =>
      rw [pump, ih, List.replicate_succ, after_cons]
      rfl

/-- To copy all that has arrived is to take turns. -/
theorem settle_eq_after (r : Relay) :
    ∃ turns, r.settle = r.after turns ∧ ∀ i ∈ turns, ∃ side, i = .turn side bufferSize := by
  simp only [settle, pump_eq_after, ← after_append]
  refine ⟨_, rfl, fun i hi => ?_⟩
  rcases List.mem_append.mp hi with hi | hi
  · exact ⟨.left, List.eq_of_mem_replicate hi⟩
  · exact ⟨.right, List.eq_of_mem_replicate hi⟩

/-- In whatever order a relay takes its turns, and whatever happens to its streams between them:
what has been written to one stream is a first part of what has been read from the other; the relay
is over as soon as one direction comes to an end, of its stream or by an error, and ends with the
outcome of the first that does; from then on nothing is written; and a direction that ended because
its stream did has written all that the stream brought. A session relays in one of these orders. -/
theorem keeps_integrity (a b : Stream) (incidents : List Incident) :
    let r₀ := start a b
    let r := r₀.after incidents
    (∀ side, ∃ read written,
      read ++ (r.stream side).incoming = (r₀.stream side).incoming ++ brought side incidents ∧
      (r.stream side.other).written = (r₀.stream side.other).written ++ written ∧
      written <+: read) ∧
    (∀ result, r.result? = some result ↔
      ∃ before last later side outcome, incidents = before ++ last :: later ∧
        r₀.FirstEnding before last side outcome ∧ result = outcome.mapError .transport) ∧
    (∀ before last later side outcome, incidents = before ++ last :: later →
      r₀.FirstEnding before last side outcome →
        (∀ side', (r.stream side').written = ((r₀.after before).stream side').written) ∧
        (outcome = .ok () → (r.stream side.other).written =
          (r₀.stream side.other).written ++ ((r₀.stream side).incoming ++ brought side before))) ∧
    ∃ turns, r.settle = r.after turns ∧ ∀ i ∈ turns, ∃ side, i = .turn side bufferSize := by
  intro r₀ r
  refine ⟨written_prefix_read a b incidents, fun result => result?_after_eq_some_iff rfl, ?_,
    settle_eq_after r⟩
  rintro before last later side outcome he hfirst
  have hover := hfirst.over rfl
  have hkept : ∀ side', (r.stream side').written = ((r₀.after before).stream side').written := by
    intro side'
    have hr : r = ((r₀.after before).undergo last).after later := by
      rw [← after_cons, ← after_append, ← he]
    rw [hr, written_after_of_over hover, written_undergo_of_over (by simp [hover])]
  refine ⟨hkept, ?_⟩
  rintro rfl
  rw [hkept, hfirst.whole]

/-- The right stream ends while the left direction still holds a byte: the relay is over, and what
was held is not written any more. -/
theorem keeps_integrity_cut_short :
    let before : List Incident :=
      [.arrives .left [104, 105], .turn .left 1, .arrives .right [111], .ends .right,
        .turn .right 8, .turn .right 8]
    let incidents := before ++ .turn .right 8 :: [.turn .left 8, .turn .left 8]
    let r := (start .idle .idle).after incidents
    (start .idle .idle).FirstEnding before (.turn .right 8) .right (.ok ()) ∧
      r.result? = some (.ok ()) ∧ r.fromLeft = [104] ∧ r.left.written = [111] ∧
      r.right.written = [] := by
  intro before incidents r
  have hfirst : (start .idle .idle).FirstEnding before (.turn .right 8) .right (.ok ()) := by
    exact .cons (.cons (.cons (.cons (.cons (.cons ⟨rfl, by simp⟩ rfl) rfl) rfl) rfl) rfl) rfl
  obtain ⟨-, hends, hkept, -⟩ := keeps_integrity .idle .idle incidents
  obtain ⟨hstays, hall⟩ := hkept before _ _ .right _ rfl hfirst
  refine ⟨hfirst, (hends _).mpr ⟨before, _, _, _, _, rfl, hfirst, rfl⟩, rfl, hall rfl, ?_⟩
  exact (hstays .right).trans rfl

end Relay

end Socks
