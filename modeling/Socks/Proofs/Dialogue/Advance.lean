import Socks.Proofs.Dialogue

/-!
# How far some bytes move a dialogue

`Dialogue.advance` takes a dialogue as far as some bytes allow, all writes succeeding, and stops at
the first field that they do not fill. No stream and no chunk size occurs in it.

Main statements: bytes heard in two parts move a dialogue as far as both at once
(`advance_append`); a dialogue is finished after some bytes exactly when they begin with a complete
conversation (`advance_eq_finished_iff`); and on a stream `Dialogue.resume` goes as far as
`advance` does on the bytes that have arrived (`resume_of_takes`), unless a write fails
(`resume_of_not_takes`).
-/

namespace Socks

/-- Where a dialogue stops on some bytes: how far it has come, what it left unread, and what it
said. -/
structure Pause (α : Type) where
  progress : Progress α
  rest : Bytes
  said : Bytes

namespace Progress

variable {α : Type}

def dialogue : Progress α → Dialogue α
  | finished r => .finish r
  | listening field n next => .read field n next

def meet : Progress α → Ending → Progress α
  | finished r, _ => finished r
  | listening field n next, .awaited => listening field n next
  | listening field _ _, .ended => finished (.error (.transport field.endOfInput))
  | listening _ _ _, .broken e => finished (.error (.transport e))

/-- The ending that is left: a break is met once. -/
def left : Progress α → Ending → Ending
  | listening _ _ _, .broken _ => .ended
  | _, ending => ending

/-- Two blocks of one length that are equal as bytes are treated alike. -/
theorem listening_congr {field : Field} {n m : Nat} {f : Block n → Dialogue α}
    {g : Block m → Dialogue α} (h : n = m) (hfg : ∀ x y, x.bytes = y.bytes → f x = g y) :
    listening field n f = listening field m g := by
  subst h
  congr
  funext x
  exact hfg x x rfl

end Progress

namespace Dialogue

variable {α β : Type}

theorem length_append_block {n : Nat} {input : Bytes} (h : input.length < n)
    (more : Block (n - input.length)) : (input ++ more.bytes).length = n := by
  rw [List.length_append, more.length_bytes]
  omega

theorem length_take_of_not_lt {n : Nat} {input : Bytes} (h : ¬input.length < n) :
    (input.take n).length = n :=
  List.length_take_of_le (Nat.not_lt.mp h)

/-- Goes on as far as some bytes allow. -/
def advance : Dialogue α → Bytes → Pause α
  | finish r, input => ⟨.finished r, input, []⟩
  | read field n next, input =>
    if h : input.length < n then
      ⟨.listening field (n - input.length) fun more =>
          next ⟨input ++ more.bytes, length_append_block h more⟩, [], []⟩
    else (next ⟨input.take n, length_take_of_not_lt h⟩).advance (input.drop n)
  | write bytes next, input =>
    let p := (next (.ok ())).advance input
    { p with said := bytes ++ p.said }

theorem advance_read_of_lt {field : Field} {n : Nat} {next : Block n → Dialogue α} {a : Bytes}
    (h : a.length < n) :
    (read field n next).advance a =
      ⟨.listening field (n - a.length) fun more =>
          next ⟨a ++ more.bytes, length_append_block h more⟩, [], []⟩ := by
  rw [advance, dif_pos h]

theorem advance_read_of_le {field : Field} {n : Nat} {next : Block n → Dialogue α} {a : Bytes}
    (h : n ≤ a.length) :
    (read field n next).advance a =
      (next ⟨a.take n, List.length_take_of_le h⟩).advance (a.drop n) := by
  rw [advance, dif_neg (by omega)]

theorem rest_of_listening {d : Dialogue α} {input rest said : Bytes} {field : Field} {n : Nat}
    {next : Block n → Dialogue α} (h : d.advance input = ⟨.listening field n next, rest, said⟩) :
    rest = [] := by
  induction d generalizing input said with
  | finish r => simp [advance] at h
  | read field' m next' ih =>
      by_cases hm : input.length < m
      · rw [advance_read_of_lt hm] at h
        simp only [Pause.mk.injEq] at h
        exact h.2.1.symm
      · rw [advance_read_of_le (by omega)] at h
        exact ih _ h
  | write bytes next' ih =>
      simp only [advance, Pause.mk.injEq] at h
      exact @ih (.ok ()) input ((next' (.ok ())).advance input).said (by rw [← h.1, ← h.2.1])

section candor

variable {P : Failure → Prop} {L : Failure → Bytes → Prop}

theorem Candid.of_listening {d : Dialogue α} (h : d.Candid P L) {input : Bytes} {field : Field}
    {n : Nat} {next : Block n → Dialogue α}
    (hp : (d.advance input).progress = .listening field n next) :
    (read field n next).Candid P L := by
  induction d generalizing input with
  | finish r => cases hp
  | read field' m next' ih =>
      by_cases hm : input.length < m
      · rw [advance_read_of_lt hm] at hp
        cases hp
        exact fun more => h _
      · rw [advance_read_of_le (by omega)] at hp
        exact ih _ (h _) hp
  | write bytes next' ih =>
      rcases h with ⟨-, hnext⟩ | ⟨f, -, hlast⟩
      · exact ih _ hnext hp
      · simp only [Dialogue.advance, hlast] at hp
        cases hp

theorem Candid.failure {d : Dialogue α} (h : d.Candid P L) {input : Bytes} {f : Failure}
    (hp : (d.advance input).progress = .finished (.error f)) :
    P f ∨ ∃ opening last, (d.advance input).said = opening ++ last ∧ L f last := by
  induction d generalizing input with
  | finish r =>
      cases hp
      exact .inl (h f rfl)
  | read field n next ih =>
      by_cases hn : input.length < n
      · rw [advance_read_of_lt hn] at hp
        cases hp
      · rw [advance_read_of_le (by omega)] at hp ⊢
        exact ih _ (h _) hp
  | write bytes next ih =>
      rcases h with ⟨-, hnext⟩ | ⟨f', hL, hlast⟩
      · refine (ih _ hnext hp).imp_right ?_
        rintro ⟨opening, last, hsaid, hL⟩
        exact ⟨bytes ++ opening, last, by rw [Dialogue.advance, hsaid, List.append_assoc], hL⟩
      · simp only [Dialogue.advance, hlast] at hp ⊢
        cases hp
        exact .inr ⟨[], bytes, by simp, hL⟩

end candor

/-- Bytes heard in two parts move a dialogue as far as both at once. -/
theorem advance_append (d : Dialogue α) (a b : Bytes) :
    d.advance (a ++ b) =
      let p := d.advance a
      let q := p.progress.dialogue.advance (p.rest ++ b)
      ⟨q.progress, q.rest, p.said ++ q.said⟩ := by
  induction d generalizing a with
  | finish r => simp [advance, Progress.dialogue]
  | read field n next ih =>
      have hab : (a ++ b).length = a.length + b.length := List.length_append
      by_cases ha : a.length < n
      · rw [advance_read_of_lt ha]
        simp only [Progress.dialogue, List.nil_append]
        by_cases hb : b.length < n - a.length
        · rw [advance_read_of_lt hb, advance_read_of_lt (a := a ++ b) (by omega)]
          simp only [Pause.mk.injEq, and_true]
          refine Progress.listening_congr (by omega) fun x y hxy => ?_
          congr 2
          rw [List.append_assoc, hxy]
        · rw [advance_read_of_le (a := b) (by omega),
            advance_read_of_le (a := a ++ b) (by omega)]
          have htake : (a ++ b).take n = a ++ b.take (n - a.length) := by
            rw [List.take_append, List.take_of_length_le (by omega)]
          have hdrop : (a ++ b).drop n = b.drop (n - a.length) := by
            rw [List.drop_append, List.drop_of_length_le (by omega), List.nil_append]
          simp only [htake, hdrop]
      · rw [advance_read_of_le (a := a) (by omega),
          advance_read_of_le (a := a ++ b) (by omega)]
        have htake : (a ++ b).take n = a.take n := List.take_append_of_le_length (by omega)
        have hdrop : (a ++ b).drop n = a.drop n ++ b := List.drop_append_of_le_length (by omega)
        simp only [htake, hdrop]
        exact ih _ _
  | write bytes next ih =>
      simp only [advance, ih (.ok ()) a, List.append_assoc]

theorem Reaches.advance_eq {d : Dialogue α} {heard said : Bytes} {r : Except Failure α}
    (h : d.Reaches heard said (finish r)) (rest : Bytes) :
    d.advance (heard ++ rest) = ⟨.finished r, rest, said⟩ := by
  generalize hd' : finish r = d' at h
  induction h with
  | here d =>
      subst hd'
      simp [advance]
  | @read field n next heard said d' b _ ih =>
      obtain ⟨bytes, rfl⟩ := b
      rw [List.append_assoc, advance_read_of_le (by simp)]
      simp only [List.take_left, List.drop_left]
      exact ih hd'
  | write _ ih => simp only [advance, ih hd']

theorem advance_append_of_finished {d : Dialogue α} {a rest said : Bytes} {r : Except Failure α}
    (h : d.advance a = ⟨.finished r, rest, said⟩) (b : Bytes) :
    d.advance (a ++ b) = ⟨.finished r, rest ++ b, said⟩ := by
  rw [advance_append, h]
  simp [Progress.dialogue, advance]

theorem said_advance_prefix (d : Dialogue α) (a b : Bytes) :
    (d.advance a).said <+: (d.advance (a ++ b)).said := by
  rw [advance_append]
  exact List.prefix_append ..

theorem reaches_of_advance (d : Dialogue α) (input : Bytes) :
    ∃ heard got d', input = heard ++ got ∧ d.Reaches heard (d.advance input).said d' ∧
      match (d.advance input).progress with
      | .finished r => d' = finish r ∧ (d.advance input).rest = got
      | .listening field _ _ => ∃ m next, d' = read field m next ∧ got.length < m := by
  induction d generalizing input with
  | finish r => exact ⟨[], input, finish r, rfl, .here _, rfl, rfl⟩
  | read field n next ih =>
      by_cases hn : input.length < n
      · rw [advance_read_of_lt hn]
        exact ⟨[], input, _, rfl, .here _, n, next, rfl, hn⟩
      · rw [advance_read_of_le (by omega)]
        obtain ⟨heard, got, d', e, h, hp⟩ :=
          ih ⟨input.take n, length_take_of_not_lt hn⟩ (input.drop n)
        refine ⟨input.take n ++ heard, got, d', ?_, .read _ h, hp⟩
        rw [List.append_assoc, ← e, List.take_append_drop]
  | write bytes next ih =>
      obtain ⟨heard, got, d', e, h, hp⟩ := ih (.ok ()) input
      exact ⟨heard, got, d', e, .write h, hp⟩

/-- A dialogue is finished after some bytes exactly when they begin with a complete conversation. -/
theorem advance_eq_finished_iff {d : Dialogue α} {input rest said : Bytes} {r : Except Failure α} :
    d.advance input = ⟨.finished r, rest, said⟩ ↔
      ∃ heard, input = heard ++ rest ∧ d.Reaches heard said (finish r) := by
  constructor
  · intro h
    obtain ⟨heard, got, d', e, hr, hp⟩ := reaches_of_advance d input
    rw [h] at hr hp
    obtain ⟨rfl, rfl⟩ := hp
    exact ⟨heard, e, hr⟩
  · rintro ⟨heard, rfl, h⟩
    exact h.advance_eq rest

/-! ### On a stream -/

/-- On a stream that takes what is said, a dialogue goes as far as the bytes that have arrived lead
it, and meets the ending of the stream if it still listens then. -/
theorem resume_of_takes {d : Dialogue α} {s : Stream}
    (h : s.Takes (d.advance s.incoming).said.length) :
    d.resume s =
      let p := d.advance s.incoming
      (p.progress.meet s.ending,
        { s with
          incoming := p.rest
          ending := p.progress.left s.ending
          written := s.written ++ p.said }) := by
  induction d generalizing s with
  | finish r => simp [advance, resume, Progress.meet, Progress.left]
  | read field n next ih =>
      by_cases hn : s.incoming.length < n
      · rw [advance_read_of_lt hn]
        cases he : s.ending with
        | awaited =>
            obtain ⟨fits, hg⟩ := Stream.gather_partly hn he
            simp [resume, hg, Progress.meet, Progress.left, Stream.drained, he]
        | ended =>
            simp [resume, Stream.gather_ended hn he, Progress.meet, Progress.left, Stream.drained,
              he]
        | broken e =>
            simp [resume, Stream.gather_broken hn he, Progress.meet, Progress.left, Stream.drained,
              Stream.close]
      · obtain ⟨hb, hg⟩ := Stream.gather_full (show n ≤ s.incoming.length by omega)
        rw [advance_read_of_le (by omega)] at h ⊢
        simp only [resume, hg]
        exact ih _ (s := s.skip n) h
  | write bytes next ih =>
      simp only [advance, List.length_append] at h
      have h₁ : s.Takes bytes.length := by
        intro fault hf
        have hroom := h fault hf
        omega
      have h₂ : (s.wrote bytes).Takes ((next (.ok ())).advance s.incoming).said.length := by
        intro fault hf
        have hroom := h fault hf
        simp only [Stream.wrote, List.length_append]
        omega
      simp only [resume, Stream.writeAll_of_takes h₁]
      rw [ih (.ok ()) (s := s.wrote bytes) h₂]
      simp [advance, Stream.wrote, List.append_assoc]

theorem take_said_of_takes {bytes more : Bytes} {room : Nat} (h : bytes.length ≤ room) :
    (bytes ++ more).take room = bytes ++ more.take (room - bytes.length) := by
  rw [List.take_append, List.take_of_length_le h]

section cut

variable {P : Failure → Prop} {L : Failure → Bytes → Prop} {p : Pause α} {room : Nat} {e : IoError}
  {f : Failure}

/-- The failure that ends a dialogue which would come to `p` and can say no more than `room` bytes,
when a write fails with `e`: this very error, or the one about which it was saying its last
words. -/
inductive Blamed (P : Failure → Prop) (L : Failure → Bytes → Prop) (p : Pause α) (room : Nat)
    (e : IoError) : Failure → Prop
  | write :
      (∀ f, p.progress = .finished (.error f) →
        P f ∨ ∃ opening last, p.said = opening ++ last ∧ L f last ∧ room < opening.length) →
        Blamed P L p room e (.transport e)
  | last {f : Failure} {opening last : Bytes} :
      p.progress = .finished (.error f) → p.said = opening ++ last → L f last →
      opening.length ≤ room → Blamed P L p room e f

/-- What has been said whole before does not change who is to blame. -/
theorem Blamed.say {bytes : Bytes} (hle : bytes.length ≤ room)
    (h : Blamed P L p (room - bytes.length) e f) :
    Blamed P L { p with said := bytes ++ p.said } room e f := by
  cases h with
  | write h =>
      refine .write fun f hp => (h f hp).imp_right ?_
      rintro ⟨opening, last, hsaid, hL, hlt⟩
      refine ⟨bytes ++ opening, last, ?_, hL, ?_⟩
      · rw [hsaid, List.append_assoc]
      · rw [List.length_append]
        omega
  | @last f opening last hp hsaid hL hfits =>
      have hall : bytes ++ p.said = (bytes ++ opening) ++ last := by rw [hsaid, List.append_assoc]
      refine .last hp hall hL ?_
      rw [List.length_append]
      omega

/-- A candid dialogue ends at a message that the stream does not take whole. -/
theorem resume_write_of_not_takes {bytes : Bytes} {next : Except IoError Unit → Dialogue α}
    {s : Stream} (hd : (write bytes next).Candid P L) (h : ¬s.Takes bytes.length) :
    ∃ fault f, s.fault? = some fault ∧ fault.after - s.written.length < bytes.length ∧
      (write bytes next).resume s =
        (.finished (.error f), s.wrote (bytes.take (fault.after - s.written.length))) ∧
      Blamed P L ((write bytes next).advance s.incoming) (fault.after - s.written.length)
        fault.error f := by
  obtain ⟨fault, hf, hlt, e⟩ := Stream.writeAll_of_not_takes h
  rcases hd with ⟨hfails, hnext⟩ | ⟨f, hL, hlast⟩
  · refine ⟨fault, .transport fault.error, hf, hlt, by simp only [resume, e, hfails], .write ?_⟩
    intro f hp
    refine (hnext.failure hp).imp_right ?_
    rintro ⟨opening, last, hsaid, hL⟩
    refine ⟨bytes ++ opening, last, by rw [advance, hsaid, List.append_assoc], hL, ?_⟩
    rw [List.length_append]
    omega
  · refine ⟨fault, f, hf, hlt, by simp only [resume, e, hlast], ?_⟩
    have hsaid : ((write bytes next).advance s.incoming).said = [] ++ bytes := by
      simp [advance, hlast]
    exact .last (by simp only [advance, hlast]) hsaid hL (Nat.zero_le _)

/-- On a stream that does not take all that would be said, a candid dialogue ends in failure, and
what it said is cut off there. -/
theorem resume_of_not_takes {d : Dialogue α} {s : Stream} (hd : d.Candid P L)
    (h : ¬s.Takes (d.advance s.incoming).said.length) :
    ∃ fault f rest, s.fault? = some fault ∧ rest <:+ s.incoming ∧
      fault.after - s.written.length < (d.advance s.incoming).said.length ∧
      d.resume s =
        (.finished (.error f),
          { s with
            incoming := rest
            written := s.written ++
              (d.advance s.incoming).said.take (fault.after - s.written.length) }) ∧
      Blamed P L (d.advance s.incoming) (fault.after - s.written.length) fault.error f := by
  induction d generalizing s with
  | finish r =>
      refine absurd (fun fault hf => ?_) h
      simp [advance]
  | read field n next ih =>
      by_cases hn : s.incoming.length < n
      · rw [advance_read_of_lt hn] at h
        exact absurd (fun fault hf => Nat.zero_le _) h
      · obtain ⟨hb, hg⟩ := Stream.gather_full (show n ≤ s.incoming.length by omega)
        rw [advance_read_of_le (by omega)] at h ⊢
        obtain ⟨fault, f, rest, hf, hrest, hlt, e, hblamed⟩ := ih _ (s := s.skip n) (hd _) h
        refine ⟨fault, f, rest, hf, hrest.trans (List.drop_suffix _ _), hlt, ?_, hblamed⟩
        simp only [resume, hg]
        exact e
  | write bytes next ih =>
      by_cases h₁ : s.Takes bytes.length
      · have h₂ : ¬(s.wrote bytes).Takes ((next (.ok ())).advance s.incoming).said.length := by
          intro ht
          refine h fun fault hf => ?_
          have h₃ := ht fault hf
          have h₄ := h₁ fault hf
          simp only [advance, Stream.wrote, List.length_append] at h₃ ⊢
          omega
        have hnext : (next (.ok ())).Candid P L := by
          rcases hd with ⟨-, hnext⟩ | ⟨f, -, hlast⟩
          · exact hnext
          · -- After the last words nothing is left to be cut off.
            rw [hlast] at h₂
            exact absurd (fun fault hf => Nat.zero_le _) h₂
        obtain ⟨fault, f, rest, hf, hrest, hlt, e, hblamed⟩ :=
          ih (.ok ()) (s := s.wrote bytes) hnext h₂
        have hroom := h₁ fault hf
        have hl : (s.wrote bytes).written.length = s.written.length + bytes.length :=
          List.length_append
        rw [hl, Nat.sub_add_eq] at hlt e hblamed
        refine ⟨fault, f, rest, hf, hrest, ?_, ?_, hblamed.say hroom⟩
        · simp only [advance, List.length_append, Stream.wrote] at hlt ⊢
          omega
        · simp only [resume, Stream.writeAll_of_takes h₁, e, advance, take_said_of_takes hroom]
          simp [Stream.wrote, List.append_assoc]
      · obtain ⟨fault, f, hf, hlt, e, hblamed⟩ := resume_write_of_not_takes hd h₁
        refine ⟨fault, f, s.incoming, hf, List.suffix_refl _, ?_, ?_, hblamed⟩
        · simp only [advance, List.length_append]
          omega
        · rw [e, advance, List.take_append_of_le_length (by omega)]
          rfl

/-- Why a candid dialogue ends in failure on a stream: it fails by itself, the client ends or breaks
off, or a write fails. -/
theorem Candid.cause {d : Dialogue α} {s s' : Stream} (hd : d.Candid P L)
    (h : d.resume s = (.finished (.error f), s')) :
    P f ∨ (∃ last, L f last) ∨ (∃ field : Field, f = .transport field.endOfInput) ∨
      ∃ e, f = .transport e ∧ (s.ending = .broken e ∨ ∃ fault, s.fault? = some fault ∧
        fault.error = e) := by
  by_cases ht : s.Takes (d.advance s.incoming).said.length
  · rw [resume_of_takes ht] at h
    simp only [Prod.mk.injEq] at h
    cases hp : (d.advance s.incoming).progress with
    | finished r =>
        rw [hp] at h
        obtain ⟨hr, -⟩ := h
        cases hr
        exact (hd.failure hp).imp_right fun ⟨_, last, _, hL⟩ => .inl ⟨last, hL⟩
    | listening field n next =>
        rw [hp] at h
        cases he : s.ending with
        | awaited => rw [he] at h; cases h.1
        | ended =>
            rw [he] at h
            cases h.1
            exact .inr (.inr (.inl ⟨field, rfl⟩))
        | broken e =>
            rw [he] at h
            cases h.1
            exact .inr (.inr (.inr ⟨e, rfl, .inl rfl⟩))
  · obtain ⟨fault, f', rest, hfault, -, -, hresume, hblamed⟩ := resume_of_not_takes hd ht
    rw [hresume] at h
    cases h
    cases hblamed with
    | write => exact .inr (.inr (.inr ⟨_, rfl, .inr ⟨fault, hfault, rfl⟩⟩))
    | last hp hsaid hL hle => exact .inr (.inl ⟨_, hL⟩)

end cut

end Dialogue

end Socks
