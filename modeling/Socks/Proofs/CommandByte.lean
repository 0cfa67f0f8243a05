import Socks.Proofs.Dialogue.Truncation
import Socks.Proofs.RequestFaults

/-!
# The command octet of a request

The command octet decides the command and nothing else: which octets are read, and what else can be
wrong with them, does not depend on it. A command that there is not is found last. It is reported,
and replied to, when everything else of the request has been read and is in order.

`Dialogue.Revised` relates two dialogues that hear and say the same and differ in what they make of
it. A request is read as if its command were CONNECT, up to this (`Request.eval_read_code`).

Main statement: `Handshake.command_judged_last`.
-/

namespace Socks

open Dialogue

/-! ### Dialogues that differ in their results -/

namespace Dialogue

variable {α β : Type} {g : β → Except Failure β}

/-- `d.Revised g d'`: on all octets `d'` hears and says what `d` does, and comes to what `g` makes
of its result. -/
def Revised (g : β → Except Failure β) (d d' : Dialogue β) : Prop :=
  ∀ input, d'.eval input = ⟨(d.eval input).result.bind g, (d.eval input).rest, (d.eval input).said⟩

theorem Revised.after {f f' : α → Dialogue β} (h : ∀ a, (f a).Revised g (f' a)) (d : Dialogue α) :
    (d >>= f).Revised g (d >>= f') := by
  intro input
  rw [eval_bind, eval_bind]
  cases (d.eval input).result with
  | ok a => simp only [h a (d.eval input).rest]
  | error e => rfl

/-- Where a reader fails, an attempt of it goes on with the failure, unless the input has ended. -/
theorem Fails.attempt_bind {P : Failure → Prop} {d : Dialogue α}
    {f : Except Failure α → Dialogue β} {e : Failure} {input rest last : Bytes}
    (h : d.Fails input rest e) (hd : d.Listens P)
    (hf : ∀ left, (f (.error e)).eval left = ⟨.error e, left, last⟩)
    (hend : ∀ field : Field, e = .transport field.endOfInput → last = []) :
    (d.attempt >>= f).eval input = ⟨.error e, rest, last⟩ := by
  induction d generalizing input with
  | finish r =>
      obtain ⟨rfl, rfl, -⟩ := Outcome.mk.inj h
      exact hf input
  | read field n next ih =>
      rcases fails_read_iff.mp h with ⟨hlt, rfl, rfl⟩ | ⟨b, left, rfl, hnext⟩
      · rw [hend field rfl, bind_eq]
        simp only [attempt, andThen, eval, Block.take?_eq_none_iff.mpr hlt]
      · rw [bind_eq]
        simp only [attempt, andThen, eval, Block.take?_append]
        exact ih b hnext (hd b)
  | write bytes next => exact hd.elim

end Dialogue

/-! ### Command octets -/

/-- The commands of a version and their octets; SOCKS4 has no datagrams. -/
inductive Command.Code : Version → UInt8 → Command → Prop
  | connect (version : Version) : Code version 1 .connect
  | bind (version : Version) : Code version 2 .bind
  | associate : Code .v5 3 .associate

theorem Command.ofByte?_eq_some_iff {version : Version} {code : UInt8} {command : Command} :
    ofByte? version code = some command ↔ Code version code command := by
  constructor
  · intro h
    unfold ofByte? at h
    split_ifs at h with h₁ h₂ h₃
    · cases h
      subst h₁
      exact .connect version
    · cases h
      subst h₂
      exact .bind version
    · cases h
      obtain ⟨rfl, rfl⟩ := h₃
      exact .associate
  · intro h
    cases h <;> rfl

theorem Command.ofByte?_eq_none_iff {version : Version} {code : UInt8} :
    ofByte? version code = none ↔ ∀ command, ¬Code version code command := by
  rw [Option.eq_none_iff_forall_ne_some]
  simp only [ne_eq, ofByte?_eq_some_iff]

namespace Request

/-- How many octets of a request come before its command octet. -/
def commandPlace : Version → Nat
  | .v4 => 0
  | .v5 => 1

/-- A request with the command of an octet, if the octet has one. -/
def recoded (version : Version) (code : UInt8) (r : Request) : Except Failure Request :=
  match Command.ofByte? version code with
  | some command => .ok { r with command := command }
  | none => .error (.commandNotSupported code)

section recoding

variable {version : Version} {code : UInt8} {r : Request}

theorem recoded_of_code {command : Command} (h : Command.Code version code command) :
    recoded version code r = .ok { r with command := command } := by
  rw [recoded, Command.ofByte?_eq_some_iff.mpr h]

theorem recoded_of_not_code (h : ∀ command, ¬Command.Code version code command) :
    recoded version code r = .error (.commandNotSupported code) := by
  rw [recoded, Command.ofByte?_eq_none_iff.mpr h]

theorem recoded_eq_ok {r' : Request} (h : recoded version code r = .ok r') :
    Command.Code version code r'.command ∧ r' = { r with command := r'.command } := by
  unfold recoded at h
  split at h
  · rename_i command hc
    cases h
    exact ⟨Command.ofByte?_eq_some_iff.mp hc, rfl⟩
  · cases h

theorem recoded_eq_error {f : Failure} (h : recoded version code r = .error f) :
    f = .commandNotSupported code ∧ ∀ command, ¬Command.Code version code command := by
  unfold recoded at h
  split at h
  · cases h
  · rename_i hc
    cases h
    exact ⟨rfl, Command.ofByte?_eq_none_iff.mp hc⟩

end recoding

/-! ### A request with any command octet -/

variable {version : Version} {input opening tail rest said : Bytes}

theorem revised_judge (version : Version) (destination : Address) (identity : Identity)
    (code : UInt8) :
    (judge version 1 >>= fun command =>
        pure (⟨version, command, destination, identity, none⟩ : Request)).Revised
      (recoded version code)
      (judge version code >>= fun command =>
        pure ⟨version, command, destination, identity, none⟩) := by
  intro input
  unfold judge recoded
  rw [Command.ofByte?_eq_some_iff.mpr (.connect version)]
  cases Command.ofByte? version code <;> rfl

/-- The first three octets are in order, whatever the second one is, or they are not. -/
theorem readHeader_cases (v : UInt8) (tail : Bytes) :
    (∃ rest, v = 5 ∧ tail = 0 :: rest) ∨
      ∃ rest f, ∀ code, readHeader.Fails (v :: code :: tail) rest f := by
  rcases tail with _ | ⟨reserved, rest⟩
  · exact .inr ⟨[], _, fun code => fails_readHeader_iff.mpr (.inl ⟨by simp, rfl, rfl⟩)⟩
  by_cases hv : v = 5
  · by_cases hz : reserved = 0
    · subst hv hz
      exact .inl ⟨rest, rfl, rfl⟩
    · exact .inr ⟨rest, _, fun code => fails_readHeader_iff.mpr
        (.inr ⟨v, code, reserved, rfl, .inr ⟨hv, hz, rfl⟩⟩)⟩
  · exact .inr ⟨rest, _, fun code => fails_readHeader_iff.mpr
      (.inr ⟨v, code, reserved, rfl, .inl ⟨hv, rfl⟩⟩)⟩

theorem eval_readV4_code (code : UInt8) (tail : Bytes) :
    readV4.eval (code :: tail) =
      ⟨(readV4.eval (1 :: tail)).result.bind (recoded .v4 code), (readV4.eval (1 :: tail)).rest,
        (readV4.eval (1 :: tail)).said⟩ := by
  have hread : ∀ b, readV4.eval (b :: tail) = _ := fun b => (reads_byte b).eval_bind _ tail
  rw [hread code, hread 1]
  -- Address, user name and host name are read before the command is judged.
  refine Revised.after (fun address => ?_) _ tail
  refine Revised.after (fun user => ?_) _
  refine Revised.after (fun destination => ?_) _
  exact revised_judge .v4 destination _ code

theorem eval_readV5_code (v code : UInt8) (tail : Bytes) :
    readV5.eval (v :: code :: tail) =
      ⟨(readV5.eval (v :: 1 :: tail)).result.bind (recoded .v5 code),
        (readV5.eval (v :: 1 :: tail)).rest, (readV5.eval (v :: 1 :: tail)).said⟩ := by
  rcases readHeader_cases v tail with ⟨rest, rfl, rfl⟩ | ⟨rest, f, hfails⟩
  · have hread : ∀ b, readV5.eval (5 :: b :: 0 :: rest) = _ := fun b =>
      (reads_readHeader_iff.mpr (show [5, b, 0] = [5, b, 0] from rfl)).eval_bind _ rest
    rw [hread code, hread 1]
    exact Revised.after (fun destination => revised_judge .v5 destination _ code) _ rest
  · have hread : ∀ b, readV5.eval (v :: b :: tail) = ⟨.error f, rest, []⟩ :=
      fun b => (hfails b).bind _
    rw [hread code, hread 1]
    rfl

/-- A request is read as if its command octet were that of CONNECT, and then it is given the command
of its octet. -/
theorem eval_read_code (h : opening.length = commandPlace version) (code : UInt8) (tail : Bytes) :
    (read version).eval (opening ++ code :: tail) =
      ⟨((read version).eval (opening ++ 1 :: tail)).result.bind (recoded version code),
        ((read version).eval (opening ++ 1 :: tail)).rest,
        ((read version).eval (opening ++ 1 :: tail)).said⟩ := by
  cases version with
  | v4 =>
      obtain rfl := List.length_eq_zero_iff.mp h
      exact eval_readV4_code code tail
  | v5 =>
      obtain ⟨v, rfl⟩ := List.length_eq_one_iff.mp h
      exact eval_readV5_code v code tail

theorem exists_listens_readV4 :
    ∃ d : Dialogue Request, d.Listens (fun f => ∀ b, f ≠ .commandNotSupported b) ∧
      ∀ tail, readV4.eval (1 :: tail) = d.eval tail := by
  have hP : ∀ fault b, Failure.protocol fault ≠ .commandNotSupported b := by simp
  refine ⟨_, ?_, fun tail => (reads_byte 1).eval_bind _ tail⟩
  refine Address.listens_readV4.bind fun address => ?_
  refine (listens_readText hP _).bind fun user => ?_
  refine (listens_readAnnounced hP _).bind fun destination => ?_
  exact listens_pure _

/-- Nothing but the command octet itself makes a command unknown. -/
theorem result_ne_commandNotSupported (h : opening.length = commandPlace version) (tail : Bytes)
    (b : UInt8) :
    ((read version).eval (opening ++ 1 :: tail)).result ≠ .error (.commandNotSupported b) := by
  intro hf
  cases version with
  | v4 =>
      obtain rfl := List.length_eq_zero_iff.mp h
      obtain ⟨d, hd, he⟩ := exists_listens_readV4
      have hresult : (d.eval tail).result = .error (.commandNotSupported b) :=
        (congrArg Outcome.result (he tail)).symm.trans hf
      rcases hd.failure_of_eval hresult with ⟨field, hfield⟩ | hother
      · cases hfield
      · exact hother b rfl
  | v5 =>
      obtain ⟨v, rfl⟩ := List.length_eq_one_iff.mp h
      obtain ⟨rest, hfails⟩ := (listens_read .v5).result_eq_error_iff.mp hf
      cases fails_readV5_iff.mp hfails with
      | destination _ h =>
          cases h with
          | host h => cases h
      | command _ _ _ h₁ => exact h₁ rfl

/-- What becomes of a request whose command octet `c` is replaced by `c'`: the outcome is `o'` in
place of `o`. -/
structure ChangesCommand (version : Version) (c c' : UInt8) (o o' : Outcome Request) : Prop where
  rest : o'.rest = o.rest
  failure : ∀ f, o.result = .error f → (∀ b, f ≠ .commandNotSupported b) → o'.result = .error f
  own : ∀ r, o.result = .ok r → Command.Code version c r.command
  known : ∀ r command, o.result = .ok r → Command.Code version c' command →
    o'.result = .ok { r with command := command }
  unknown : ∀ r, o.result = .ok r → (∀ command, ¬Command.Code version c' command) →
    o'.result = .error (.commandNotSupported c')

theorem changesCommand (h : opening.length = commandPlace version) (c c' : UInt8) (tail : Bytes) :
    ChangesCommand version c c' ((read version).eval (opening ++ c :: tail))
      ((read version).eval (opening ++ c' :: tail)) := by
  rw [eval_read_code h c, eval_read_code h c']
  rcases (read version).eval (opening ++ 1 :: tail) with ⟨result, left, told⟩
  cases result with
  | error e =>
      refine ⟨rfl, fun f hf _ => hf, ?_, ?_, ?_⟩
      · rintro r ⟨⟩
      · rintro r command ⟨⟩
      · rintro r ⟨⟩
  | ok r₁ =>
      refine ⟨rfl, ?_, ?_, ?_, ?_⟩
      · intro f hf hne
        exact absurd (recoded_eq_error hf).1 (hne c)
      · intro r hr
        exact (recoded_eq_ok hr).1
      · intro r command hr hc
        rw [(recoded_eq_ok hr).2]
        exact recoded_of_code hc
      · intro r _ hc
        exact recoded_of_not_code hc

/-! ### Requests with a command that there is not -/

/-- Octets that spell a request, were their command octet `b` one of a command. -/
structure AsksUnknown (version : Version) (b : UInt8) (octets : Bytes) : Prop where
  unknown : ∀ command, ¬Command.Code version b command
  framed : ∃ (opening used : Bytes) (r : Request), opening.length = commandPlace version ∧
    octets = opening ++ b :: used ∧ ∀ code command, Command.Code version code command →
      Spelled version { r with command := command } (opening ++ code :: used)

theorem eval_of_spelled {r : Request} {octets : Bytes} (h : Spelled version r octets)
    (rest : Bytes) : (read version).eval (octets ++ rest) = ⟨.ok r, rest, []⟩ :=
  (reads_read_iff.mpr h).eval_eq rest

theorem fails_read_of_length_le (h : input.length ≤ commandPlace version) :
    ∃ e, (read version).Fails input [] (.transport e) := by
  cases version with
  | v4 =>
      obtain rfl := List.length_eq_zero_iff.mp (Nat.le_zero.mp h)
      exact ⟨_, rfl⟩
  | v5 =>
      have hlt : input.length < 3 := Nat.lt_succ_of_le (Nat.le_succ_of_le h)
      exact ⟨_, fails_readV5_iff.mpr (.short hlt)⟩

theorem exists_append_cons {n : Nat} (h : n < input.length) :
    ∃ opening c tail, opening.length = n ∧ input = opening ++ c :: tail := by
  refine ⟨input.take n, input[n], input.drop (n + 1), ?_, ?_⟩
  · rw [List.length_take]
    omega
  · rw [← List.drop_eq_getElem_cons h, List.take_append_drop]

theorem exists_used {r : Request} (h : opening.length = commandPlace version)
    (he : (read version).eval (opening ++ 1 :: tail) = ⟨.ok r, rest, said⟩) :
    ∃ used, tail = used ++ rest ∧ Spelled version r (opening ++ 1 :: used) := by
  obtain ⟨-, octets, hinput, hspelled⟩ := eval_read_iff_spelled.mp he
  have hlt : commandPlace version < octets.length := by
    by_contra hle
    obtain ⟨e, hfails⟩ := fails_read_of_length_le (Nat.not_lt.mp hle)
    have hok := eval_of_spelled hspelled []
    rw [List.append_nil, hfails] at hok
    cases hok
  obtain ⟨opening', c, used, hlen, rfl⟩ := exists_append_cons hlt
  rw [List.append_assoc] at hinput
  obtain ⟨rfl, htail⟩ := List.append_inj hinput (h.trans hlen.symm)
  obtain ⟨rfl, rfl⟩ := List.cons.inj htail
  exact ⟨used, rfl, hspelled⟩

/-- With any octet of a command a request is read as with the octet of CONNECT. -/
theorem spelled_of_connect {r : Request} {used : Bytes} (h : opening.length = commandPlace version)
    (hspelled : Spelled version r (opening ++ 1 :: used)) {code : UInt8} {command : Command}
    (hc : Command.Code version code command) :
    Spelled version { r with command := command } (opening ++ code :: used) := by
  have hconnect := eval_of_spelled hspelled []
  have hcode := eval_read_code h code used
  rw [List.append_nil] at hconnect
  rw [hconnect] at hcode
  obtain ⟨-, octets, hinput, hr⟩ := eval_read_iff_spelled.mp
    (hcode.trans (congrArg (Outcome.mk · [] []) (recoded_of_code hc)))
  rw [List.append_nil] at hinput
  rwa [hinput]

/-- A command is reported as unknown exactly when the octets are those of a request, but for the
command. All of them are read by then. -/
theorem eval_read_commandNotSupported_iff {b : UInt8} :
    (read version).eval input = ⟨.error (.commandNotSupported b), rest, said⟩ ↔
      said = [] ∧ ∃ octets, input = octets ++ rest ∧ AsksUnknown version b octets := by
  constructor
  · intro h
    have hlt : commandPlace version < input.length := by
      by_contra hle
      obtain ⟨e, hfails⟩ := fails_read_of_length_le (Nat.not_lt.mp hle)
      rw [hfails] at h
      cases h
    obtain ⟨opening, c, tail, hlen, rfl⟩ := exists_append_cons hlt
    have hconnect := eval_read_code hlen c tail
    rw [h] at hconnect
    rcases ho : (read version).eval (opening ++ 1 :: tail) with ⟨result, left, told⟩
    rw [ho] at hconnect
    obtain ⟨hresult, rfl, rfl⟩ := Outcome.mk.inj hconnect
    cases result with
    | error e =>
        cases hresult
        exact absurd (congrArg Outcome.result ho) (result_ne_commandNotSupported hlen tail b)
    | ok r =>
        obtain ⟨hb, hunknown⟩ := recoded_eq_error hresult.symm
        cases hb
        obtain ⟨rfl, -⟩ := eval_read_iff_spelled.mp ho
        obtain ⟨used, rfl, hspelled⟩ := exists_used hlen ho
        refine ⟨rfl, opening ++ b :: used, by simp, hunknown, opening, used, r, hlen, rfl, ?_⟩
        exact fun code command hc => spelled_of_connect hlen hspelled hc
  · rintro ⟨rfl, octets, rfl, hunknown, opening, used, r, hlen, rfl, hspelled⟩
    have hconnect := eval_of_spelled (hspelled 1 .connect (.connect version)) rest
    rw [List.append_assoc, List.cons_append] at hconnect ⊢
    rw [eval_read_code hlen, hconnect]
    exact congrArg (Outcome.mk · rest []) (recoded_of_not_code hunknown)

end Request

/-! ### The reply -/

namespace Handshake

open Authentication

variable {a : Authenticator} {version : Version} {hello told input rest said : Bytes} {f : Failure}

/-- How a client of a version comes to its request: what it says before, and what it is told. -/
inductive Opened (a : Authenticator) : Version → Bytes → Bytes → Prop
  | v4 : Opened a .v4 [4] []
  | v5 {identity : Identity} {exchange told : Bytes} :
      Settles a identity exchange told → Opened a .v5 (5 :: exchange) told

/-- What a client is told of a request that is not understood. -/
def verdict (version : Version) (f : Failure) : Bytes :=
  match f.replyStatus? with
  | some status => (Reply.bare version status).bytes
  | none => []

theorem eval_turnDown (version : Version) (f : Failure) (input : Bytes) :
    (turnDown version f).eval input = ⟨.error f, input, verdict version f⟩ := by
  unfold turnDown verdict
  cases f.replyStatus? with
  | none => rfl
  | some status => exact congrArg (Outcome.mk (.error f) input) (List.append_nil _)

theorem eval_hear_of_fails (h : (Request.read version).Fails input rest f) :
    (hear version).eval input = ⟨.error f, rest, verdict version f⟩ := by
  refine h.attempt_bind (Request.listens_read version) (eval_turnDown version f) ?_
  rintro field rfl
  rfl

/-- A request that is not heard for an unknown command was not read for it. -/
theorem fails_of_eval_hear {b : UInt8}
    (h : (hear version).eval input = ⟨.error (.commandNotSupported b), rest, said⟩) :
    (Request.read version).Fails input rest (.commandNotSupported b) := by
  have hl := Request.listens_read version
  rcases ho : (Request.read version).eval input with ⟨result, left, spoken⟩
  cases result with
  | ok r =>
      obtain ⟨rfl, octets, rfl, hspelled⟩ := Request.eval_read_iff_spelled.mp ho
      rw [(reaches_hear_ok_iff.mpr ⟨hspelled, rfl⟩).eval_eq left] at h
      cases h
  | error f =>
      obtain ⟨left', hfails⟩ := hl.result_eq_error_iff.mp (congrArg Outcome.result ho)
      have hf := eval_hear_of_fails hfails
      rw [h] at hf
      obtain ⟨hresult, rfl, -⟩ := Outcome.mk.inj hf
      cases hresult
      exact hfails

theorem Opened.eval_greet (h : Opened a version hello told)
    (hh : (hear version).eval input = ⟨.error f, rest, said⟩) :
    (greet a).eval (hello ++ input) = ⟨.error f, rest, told ++ said⟩ := by
  cases h with
  | v4 =>
      show (greetV4 a).eval input = _
      unfold greetV4
      rw [eval_bind, hh]
      rfl
  | @v5 identity exchange told hs =>
      show (greetV5 a).eval (exchange ++ input) = _
      unfold greetV5
      rw [eval_bind, (reaches_negotiate_iff.mpr hs).eval_eq input]
      dsimp only
      rw [eval_bind, hh]

theorem result_negotiate_ne {b : UInt8} :
    ((negotiate a).eval input).result ≠ .error (.commandNotSupported b) := by
  intro hf
  rcases ho : (negotiate a).eval input with ⟨result, left, spoken⟩
  rw [ho] at hf
  cases hf
  rcases eval_eq_error_cases ho with ⟨field, hfield⟩ | ⟨heard, -, hreaches⟩
  · cases hfield
  · obtain ⟨fault, hfault⟩ := (said_negotiate hreaches).2 _ rfl
    cases hfault

theorem eval_hear_of_greetV4 {b : UInt8}
    (h : (greetV4 a).eval input = ⟨.error (.commandNotSupported b), rest, said⟩) :
    ∃ spoken, (hear .v4).eval input = ⟨.error (.commandNotSupported b), rest, spoken⟩ := by
  unfold greetV4 at h
  rw [eval_bind] at h
  rcases hh : (hear .v4).eval input with ⟨result, left, spoken⟩
  rw [hh] at h
  cases result with
  | ok r =>
      -- A request that was heard can only fail for want of credentials.
      dsimp only at h
      split_ifs at h <;> cases h
  | error f =>
      obtain ⟨hresult, rfl, -⟩ := Outcome.mk.inj h
      cases hresult
      exact ⟨spoken, rfl⟩

theorem eval_hear_of_greetV5 {b : UInt8}
    (h : (greetV5 a).eval input = ⟨.error (.commandNotSupported b), rest, said⟩) :
    ∃ identity exchange told left spoken, Settles a identity exchange told ∧
      input = exchange ++ left ∧
      (hear .v5).eval left = ⟨.error (.commandNotSupported b), rest, spoken⟩ := by
  unfold greetV5 at h
  rw [eval_bind] at h
  rcases ho : (negotiate a).eval input with ⟨result, after, told⟩
  rw [ho] at h
  cases result with
  | error f =>
      obtain ⟨hresult, -, -⟩ := Outcome.mk.inj h
      cases hresult
      exact absurd (congrArg Outcome.result ho) result_negotiate_ne
  | ok identity =>
      obtain ⟨exchange, rfl, hreaches⟩ := eval_eq_ok_iff.mp ho
      dsimp only at h
      rw [eval_bind_pure] at h
      rcases hh : (hear .v5).eval after with ⟨result, left, spoken⟩
      rw [hh] at h
      cases result with
      | ok r => cases h
      | error f =>
          obtain ⟨hresult, rfl, -⟩ := Outcome.mk.inj h
          cases hresult
          have hs := reaches_negotiate_iff.mp hreaches
          exact ⟨identity, exchange, told, after, spoken, hs, rfl, hh⟩

theorem exists_opened {b : UInt8}
    (h : (greet a).eval input = ⟨.error (.commandNotSupported b), rest, said⟩) :
    ∃ version hello told left spoken, Opened a version hello told ∧ input = hello ++ left ∧
      (hear version).eval left = ⟨.error (.commandNotSupported b), rest, spoken⟩ := by
  rcases input with _ | ⟨v, left⟩
  · cases h
  have hgreet : (greet a).eval (v :: left) = _ := (reads_byte v).eval_bind _ left
  rw [hgreet] at h
  split at h
  · rename_i hv
    obtain rfl := ofByte?_eq_some_iff.mp hv
    obtain ⟨spoken, hh⟩ := eval_hear_of_greetV4 h
    exact ⟨.v4, [4], [], left, spoken, .v4, rfl, hh⟩
  · rename_i hv
    obtain rfl := ofByte?_eq_some_iff.mp hv
    obtain ⟨identity, exchange, told, after, spoken, hs, rfl, hh⟩ := eval_hear_of_greetV5 h
    exact ⟨.v5, 5 :: exchange, told, after, spoken, .v5 hs, rfl, hh⟩
  · cases h

/-- A client is told of an unknown command exactly when it has come to its request and this is in
order but for the command; the reply follows what the client was told before. -/
theorem eval_greet_commandNotSupported_iff {b : UInt8} :
    (greet a).eval input = ⟨.error (.commandNotSupported b), rest, said⟩ ↔
      ∃ version hello told octets, Opened a version hello told ∧
        Request.AsksUnknown version b octets ∧ input = hello ++ (octets ++ rest) ∧
        said = told ++ (Reply.bare version .commandNotSupported).bytes := by
  constructor
  · intro h
    obtain ⟨version, hello, told, left, spoken, hopened, rfl, hh⟩ := exists_opened h
    have hfails := fails_of_eval_hear hh
    obtain ⟨-, octets, rfl, hasks⟩ := Request.eval_read_commandNotSupported_iff.mp hfails
    rw [hopened.eval_greet (eval_hear_of_fails hfails)] at h
    obtain ⟨-, -, rfl⟩ := Outcome.mk.inj h
    exact ⟨version, hello, told, octets, hopened, hasks, rfl, rfl⟩
  · rintro ⟨version, hello, told, octets, hopened, hasks, rfl, rfl⟩
    have hfails : (Request.read version).Fails (octets ++ rest) rest (.commandNotSupported b) :=
      Request.eval_read_commandNotSupported_iff.mpr ⟨rfl, octets, rfl, hasks⟩
    exact hopened.eval_greet (eval_hear_of_fails hfails)

/-- Before its last octet has come nothing is said about a request. -/
theorem eval_greet_cut {b : UInt8} {octets part : Bytes} (hopened : Opened a version hello told)
    (hasks : Request.AsksUnknown version b octets) (hpart : part <+: octets) (hne : part ≠ octets) :
    ∃ e, e.kind = .unexpectedEof ∧
      (greet a).eval (hello ++ part) = ⟨.error (.transport e), [], told⟩ := by
  have hread : (Request.read version).eval octets = ⟨.error (.commandNotSupported b), [], []⟩ :=
    Request.eval_read_commandNotSupported_iff.mpr ⟨rfl, octets, (List.append_nil _).symm, hasks⟩
  rcases eval_eq_error_cases hread with ⟨field, hfield⟩ | ⟨heard, hoctets, hreaches⟩
  · cases hfield
  rw [List.append_nil] at hoctets
  subst hoctets
  obtain ⟨field, spoken, hspoken, hcut⟩ := hreaches.eval_cut hpart hne
  obtain rfl := List.prefix_nil.mp hspoken
  refine ⟨field.endOfInput, field.kind_endOfInput, ?_⟩
  have hgreet : (greet a).eval (hello ++ part) = ⟨_, [], told ++ []⟩ :=
    hopened.eval_greet (eval_hear_of_fails hcut)
  rwa [List.append_nil] at hgreet

/-- The command octet of a request decides the command and nothing else. A command that there is not
is reported when the rest of the request is in order and all of it has been read; then the client
gets the reply, and until the last octet of the request has come it gets none. -/
theorem command_judged_last (a : Authenticator) :
    (∀ version opening c c' tail, opening.length = Request.commandPlace version →
      Request.ChangesCommand version c c' ((Request.read version).eval (opening ++ c :: tail))
        ((Request.read version).eval (opening ++ c' :: tail))) ∧
    (∀ version input b rest said,
      (Request.read version).eval input = ⟨.error (.commandNotSupported b), rest, said⟩ ↔
        said = [] ∧ ∃ octets, input = octets ++ rest ∧ Request.AsksUnknown version b octets) ∧
    (∀ input b rest said,
      (greet a).eval input = ⟨.error (.commandNotSupported b), rest, said⟩ ↔
        ∃ version hello told octets, Opened a version hello told ∧
          Request.AsksUnknown version b octets ∧ input = hello ++ (octets ++ rest) ∧
          said = told ++ (Reply.bare version .commandNotSupported).bytes) ∧
    ∀ version hello told b octets part, Opened a version hello told →
      Request.AsksUnknown version b octets → part <+: octets → part ≠ octets →
        ∃ e, e.kind = .unexpectedEof ∧
          (greet a).eval (hello ++ part) = ⟨.error (.transport e), [], told⟩ := by
  refine ⟨fun version opening c c' tail h => Request.changesCommand h c c' tail,
    fun version input b rest said => Request.eval_read_commandNotSupported_iff,
    fun input b rest said => eval_greet_commandNotSupported_iff,
    fun version hello told b octets part hopened hasks => eval_greet_cut hopened hasks⟩

/-- SOCKS4 knows BIND and no datagrams. The same octets after the command are left alike, and a
client that asks for datagrams is turned down when the zero after its name has come. -/
theorem command_judged_last_associate :
    let used : Bytes := [0, 80, 1, 2, 3, 4, 117, 0]
    let place : Address := .literal (.v4 (IpAddress.quad 1 2 3 4)) 80
    let r : Request := ⟨.v4, .bind, place, .user .noAuth "u", none⟩
    (Request.read .v4).eval (2 :: used ++ [9, 9]) = ⟨.ok r, [9, 9], []⟩ ∧
    ((Request.read .v4).eval (3 :: used ++ [9, 9])).result = .error (.commandNotSupported 3) ∧
    ((Request.read .v4).eval (3 :: used ++ [9, 9])).rest = [9, 9] ∧
    (greet .anyone).eval ([4] ++ (3 :: used ++ [9, 9])) =
      ⟨.error (.commandNotSupported 3), [9, 9], [0, 0x5B, 0, 0, 0, 0, 0, 0]⟩ ∧
    ∃ e, e.kind = .unexpectedEof ∧ (greet .anyone).eval ([4] ++ [3, 0, 80, 1, 2, 3, 4, 117]) =
      ⟨.error (.transport e), [], []⟩ := by
  intro used place r
  obtain ⟨hchanges, -, hgreet, hcut⟩ := command_judged_last .anyone
  have hname : Request.FitsField "u" := ⟨by decide, by decide⟩
  have hliteral : (Address.literal (.v4 (IpAddress.quad 1 2 3 4)) 80).announcesName = false := rfl
  have hbind : (Request.read .v4).eval (2 :: used ++ [9, 9]) = ⟨.ok r, [9, 9], []⟩ := by
    have hspelled : Request.Spelled .v4 r (2 :: used) :=
      Request.SpelledV4.literal Command.noConfusion hname hliteral
    exact Request.eval_of_spelled hspelled [9, 9]
  have hunknown : ∀ command, ¬Command.Code .v4 3 command := by
    intro command h
    cases h
  have hasks : Request.AsksUnknown .v4 3 (3 :: used) := by
    have hspelled : Request.Spelled .v4 { r with command := .connect } (1 :: used) :=
      Request.SpelledV4.literal Command.noConfusion hname hliteral
    refine ⟨hunknown, [], used, { r with command := .connect }, rfl, rfl, fun code command hc => ?_⟩
    exact Request.spelled_of_connect rfl hspelled hc
  have hchange := hchanges .v4 [] 2 3 (used ++ [9, 9]) rfl
  refine ⟨hbind, hchange.unknown r (congrArg Outcome.result hbind) hunknown,
    hchange.rest.trans (congrArg Outcome.rest hbind), ?_, ?_⟩
  · exact (hgreet _ _ _ _).mpr ⟨.v4, [4], [], 3 :: used, .v4, hasks, rfl, rfl⟩
  · exact hcut .v4 [4] [] 3 (3 :: used) _ .v4 hasks (by decide) (by decide)

end Handshake

end Socks
