import Socks.Proofs.Dialogue.Failing

/-!
# Conversations that are cut short

A client can stop at any octet. Where it stops before a conversation is complete, some field has not
come whole: the dialogue has read all that came, it reports the end of the input and nothing else,
and what it has said by then comes first in what it would have said.

Main statements: what comes of a conversation that is cut short (`Dialogue.Reaches.eval_cut`), and
where a failure can come from (`Dialogue.eval_eq_error_cases`). A dialogue that is described by its
complete conversations `Delimits` them (`Dialogue.delimits_of_reaches_iff`).
-/

namespace Socks

theorem Field.kind_endOfInput (field : Field) : field.endOfInput.kind = .unexpectedEof := by
  cases field <;> rfl

namespace Dialogue

variable {α : Type} {d : Dialogue α} {input heard part rest said : Bytes}

/-- A complete conversation is all that a dialogue needs; what follows is left. -/
theorem Reaches.eval_eq {r : Except Failure α} (h : d.Reaches heard said (finish r))
    (rest : Bytes) : d.eval (heard ++ rest) = ⟨r, rest, said⟩ := by
  rw [eval_eq_advance, h.advance_eq rest]

/-- A conversation that is cut short ends in the field that is not there: all is read, the end of
the input is reported, and what was said comes first in what would have been said. -/
theorem Reaches.eval_cut {r : Except Failure α} (h : d.Reaches heard said (finish r))
    (hpart : part <+: heard) (hne : part ≠ heard) :
    ∃ (field : Field) (spoken : Bytes), spoken <+: said ∧
      d.eval part = ⟨.error (.transport field.endOfInput), [], spoken⟩ := by
  generalize hd' : finish r = d' at h
  induction h generalizing part with
  | here d => exact absurd (List.prefix_nil.mp hpart) hne
  | @read field n next heard said d' b _ ih =>
      by_cases hlt : part.length < n
      · refine ⟨field, [], List.nil_prefix, ?_⟩
        rw [eval, Block.take?_eq_none_iff.mpr hlt]
      · -- This field has come whole: the cut is in what follows it.
        have hle : b.bytes.length ≤ part.length := by
          rw [b.length_bytes]
          omega
        obtain ⟨left, rfl⟩ :=
          List.prefix_of_prefix_length_le (List.prefix_append b.bytes heard) hpart hle
        have hleft : left <+: heard := (List.prefix_append_right_inj b.bytes).mp hpart
        have hne' : left ≠ heard := by
          rintro rfl
          exact hne rfl
        obtain ⟨field', spoken, hspoken, he⟩ := ih hleft hne' hd'
        refine ⟨field', spoken, hspoken, ?_⟩
        rw [eval, Block.take?_append]
        exact he
  | @write bytes next heard said d' _ ih =>
      obtain ⟨field, spoken, hspoken, he⟩ := ih hpart hne hd'
      refine ⟨field, bytes ++ spoken, (List.prefix_append_right_inj bytes).mpr hspoken, ?_⟩
      simp only [eval, he]

/-- A dialogue fails because it has come to the failure, or because the input ends in a field. -/
theorem eval_eq_error_cases {f : Failure} (h : d.eval input = ⟨.error f, rest, said⟩) :
    (∃ field : Field, f = .transport field.endOfInput) ∨
      ∃ heard, input = heard ++ rest ∧ d.Reaches heard said (finish (.error f)) := by
  rw [eval_eq_advance] at h
  rcases hp : d.advance input with ⟨progress, left, told⟩
  rw [hp] at h
  cases progress with
  | listening field n next =>
      cases h
      exact .inl ⟨field, rfl⟩
  | finished r =>
      cases h
      exact .inr (advance_eq_finished_iff.mp hp)

/-- A dialogue that only listens fails in its own way, or because the input ends in a field. -/
theorem Listens.failure_of_eval {P : Failure → Prop} {f : Failure} (hd : d.Listens P)
    (h : (d.eval input).result = .error f) :
    (∃ field : Field, f = .transport field.endOfInput) ∨ P f := by
  obtain ⟨rest, hfails⟩ := hd.result_eq_error_iff.mp h
  rcases eval_eq_error_cases hfails with hend | ⟨heard, -, hreaches⟩
  · exact .inl hend
  · exact .inr (hd.failure hreaches)

/-- `d.Delimits Message`: a dialogue succeeds exactly where a message comes first, and leaves what
follows it; more input is left as well and changes nothing; any first part of the octets that it
uses is all read and is too little; and no message is a first part of another one.
`Message a octets said` tells what a message means, its octets, and what is said on hearing them. -/
structure Delimits (d : Dialogue α) (Message : α → Bytes → Bytes → Prop) : Prop where
  succeeds : ∀ input a rest said, d.eval input = ⟨.ok a, rest, said⟩ ↔
    ∃ octets, input = octets ++ rest ∧ Message a octets said
  extended : ∀ input a rest said, d.eval input = ⟨.ok a, rest, said⟩ →
    ∀ more, d.eval (input ++ more) = ⟨.ok a, rest ++ more, said⟩
  truncated : ∀ octets a rest said, d.eval (octets ++ rest) = ⟨.ok a, rest, said⟩ →
    ∀ part, part <+: octets → part ≠ octets → ∃ e spoken, spoken <+: said ∧
      e.kind = .unexpectedEof ∧ d.eval part = ⟨.error (.transport e), [], spoken⟩
  unextended : ∀ a a' octets octets' said said', Message a octets said →
    Message a' octets' said' → octets <+: octets' → a = a' ∧ octets = octets' ∧ said = said'

section delimiting

variable {Message : α → Bytes → Bytes → Prop}
  (h : ∀ a heard said, d.Reaches heard said (finish (.ok a)) ↔ Message a heard said)

include h

theorem eval_eq_ok_iff_message {a : α} :
    d.eval input = ⟨.ok a, rest, said⟩ ↔
      ∃ octets, input = octets ++ rest ∧ Message a octets said := by
  rw [eval_eq_ok_iff]
  simp only [h]

theorem eval_message {a : α} {octets : Bytes} (hm : Message a octets said) :
    d.eval octets = ⟨.ok a, [], said⟩ := by
  have he := ((h a octets said).mpr hm).eval_eq []
  rwa [List.append_nil] at he

/-- A message that is cut short is too little. -/
theorem eval_message_cut {a : α} {octets : Bytes} (hm : Message a octets said)
    (hpart : part <+: octets) (hne : part ≠ octets) :
    ∃ e spoken, spoken <+: said ∧ e.kind = .unexpectedEof ∧
      d.eval part = ⟨.error (.transport e), [], spoken⟩ := by
  obtain ⟨field, spoken, hspoken, he⟩ := ((h a octets said).mpr hm).eval_cut hpart hne
  exact ⟨field.endOfInput, spoken, hspoken, field.kind_endOfInput, he⟩

/-- A dialogue delimits its complete conversations. -/
theorem delimits_of_reaches_iff : d.Delimits Message := by
  refine ⟨fun input a rest said => eval_eq_ok_iff_message h, fun input a rest said ho more => ?_,
    fun octets a rest said ho part => ?_, fun a a' octets octets' said said' hm hm' hle => ?_⟩
  · obtain ⟨octets, rfl, hm⟩ := (eval_eq_ok_iff_message h).mp ho
    rw [List.append_assoc]
    exact ((h a octets said).mpr hm).eval_eq (rest ++ more)
  · obtain ⟨octets', heq, hm⟩ := (eval_eq_ok_iff_message h).mp ho
    obtain rfl : octets = octets' := List.append_cancel_right heq
    exact eval_message_cut h hm
  · have hok := eval_message h hm
    by_cases hne : octets = octets'
    · subst hne
      rw [eval_message h hm'] at hok
      cases hok
      exact ⟨rfl, rfl, rfl⟩
    · obtain ⟨e, spoken, -, -, he⟩ := eval_message_cut h hm' hle hne
      rw [he] at hok
      cases hok

end delimiting

end Dialogue

end Socks
