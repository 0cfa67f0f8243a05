import Socks.Proofs.Dialogue.Resumption
import Socks.Proofs.Handshake

/-!
# SOCKS4 requests, field by field

What a SOCKS4 client can write as a request, with SOCKS4A's host names, as data that cannot be
ill-formed; its octets; and what it asks for.

Main statement: exactly these octets are read as a request, and what follows them is left
(`Request.readV4_grammar`).
-/

namespace Socks

open Dialogue

/-- Four octets between `0.0.0.1` and `0.0.0.255`. -/
def Block.IsMark (octets : Block 4) : Prop :=
  ∃ last : UInt8, last ≠ 0 ∧ octets.bytes = [0, 0, 0, last]

theorem Address.announcesName_literal_iff {octets : Block 4} {port : UInt16} :
    (literal (.v4 octets) port).announcesName = true ↔ octets.IsMark := by
  obtain ⟨bytes, hlen⟩ := octets
  match bytes, hlen with
  | [a, b, c, d], _ =>
      simp only [announcesName, literal, Block.IsMark, List.take, List.drop, Bool.and_eq_true,
        beq_iff_eq, bne_iff_ne, List.cons.injEq, and_true, ne_eq]
      constructor
      · rintro ⟨⟨rfl, rfl, rfl⟩, hd⟩
        exact ⟨d, hd, rfl, rfl, rfl, rfl⟩
      · rintro ⟨last, hd, rfl, rfl, rfl, rfl⟩
        exact ⟨⟨rfl, rfl, rfl⟩, hd⟩

theorem Address.announcesName_literal_eq_false_iff {octets : Block 4} {port : UInt16} :
    (literal (.v4 octets) port).announcesName = false ↔ ¬octets.IsMark := by
  rw [← announcesName_literal_iff, Bool.not_eq_true]

namespace Request

/-- A text that a zero octet can end. -/
structure TextField where
  text : String
  zeroFree : 0 ∉ Text.toBytes text
  short : (Text.toBytes text).length ≤ 255

namespace TextField

/-- The octets of the text, and the zero octet. -/
def bytes (field : TextField) : Bytes := Text.toBytes field.text ++ [0]

theorem fitsField (field : TextField) : FitsField field.text := ⟨field.zeroFree, field.short⟩

end TextField

/-- What a SOCKS4 client writes in a request: a host name stands in it if and only if its four
octets say so, and then they are no address. -/
structure FormV4 where
  code : UInt8
  command : Command
  port : UInt16
  octets : Block 4
  user : TextField
  host? : Option TextField
  code_command : code = 1 ∧ command = .connect ∨ code = 2 ∧ command = .bind
  host?_isSome : host?.isSome = true ↔ octets.IsMark
  text_ne_empty : ∀ host ∈ host?, host.text ≠ ""

namespace FormV4

/-- The octets of a request after its version. -/
def bytes (form : FormV4) : Bytes :=
  form.code :: UInt8.ofNat (form.port.toNat / 256) :: UInt8.ofNat (form.port.toNat % 256) ::
    (form.octets.bytes ++ form.user.bytes ++ (form.host?.map TextField.bytes).getD [])

/-- Where the client wants to go. -/
def destination (form : FormV4) : Address :=
  match form.host? with
  | some host => ⟨host.text, none, form.port⟩
  | none => ⟨"", some (.v4 form.octets), form.port⟩

/-- What the client asks for. It is known by the user name that it gives, if it gives one. -/
def request (form : FormV4) : Request :=
  let name? := if form.user.text = "" then none else some form.user.text
  ⟨.v4, form.command, form.destination, ⟨.noAuth, name?⟩, none⟩

end FormV4

theorem ofUser_eq (user : String) :
    Identity.ofUser user = ⟨.noAuth, if user = "" then none else some user⟩ := by
  unfold Identity.ofUser
  split <;> rfl

theorem code_command_iff {code : UInt8} {command : Command} :
    (code = 1 ∧ command = .connect ∨ code = 2 ∧ command = .bind) ↔
      code = command.byte ∧ command ≠ .associate := by
  cases command <;> simp [Command.byte]

namespace FormV4

variable (form : FormV4)

/-- The octets of a form as those of its fields. -/
theorem bytes_eq :
    form.bytes = form.code :: ((Block.ofWord form.port).bytes ++ form.octets.bytes ++
      terminated form.user.text ++ (form.host?.map fun host => terminated host.text).getD []) := by
  cases hh : form.host? <;> simp [bytes, hh, TextField.bytes, terminated, Block.ofWord]

theorem request_eq :
    form.request = ⟨.v4, form.command, form.destination, .ofUser form.user.text, none⟩ := by
  rw [ofUser_eq]
  rfl

/-- The octets of a form spell what it asks for. -/
theorem spelled : form.request.SpelledV4 form.bytes := by
  obtain ⟨hcode, hc⟩ := code_command_iff.mp form.code_command
  have hmark := form.host?_isSome
  rw [request_eq, bytes_eq, hcode]
  unfold destination
  cases hh : form.host? with
  | none =>
      have ha : (Address.literal (.v4 form.octets) form.port).announcesName = false := by
        rw [Address.announcesName_literal_eq_false_iff, ← hmark, hh]
        exact Bool.false_ne_true
      have h := SpelledV4.literal hc form.user.fitsField ha
      rwa [← List.append_nil (_ ++ _ ++ terminated _)] at h
  | some host =>
      have ha : (Address.literal (.v4 form.octets) form.port).announcesName = true := by
        rw [Address.announcesName_literal_iff, ← hmark, hh]
        rfl
      exact .named hc form.user.fitsField ha (form.text_ne_empty host hh) host.fitsField

end FormV4

/-- Whatever is spelled is spelled by a form. -/
theorem SpelledV4.form {r : Request} {octets : Bytes} (h : r.SpelledV4 octets) :
    ∃ form : FormV4, octets = form.bytes ∧ r = form.request := by
  cases h with
  | @literal command octets port user hc hu ha =>
      have hmark : ¬octets.IsMark := Address.announcesName_literal_eq_false_iff.mp ha
      let form : FormV4 :=
        { code := command.byte
          command := command
          port := port
          octets := octets
          user := ⟨user, hu.zeroFree, hu.short⟩
          host? := none
          code_command := code_command_iff.mpr ⟨rfl, hc⟩
          host?_isSome := by simp [hmark]
          text_ne_empty := by simp }
      refine ⟨form, ?_, form.request_eq.symm⟩
      rw [form.bytes_eq]
      exact congrArg (command.byte :: ·) (List.append_nil _).symm
  | @named command octets port user host hc hu ha hne hh =>
      have hmark : octets.IsMark := Address.announcesName_literal_iff.mp ha
      let form : FormV4 :=
        { code := command.byte
          command := command
          port := port
          octets := octets
          user := ⟨user, hu.zeroFree, hu.short⟩
          host? := some ⟨host, hh.zeroFree, hh.short⟩
          code_command := code_command_iff.mpr ⟨rfl, hc⟩
          host?_isSome := by simp [hmark]
          text_ne_empty := by simpa using hne }
      exact ⟨form, form.bytes_eq.symm, form.request_eq.symm⟩

/-- A request is spelled by the octets of its forms. -/
theorem spelledV4_iff {r : Request} {octets : Bytes} :
    r.SpelledV4 octets ↔ ∃ form : FormV4, octets = form.bytes ∧ r = form.request := by
  constructor
  · exact SpelledV4.form
  · rintro ⟨form, rfl, rfl⟩
    exact form.spelled

theorem eval_readV4_iff {input rest said : Bytes} {r : Request} :
    (read .v4).eval input = ⟨.ok r, rest, said⟩ ↔
      said = [] ∧ ∃ form : FormV4, input = form.bytes ++ rest ∧ r = form.request := by
  rw [eval_read_iff_spelled]
  show _ ∧ (∃ octets, _ ∧ r.SpelledV4 octets) ↔ _
  simp only [spelledV4_iff]
  constructor
  · rintro ⟨hsaid, _, hinput, form, rfl, hr⟩
    exact ⟨hsaid, form, hinput, hr⟩
  · rintro ⟨hsaid, form, hinput, hr⟩
    exact ⟨hsaid, _, hinput, form, rfl, hr⟩

/-- A SOCKS4 request is read from the octets of a form, whatever follows them, and from no others.
Then it is what the form asks for, and what follows is left. -/
theorem readV4_grammar :
    (∀ input, (∃ r, ((read .v4).eval input).result = .ok r) ↔
      ∃ (form : FormV4) (rest : Bytes), input = form.bytes ++ rest) ∧
    ∀ (form : FormV4) (rest : Bytes),
      (read .v4).eval (form.bytes ++ rest) = ⟨.ok form.request, rest, []⟩ := by
  have hback : ∀ (form : FormV4) (rest : Bytes),
      (read .v4).eval (form.bytes ++ rest) = ⟨.ok form.request, rest, []⟩ :=
    fun form rest => eval_readV4_iff.mpr ⟨rfl, form, rfl, rfl⟩
  refine ⟨fun input => ⟨?_, ?_⟩, hback⟩
  · rintro ⟨r, hr⟩
    cases ho : (read .v4).eval input with
    | mk result rest said =>
        rw [ho] at hr
        cases hr
        obtain ⟨-, form, hinput, -⟩ := eval_readV4_iff.mp ho
        exact ⟨form, rest, hinput⟩
  · rintro ⟨form, rest, rfl⟩
    exact ⟨form.request, by rw [hback]⟩

/-- The user "u" asks for port 80 of a host by name; an empty name in its place makes no form. -/
theorem readV4_grammar_named :
    let octets : Bytes := [1, 0, 80, 0, 0, 0, 1, 117, 0, 97, 46, 98, 0]
    let empty : Bytes := [1, 0, 80, 0, 0, 0, 1, 117, 0, 0]
    (∃ form : FormV4, form.bytes = octets ∧
      form.request = ⟨.v4, .connect, .named "a.b" 80, .user .noAuth "u", none⟩ ∧
      (read .v4).eval (octets ++ [9]) = ⟨.ok form.request, [9], []⟩) ∧
    ¬∃ (form : FormV4) (rest : Bytes), empty = form.bytes ++ rest := by
  intro octets empty
  constructor
  · let form : FormV4 :=
      { code := 1
        command := .connect
        port := 80
        octets := IpAddress.quad 0 0 0 1
        user := ⟨"u", by decide, by decide⟩
        host? := some ⟨"a.b", by decide, by decide⟩
        code_command := .inl ⟨rfl, rfl⟩
        host?_isSome := ⟨fun _ => ⟨1, by decide, rfl⟩, fun _ => rfl⟩
        text_ne_empty := by simp }
    have hbytes : form.bytes = octets := by decide +kernel
    have hread := readV4_grammar.2 form [9]
    rw [hbytes] at hread
    exact ⟨form, hbytes, by decide +kernel, hread⟩
  · rw [← readV4_grammar.1 empty]
    have hread : ((read .v4).eval empty).result = .error (.protocol .emptyHostname) := by
      decide +kernel
    rintro ⟨r, hr⟩
    rw [hread] at hr
    cases hr

end Request

end Socks
