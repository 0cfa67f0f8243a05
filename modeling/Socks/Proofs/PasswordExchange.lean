import Mathlib.Data.List.Induction
import Socks.Proofs.Dialogue.Failing
import Socks.Proofs.Handshake

/-!
# Names and passwords

What a client can show to a server that asks for a name and a password: those of a user, too little,
or anything else, with the first thing that is wrong with it. A server that has been told its users
one by one goes by the password that it was told last.

Main statement: the server lets in exactly those who show a user's name and last password, fails
without a word where it is shown too little, and turns all others away with the same two octets
(`Authentication.password_exchange`).
-/

namespace Socks

open Dialogue

/-! ### The last password -/

namespace Credentials

variable {users : List (String × String)} {user password : String}

/-- The password that is given for a user and not replaced later. -/
def GivenLast (users : List (String × String)) (user password : String) : Prop :=
  ∃ before after, users = before ++ (user, password) :: after ∧ ∀ e ∈ after, e.1 ≠ user

theorem not_givenLast_nil : ¬GivenLast [] user password := by
  rintro ⟨before, after, h, -⟩
  exact absurd h (by simp)

theorem givenLast_concat_iff {e : String × String} :
    GivenLast (users ++ [e]) user password ↔
      e = (user, password) ∨ e.1 ≠ user ∧ GivenLast users user password := by
  constructor
  · rintro ⟨before, after, h, hafter⟩
    rcases List.eq_nil_or_concat after with rfl | ⟨later, last, rfl⟩
    · obtain ⟨-, hlast⟩ := List.append_inj' h rfl
      exact .inl (List.cons.inj hlast).1
    · rw [List.concat_eq_append] at h hafter
      rw [← List.cons_append, ← List.append_assoc] at h
      obtain ⟨hinit, hlast⟩ := List.append_inj' h rfl
      obtain rfl : e = last := by simpa using hlast
      exact .inr ⟨hafter e (by simp), before, later, hinit, fun x hx => hafter x (by simp [hx])⟩
  · rintro (rfl | ⟨hne, before, after, rfl, hafter⟩)
    · exact ⟨users, [], rfl, by simp⟩
    · refine ⟨before, after ++ [e], by simp, fun x hx => ?_⟩
      rcases List.mem_append.mp hx with hx | hx
      · exact hafter x hx
      · obtain rfl := List.mem_singleton.mp hx
        exact hne

/-- A user has the password that was given last. -/
theorem password?_ofList_eq_some_iff :
    (ofList users).password? user = some password ↔ GivenLast users user password := by
  induction users using List.reverseRecOn with
  | nil => simp [ofList, empty, password?, not_givenLast_nil]
  | append_singleton users e ih =>
      have hadd : ofList (users ++ [e]) = (ofList users).add e.1 e.2 := by
        simp [ofList, List.foldl_append]
      rw [hadd, password?_add, givenLast_concat_iff]
      split_ifs with h
      · simp [Prod.ext_iff, h]
      · rw [ih]
        have hne : e.1 ≠ user := fun he => h he.symm
        simp [Prod.ext_iff, hne]

theorem accepts_ofList_iff :
    (ofList users).accepts user password = true ↔ GivenLast users user password := by
  rw [accepts, beq_iff_eq, password?_ofList_eq_some_iff]

end Credentials

namespace Authentication

variable {users : List (String × String)} {store : CredentialStore} {input octets rest : Bytes}
  {e : IoError} {f : Failure} {fault : AuthFault}

/-! ### What a client can show -/

/-- Octets that end inside a field: before its length, or before they are as many as it says. -/
inductive FieldCut : Bytes → IoError → Prop
  | noLength : FieldCut [] .endOfNumber
  | short {length : UInt8} {octets : Bytes} :
      octets.length < length.toNat → FieldCut (length :: octets) .endOfBlock

/-- Octets that end before a name and a password are complete. -/
inductive CutShort : Bytes → IoError → Prop
  | atVersion : CutShort [] .endOfNumber
  | inName {octets : Bytes} {e : IoError} : FieldCut octets e → CutShort (1 :: octets) e
  | inPassword {name octets : Bytes} {e : IoError} :
      name.length < 256 → FieldCut octets e → CutShort (1 :: (counted name ++ octets)) e

/-- A user of a list, with the last password, both short enough for their length octets. -/
structure Registered (users : List (String × String)) (user password : String) : Prop where
  named : user ≠ ""
  userShort : (Text.toBytes user).length < 256
  passwordShort : (Text.toBytes password).length < 256
  last : Credentials.GivenLast users user password

/-- `Refused valid input rest fault`: the octets `input` show no name and password that are valid
together; `fault` is wrong with them first, which shows when all but `rest` is read. -/
inductive Refused (valid : String → String → Prop) : Bytes → Bytes → AuthFault → Prop
  | version {version : UInt8} (rest : Bytes) :
      version ≠ 1 → Refused valid (version :: rest) rest (.unknownExchange version)
  | malformed {name password : Bytes} (rest : Bytes) :
      name.length < 256 → password.length < 256 →
      (∀ text, Text.toBytes text ≠ name) ∨ (∀ text, Text.toBytes text ≠ password) →
        Refused valid (1 :: (counted name ++ counted password) ++ rest) rest .malformedCredentials
  | nameless {password : String} (rest : Bytes) :
      (Text.toBytes password).length < 256 →
        Refused valid (login "" password ++ rest) rest .emptyUsername
  | wrong {user password : String} (rest : Bytes) :
      user ≠ "" → (Text.toBytes user).length < 256 → (Text.toBytes password).length < 256 →
      ¬valid user password →
        Refused valid (login user password ++ rest) rest (.wrongCredentials user)

theorem FieldCut.kind_eq (h : FieldCut octets e) : e.kind = .unexpectedEof := by
  cases h <;> rfl

theorem CutShort.kind_eq (h : CutShort input e) : e.kind = .unexpectedEof := by
  cases h with
  | atVersion => rfl
  | inName h | inPassword _ h => exact h.kind_eq

theorem fieldCut_or_counted (octets : Bytes) :
    (∃ e, FieldCut octets e) ∨
      ∃ field rest, field.length < 256 ∧ octets = counted field ++ rest := by
  cases octets with
  | nil => exact .inl ⟨_, .noLength⟩
  | cons length octets =>
      by_cases hlt : octets.length < length.toNat
      · exact .inl ⟨_, .short hlt⟩
      · let field : Block length.toNat :=
          ⟨octets.take length.toNat, List.length_take_of_le (Nat.not_lt.mp hlt)⟩
        refine .inr ⟨field.bytes, octets.drop length.toNat, field.length_bytes_lt, ?_⟩
        rw [field.counted_bytes, List.cons_append, List.take_append_drop]

theorem toBytes_or_ne (octets : Bytes) :
    (∃ text, Text.toBytes text = octets) ∨ ∀ text, Text.toBytes text ≠ octets := by
  rw [← not_exists]
  exact Classical.em _

/-- Whatever a client shows are a name and a password that the store accepts, or they are too few
octets, or something is wrong with them. -/
theorem shown_cases (store : CredentialStore) (input : Bytes) :
    (∃ user password rest, Admits store user password ∧ input = login user password ++ rest) ∨
      (∃ e, CutShort input e) ∨ ∃ rest fault, Refused (store · · = true) input rest fault := by
  rcases input with _ | ⟨version, octets⟩
  · exact .inr (.inl ⟨_, .atVersion⟩)
  by_cases hv : version = 1
  swap
  · exact .inr (.inr ⟨_, _, .version octets hv⟩)
  subst hv
  rcases fieldCut_or_counted octets with ⟨e, hcut⟩ | ⟨name, octets, hname, rfl⟩
  · exact .inr (.inl ⟨e, .inName hcut⟩)
  rcases fieldCut_or_counted octets with ⟨e, hcut⟩ | ⟨password, rest, hpassword, rfl⟩
  · exact .inr (.inl ⟨e, .inPassword hname hcut⟩)
  have hinput : 1 :: (counted name ++ (counted password ++ rest)) =
      1 :: (counted name ++ counted password) ++ rest := by
    rw [List.cons_append, List.append_assoc]
  rw [hinput]
  rcases toBytes_or_ne name with ⟨user, rfl⟩ | hno
  swap
  · exact .inr (.inr ⟨rest, _, .malformed rest hname hpassword (.inl hno)⟩)
  rcases toBytes_or_ne password with ⟨password, rfl⟩ | hno
  swap
  · exact .inr (.inr ⟨rest, _, .malformed rest hname hpassword (.inr hno)⟩)
  by_cases hempty : user = ""
  · subst hempty
    exact .inr (.inr ⟨rest, _, .nameless rest hpassword⟩)
  by_cases hvalid : store user password = true
  · exact .inl ⟨user, password, rest, ⟨hempty, hname, hpassword, hvalid⟩, rfl⟩
  · exact .inr (.inr ⟨rest, _, .wrong rest hempty hname hpassword hvalid⟩)

/-! ### What the server makes of it -/

theorem fails_readField_iff :
    readField.Fails input rest f ↔ rest = [] ∧ ∃ e, FieldCut input e ∧ f = .transport e := by
  unfold readField
  simp only [fails_bind_iff, fails_byte_iff, fails_block_iff, not_fails_pure, and_false,
    exists_false, or_false]
  constructor
  · rintro (⟨rfl, rfl, rfl⟩ | ⟨length, _, left, rfl, hlength, hlt, rfl, rfl⟩)
    · exact ⟨rfl, _, .noLength, rfl⟩
    · obtain rfl := reads_byte_iff.mp hlength
      exact ⟨rfl, _, .short hlt, rfl⟩
  · rintro ⟨rfl, _, hcut, rfl⟩
    cases hcut with
    | noLength => exact .inl ⟨rfl, rfl, rfl⟩
    | @short length octets hlt =>
        exact .inr ⟨length, [length], octets, rfl, reads_byte length, hlt, rfl, rfl⟩

theorem eval_refuse (fault : AuthFault) (input : Bytes) :
    (refuse fault).eval input = ⟨.error (.authentication fault), input, refusal⟩ := rfl

theorem eval_password_of_ne {version : UInt8} (h : version ≠ 1) (rest : Bytes) :
    (password store).eval (version :: rest) =
      ⟨.error (.authentication (.unknownExchange version)), rest, refusal⟩ := by
  have hv := (reads_byte version).eval_bind (fun version =>
    if version ≠ 1 then refuse (.unknownExchange version)
    else do
      let name ← readField
      let password ← readField
      check store name password) rest
  rw [if_pos h] at hv
  exact hv

theorem eval_password_one (rest : Bytes) :
    (password store).eval (1 :: rest) =
      (do let name ← readField
          let password ← readField
          check store name password : Dialogue String).eval rest :=
  (reads_byte 1).eval_bind _ rest

theorem eval_password_counted {name pass : Bytes} (hname : name.length < 256)
    (hpass : pass.length < 256) (rest : Bytes) :
    (password store).eval (1 :: (counted name ++ counted pass) ++ rest) =
      (check store name pass).eval rest := by
  rw [List.cons_append, List.append_assoc, eval_password_one,
    (reads_readField_iff.mpr ⟨hname, rfl⟩).eval_bind,
    (reads_readField_iff.mpr ⟨hpass, rfl⟩).eval_bind]

theorem CutShort.fails (h : CutShort input e) : (password store).Fails input [] (.transport e) := by
  cases h with
  | atVersion => exact (fails_byte_iff.mpr ⟨rfl, rfl, rfl⟩).bind _
  | inName hcut =>
      rw [Fails, eval_password_one]
      exact (fails_readField_iff.mpr ⟨rfl, e, hcut, rfl⟩).bind _
  | inPassword hname hcut =>
      rw [Fails, eval_password_one, (reads_readField_iff.mpr ⟨hname, rfl⟩).eval_bind]
      exact (fails_readField_iff.mpr ⟨rfl, e, hcut, rfl⟩).bind _

theorem Refused.eval_eq (h : Refused (store · · = true) input rest fault) :
    (password store).eval input = ⟨.error (.authentication fault), rest, refusal⟩ := by
  cases h with
  | version _ hv => exact eval_password_of_ne hv rest
  | @malformed name pass _ hname hpass hno =>
      rw [eval_password_counted hname hpass, check]
      split
      · rename_i user password hu hp
        have hu := (Text.ofBytes?_eq_some_iff.mp hu).symm
        have hp := (Text.ofBytes?_eq_some_iff.mp hp).symm
        rcases hno with hno | hno
        · exact absurd hu (hno user)
        · exact absurd hp (hno password)
      · exact eval_refuse _ rest
  | @nameless password _ hpass =>
      rw [login, eval_password_counted (by decide) hpass, check]
      simp only [Text.ofBytes?_toBytes, if_true]
      exact eval_refuse _ rest
  | @wrong user password _ hne huser hpass hno =>
      rw [login, eval_password_counted huser hpass, check]
      simp only [Text.ofBytes?_toBytes, if_neg hne, if_neg hno]
      exact eval_refuse _ rest

/-- A client is let in exactly when it shows a name and a password that the store accepts. -/
theorem eval_password_eq_ok_iff {user : String} {said : Bytes} :
    (password store).eval input = ⟨.ok user, rest, said⟩ ↔
      said = welcome ∧
        ∃ password, Admits store user password ∧ input = login user password ++ rest := by
  rw [eval_eq_ok_iff]
  constructor
  · rintro ⟨heard, rfl, h⟩
    obtain ⟨password, hadmits, rfl, rfl⟩ := reaches_password_iff.mp h
    exact ⟨rfl, password, hadmits, rfl⟩
  · rintro ⟨rfl, password, hadmits, rfl⟩
    exact ⟨_, rfl, reaches_password_iff.mpr ⟨password, hadmits, rfl, rfl⟩⟩

/-- Whatever a client shows, it is let in, it is told nothing, or it is turned away. -/
theorem eval_password_cases (store : CredentialStore) (input : Bytes) :
    let o := (password store).eval input
    (∃ user rest, o = ⟨.ok user, rest, welcome⟩) ∨
      (∃ e, CutShort input e ∧ o = ⟨.error (.transport e), [], []⟩) ∨
      ∃ rest fault, Refused (store · · = true) input rest fault ∧
        o = ⟨.error (.authentication fault), rest, refusal⟩ := by
  intro o
  rcases shown_cases store input with
    ⟨user, password, rest, hadmits, hinput⟩ | ⟨e, hcut⟩ | ⟨rest, fault, hrefused⟩
  · exact .inl ⟨user, rest, eval_password_eq_ok_iff.mpr ⟨rfl, password, hadmits, hinput⟩⟩
  · exact .inr (.inl ⟨e, hcut, hcut.fails⟩)
  · exact .inr (.inr ⟨rest, fault, hrefused, hrefused.eval_eq⟩)

/-- A client is told nothing exactly when it shows too little. -/
theorem eval_password_eq_transport_iff {said : Bytes} :
    (password store).eval input = ⟨.error (.transport e), rest, said⟩ ↔
      said = [] ∧ rest = [] ∧ CutShort input e := by
  constructor
  · intro h
    rcases eval_password_cases store input with
      ⟨user, left, ho⟩ | ⟨e', hcut, ho⟩ | ⟨left, fault, -, ho⟩
    · rw [ho] at h
      cases h
    · rw [ho] at h
      cases h
      exact ⟨rfl, rfl, hcut⟩
    · rw [ho] at h
      cases h
  · rintro ⟨rfl, rfl, hcut⟩
    exact hcut.fails

/-- A client is turned away exactly when it shows something wrong. -/
theorem eval_password_eq_authentication_iff {said : Bytes} :
    (password store).eval input = ⟨.error (.authentication fault), rest, said⟩ ↔
      said = refusal ∧ Refused (store · · = true) input rest fault := by
  constructor
  · intro h
    rcases eval_password_cases store input with
      ⟨user, left, ho⟩ | ⟨e', -, ho⟩ | ⟨left, fault', hrefused, ho⟩
    · rw [ho] at h
      cases h
    · rw [ho] at h
      cases h
    · rw [ho] at h
      cases h
      exact ⟨rfl, hrefused⟩
  · rintro ⟨rfl, hrefused⟩
    exact hrefused.eval_eq

/-- What is said tells whether the client is let in, or turned away. -/
theorem said_password_iff (store : CredentialStore) (input : Bytes) :
    let o := (password store).eval input
    (o.said = welcome ↔ ∃ user, o.result = .ok user) ∧
      (o.said = refusal ↔ ∃ fault, o.result = .error (.authentication fault)) := by
  intro o
  rcases eval_password_cases store input with
    ⟨user, rest, ho⟩ | ⟨e, -, ho⟩ | ⟨rest, fault, -, ho⟩ <;>
    · have ho' : o = _ := ho
      simp [ho', welcome, refusal]

/-! ### Users that are told one by one -/

theorem admits_iff_registered {user password : String} :
    Admits (Credentials.ofList users).accepts user password ↔ Registered users user password := by
  constructor
  · rintro ⟨hne, huser, hpassword, hvalid⟩
    exact ⟨hne, huser, hpassword, Credentials.accepts_ofList_iff.mp hvalid⟩
  · rintro ⟨hne, huser, hpassword, hlast⟩
    exact ⟨hne, huser, hpassword, Credentials.accepts_ofList_iff.mpr hlast⟩

theorem accepts_ofList_eq_givenLast (users : List (String × String)) :
    ((Credentials.ofList users).accepts · · = true) = Credentials.GivenLast users := by
  funext user password
  exact propext Credentials.accepts_ofList_iff

/-- Password exchange. Of the users that a server is told one by one, a client is let in exactly
when it shows the name of one and the password that was given last for it; it is then told so, and
what follows is left unread. Where the octets end inside a field, the exchange fails with the end of
the input, and nothing is said. In all other cases the client is turned away, for what is wrong
first, with the same two octets whatever is wrong and whoever the users are. Success is told exactly
when the exchange succeeds, and all this does not depend on the pieces in which the octets come. -/
theorem password_exchange (users : List (String × String)) (input : Bytes) :
    let exchange := password (Credentials.ofList users).accepts
    let o := exchange.eval input
    (∀ user rest said, o = ⟨.ok user, rest, said⟩ ↔
      said = [1, 0] ∧
        ∃ password, Registered users user password ∧ input = login user password ++ rest) ∧
    (∀ e rest said, o = ⟨.error (.transport e), rest, said⟩ ↔
      said = [] ∧ rest = [] ∧ CutShort input e) ∧
    (∀ e, CutShort input e → e.kind = .unexpectedEof) ∧
    (∀ fault rest said, o = ⟨.error (.authentication fault), rest, said⟩ ↔
      said = [1, 1] ∧ Refused (Credentials.GivenLast users) input rest fault) ∧
    ((∃ user, o.result = .ok user) ∨ (∃ e, o.result = .error (.transport e)) ∨
      ∃ fault, o.result = .error (.authentication fault)) ∧
    (o.said = [1, 0] ↔ ∃ user, o.result = .ok user) ∧
    (∀ users' input' fault fault',
      let o' := (password (Credentials.ofList users').accepts).eval input'
      o.result = .error (.authentication fault) →
        o'.result = .error (.authentication fault') → o.said = o'.said) ∧
    ∀ v : Delivery, v.bytes = input →
      (exchange.deliver v none .ended).1 = .finished o.result ∧
      (exchange.deliver v none .ended).2.incoming = o.rest ∧
      (exchange.deliver v none .ended).2.written = o.said := by
  intro exchange o
  refine ⟨fun user rest said => ?_, fun e rest said => eval_password_eq_transport_iff,
    fun e hcut => hcut.kind_eq, fun fault rest said => ?_, ?_,
    (said_password_iff _ input).1, fun users' input' fault fault' => ?_, ?_⟩
  · simp only [← admits_iff_registered]
    exact eval_password_eq_ok_iff
  · rw [← accepts_ofList_eq_givenLast]
    exact eval_password_eq_authentication_iff
  · rcases eval_password_cases (Credentials.ofList users).accepts input with
      ⟨user, rest, ho⟩ | ⟨e, -, ho⟩ | ⟨rest, fault, -, ho⟩
    · exact .inl ⟨user, congrArg Outcome.result ho⟩
    · exact .inr (.inl ⟨e, congrArg Outcome.result ho⟩)
    · exact .inr (.inr ⟨fault, congrArg Outcome.result ho⟩)
  · intro o' h h'
    have hsaid := (said_password_iff _ input).2.mpr ⟨fault, h⟩
    have hsaid' := (said_password_iff _ input').2.mpr ⟨fault', h'⟩
    exact hsaid.trans hsaid'.symm
  · rintro v rfl
    exact exchange.deliver_ended v

/-- A user whose password is replaced is let in with the new one, whose octets come one by one, and
is turned away with the old one as somebody is who speaks another version to a server without users;
one octet of a name of two is too little. -/
theorem password_exchange_replaced :
    let users := [("u", "a"), ("v", "a"), ("u", "b")]
    let exchange := password (Credentials.ofList users).accepts
    let sent := login "u" "b" ++ [5]
    let v : Delivery := ⟨some ⟨1, by decide⟩, none, sent.map fun b => [b]⟩
    let old := exchange.eval (login "u" "a")
    let other := (password (Credentials.ofList []).accepts).eval [4, 1]
    (Registered users "u" "b" ∧ v.bytes = sent ∧
      (exchange.deliver v none .ended).1 = .finished (.ok "u") ∧
      (exchange.deliver v none .ended).2.written = [1, 0]) ∧
    (old = ⟨.error (.authentication (.wrongCredentials "u")), [], [1, 1]⟩ ∧
      other.result = .error (.authentication (.unknownExchange 4)) ∧ old.said = other.said) ∧
    CutShort [1, 2, 117] .endOfBlock ∧ IoError.endOfBlock.kind = .unexpectedEof ∧
      (exchange.eval [1, 2, 117]).said = [] := by
  intro users exchange sent v old other
  have hlast : Registered users "u" "b" :=
    ⟨by decide, by decide, by decide, [("u", "a"), ("v", "a")], [], rfl, by simp⟩
  have hreplaced : ¬Credentials.GivenLast users "u" "a" := by
    rw [← Credentials.accepts_ofList_iff]
    decide
  have hbytes : v.bytes = sent := by decide
  have hcut : CutShort [1, 2, 117] .endOfBlock := .inName (.short (by decide))
  obtain ⟨hok, -, -, -, -, -, -, hdeliver⟩ := password_exchange users sent
  obtain ⟨-, -, -, hrefused, -, -, hsame, -⟩ := password_exchange users (login "u" "a")
  obtain ⟨-, hshort, hkind, -⟩ := password_exchange users [1, 2, 117]
  have hnew := (hok "u" [5] [1, 0]).mpr ⟨rfl, "b", hlast, rfl⟩
  have hold := (hrefused (.wrongCredentials "u") [] [1, 1]).mpr
    ⟨rfl, .wrong [] (by decide) (by decide) (by decide) hreplaced⟩
  have hother : other.result = .error (.authentication (.unknownExchange 4)) := rfl
  obtain ⟨hfinished, -, hwritten⟩ := hdeliver v hbytes
  refine ⟨⟨hlast, hbytes, ?_, ?_⟩, ⟨hold, hother, ?_⟩, hcut, hkind _ hcut, ?_⟩
  · rw [hfinished, hnew]
  · rw [hwritten, hnew]
  · exact hsame [] [4, 1] _ _ (congrArg Outcome.result hold) hother
  · rw [(hshort .endOfBlock [] []).mpr ⟨rfl, rfl, hcut⟩]

end Authentication

end Socks
