import Socks.Proofs.PasswordExchange

/-!
# The choice of a method

A client offers methods in the order in which it likes them. The server takes the first byte that
names a method which it supports, and goes on by this method alone.

Main statement: what a server hears, says and comes to, whatever the client sends after the version
(`Authentication.method_exchange`).
-/

namespace Socks

open Dialogue

/-! ### The first method that is supported -/

theorem Method.ofByte?_byte (m : Method) : ofByte? m.byte = some m := by
  cases m <;> rfl

theorem Method.eq_byte_of_ofByte? {b : UInt8} {m : Method} (h : ofByte? b = some m) :
    b = m.byte := by
  unfold ofByte? at h
  split_ifs at h with h₀ h₂
  · obtain rfl := Option.some.inj h
    exact h₀
  · obtain rfl := Option.some.inj h
    exact h₂

namespace Authenticator

variable {a : Authenticator} {offered before after : Bytes} {b : UInt8} {m : Method}
  {m? : Option Method}

/-- A byte that names a method which the server supports. -/
def Supports (a : Authenticator) (b : UInt8) : Prop := ∃ m ∈ a.methods, b = m.byte

/-- `a.Picks offered m?`: the first of the bytes offered that names a method which the server
supports names `m?`; it is nothing if there is no such byte. -/
inductive Picks (a : Authenticator) : Bytes → Option Method → Prop
  | nothing {offered : Bytes} : (∀ b ∈ offered, ¬a.Supports b) → Picks a offered none
  | first (before after : Bytes) {m : Method} :
      (∀ b ∈ before, ¬a.Supports b) → m ∈ a.methods → Picks a (before ++ m.byte :: after) (some m)

theorem select?_byte_cons (h : m ∈ a.methods) : a.select? (m.byte :: after) = some m := by
  rw [select?, List.filterMap_cons_some (Method.ofByte?_byte m), List.find?_cons_of_pos]
  exact List.contains_iff_mem.mpr h

theorem select?_cons_of_not (h : ¬a.Supports b) : a.select? (b :: after) = a.select? after := by
  cases hb : Method.ofByte? b with
  | none => rw [select?, List.filterMap_cons_none hb, select?]
  | some m =>
      rw [select?, List.filterMap_cons_some hb, List.find?_cons_of_neg, select?]
      intro hm
      exact h ⟨m, List.contains_iff_mem.mp hm, Method.eq_byte_of_ofByte? hb⟩

theorem select?_append_of_not (h : ∀ b ∈ before, ¬a.Supports b) :
    a.select? (before ++ after) = a.select? after := by
  induction before with
  | nil => rfl
  | cons b before ih =>
      rw [List.cons_append, select?_cons_of_not (h b List.mem_cons_self)]
      exact ih fun x hx => h x (List.mem_cons_of_mem b hx)

/-- The server selects what it picks. -/
theorem Picks.select?_eq (h : a.Picks offered m?) : a.select? offered = m? := by
  cases h with
  | nothing hnone =>
      have hall : a.select? (offered ++ []) = none := select?_append_of_not hnone
      rw [List.append_nil] at hall
      exact hall
  | first before after hbefore hm => rw [select?_append_of_not hbefore, select?_byte_cons hm]

theorem picks_select? (a : Authenticator) (offered : Bytes) :
    a.Picks offered (a.select? offered) := by
  induction offered with
  | nil => exact .nothing (by simp)
  | cons b offered ih =>
      by_cases hb : a.Supports b
      · obtain ⟨m, hm, rfl⟩ := hb
        rw [select?_byte_cons hm]
        exact .first [] offered (by simp) hm
      · rw [select?_cons_of_not hb]
        generalize a.select? offered = m? at ih
        cases ih with
        | nothing hnone => exact .nothing (List.forall_mem_cons.mpr ⟨hb, hnone⟩)
        | first before after hbefore hm =>
            exact .first (b :: before) after (List.forall_mem_cons.mpr ⟨hb, hbefore⟩) hm

theorem picks_iff : a.Picks offered m? ↔ a.select? offered = m? := by
  constructor
  · exact Picks.select?_eq
  · rintro rfl
    exact picks_select? a offered

theorem Picks.mem (h : a.Picks offered (some m)) : m.byte ∈ offered ∧ m ∈ a.methods := by
  cases h with
  | first _ _ _ hm => exact ⟨by simp, hm⟩

end Authenticator

/-! ### The methods of a server and its judgement, each for itself -/

/-- The methods that a server supports and its judgement on passwords, if it has one. -/
structure Authenticator.Means where
  methods : List Method
  store? : Option CredentialStore

/-- The means of a server: it supports passwords together with a judgement on them. -/
def Authenticator.means : Authenticator → Means
  | .anyone => ⟨[.noAuth], none⟩
  | .credentials store required =>
    ⟨if required then [.userPass] else [.noAuth, .userPass], some store⟩

theorem Authenticator.methods_means (a : Authenticator) : a.means.methods = a.methods := by
  match a with
  | .anyone | .credentials _ true | .credentials _ false => rfl

namespace Authenticator.Means

/-- The first method offered that is among those supported. -/
def select? (w : Means) (offered : Bytes) : Option Method :=
  (offered.filterMap Method.ofByte?).find? fun m => w.methods.contains m

/-- Goes on by the method that was chosen, if there is a judgement where one is needed. -/
def proceed (w : Means) (offered : Bytes) : Option Method → Dialogue Identity
  | some .noAuth => return .anonymous
  | some .userPass =>
    match w.store? with
    | some store => return .user .userPass (← Authentication.password store)
    | none => Dialogue.fail (.authentication (.other "no credentials configured"))
  | none => Dialogue.fail (.authentication (.noAcceptableMethod offered))

/-- Settles on a method with a client and goes through it, with means that may not fit together. -/
def negotiate (w : Means) : Dialogue Identity := do
  let count ← Dialogue.byte
  if count = 0 then
    Dialogue.say (Authentication.choice none)
    Dialogue.fail (.authentication .noMethods)
  else
    let offered ← Dialogue.block count.toNat
    let chosen := w.select? offered.bytes
    Dialogue.say (Authentication.choice chosen)
    w.proceed offered.bytes chosen

end Authenticator.Means

namespace Authentication

variable {a : Authenticator} {m? : Option Method} {fault : AuthFault}

/-! ### What a client can offer -/

/-- Whatever a client sends after the version, it is nothing, no methods, fewer methods than it
says, or as many. -/
theorem offer_cases (input : Bytes) :
    input = [] ∨ (∃ rest, input = 0 :: rest) ∨
      (∃ (n : UInt8) (octets : Bytes), octets.length < n.toNat ∧ input = n :: octets) ∨
      ∃ (n : UInt8) (offered : Block n.toNat) (rest : Bytes), n ≠ 0 ∧
        input = n :: (offered.bytes ++ rest) := by
  rcases input with _ | ⟨n, octets⟩
  · exact .inl rfl
  by_cases hn : n = 0
  · subst hn
    exact .inr (.inl ⟨octets, rfl⟩)
  by_cases hlt : octets.length < n.toNat
  · exact .inr (.inr (.inl ⟨n, octets, hlt, rfl⟩))
  · let offered : Block n.toNat :=
      ⟨octets.take n.toNat, List.length_take_of_le (Nat.not_lt.mp hlt)⟩
    exact .inr (.inr (.inr
      ⟨n, offered, octets.drop n.toNat, hn, by rw [List.take_append_drop]⟩))

/-! ### What the server makes of it -/

theorem fails_negotiate_nil : (negotiate a).Fails [] [] (.transport .endOfNumber) :=
  (fails_byte_iff.mpr ⟨rfl, rfl, rfl⟩).bind _

theorem eval_negotiate_zero (rest : Bytes) :
    (negotiate a).eval (0 :: rest) =
      ⟨.error (.authentication .noMethods), rest, [5, 0xFF]⟩ := rfl

variable {n : UInt8}

theorem eval_negotiate_of_ne (hn : n ≠ 0) (rest : Bytes) :
    (negotiate a).eval (n :: rest) =
      (do let offered ← block n.toNat
          let chosen := a.select? offered.bytes
          say (choice chosen)
          proceed a offered.bytes chosen : Dialogue Identity).eval rest := by
  unfold negotiate
  refine ((reads_byte n).eval_bind _ rest).trans ?_
  rw [if_neg hn]

theorem fails_negotiate_of_lt {octets : Bytes} (h : octets.length < n.toNat) :
    (negotiate a).Fails (n :: octets) [] (.transport .endOfBlock) := by
  have hn : n ≠ 0 := by
    rintro rfl
    exact absurd h (Nat.not_lt_zero _)
  rw [Fails, eval_negotiate_of_ne hn]
  exact (fails_block_iff.mpr ⟨h, rfl, rfl⟩).bind _

theorem eval_negotiate_offered (hn : n ≠ 0) (offered : Block n.toNat) (rest : Bytes)
    (hm : a.select? offered.bytes = m?) :
    (negotiate a).eval (n :: (offered.bytes ++ rest)) =
      let o := (proceed a offered.bytes m?).eval rest
      ⟨o.result, o.rest, choice m? ++ o.said⟩ := by
  rw [eval_negotiate_of_ne hn, (reads_block offered).eval_bind, hm, eval_say_bind]

/-- The choice is the first thing that is said, after the methods and before anything else is
heard. -/
theorem reaches_choice (hn : n ≠ 0) (offered : Block n.toNat)
    (hm : a.select? offered.bytes = m?) :
    ∃ next, (negotiate a).Reaches (n :: offered.bytes) [] (.write (choice m?) next) ∧
      next (.ok ()) = proceed a offered.bytes m? ∧ ∀ e, next (.error e) = fail (.transport e) := by
  subst hm
  let told : Dialogue Identity := say (choice (a.select? offered.bytes)) >>= fun _ =>
    proceed a offered.bytes (a.select? offered.bytes)
  have hblock : (block n.toNat >>= fun offered =>
      say (choice (a.select? offered.bytes)) >>= fun _ =>
        proceed a offered.bytes (a.select? offered.bytes)).Reaches (offered.bytes ++ []) [] told :=
    (reads_block offered).reaches_bind (.here told)
  have hreads : (negotiate a).Reaches (n :: offered.bytes) [] told := by
    refine (reads_byte n).reaches_bind ?_
    rw [if_neg hn]
    exact List.append_nil offered.bytes ▸ hblock
  exact ⟨_, hreads, rfl, fun e => rfl⟩

/-! ### What comes of an offer -/

/-- What comes of an offer of methods and the bytes `rest` after it, when the server picks `m?`. -/
structure Answered (a : Authenticator) (offered rest : Bytes) (m? : Option Method)
    (o : Outcome Identity) : Prop where
  nobody : m? = none →
    o = ⟨.error (.authentication (.noAcceptableMethod offered)), rest, [5, 0xFF]⟩
  anonymous : m? = some .noAuth → o = ⟨.ok .anonymous, rest, [5, 0]⟩
  user : m? = some .userPass → ∃ store required, a = .credentials store required ∧
    let exchange := (password store).eval rest
    o = ⟨exchange.result.map (Identity.user .userPass), exchange.rest, [5, 2] ++ exchange.said⟩
  anonymous_only : o.result = .ok .anonymous → m? = some .noAuth
  nobody_only : ∀ others, o.result = .error (.authentication (.noAcceptableMethod others)) →
    m? = none

theorem credentials_of_userPass (h : Method.userPass ∈ a.methods) :
    ∃ store required, a = .credentials store required := by
  cases a with
  | anyone => simp [Authenticator.methods] at h
  | credentials store required => exact ⟨store, required, rfl⟩

theorem password_noAcceptableMethod {store : CredentialStore} {input others : Bytes} :
    ((password store).eval input).result ≠
      .error (.authentication (.noAcceptableMethod others)) := by
  intro h
  rcases eval_password_cases store input with
    ⟨user, rest, ho⟩ | ⟨e, -, ho⟩ | ⟨rest, fault, hrefused, ho⟩
  · rw [ho] at h
    cases h
  · rw [ho] at h
    cases h
  · rw [ho] at h
    cases h
    cases hrefused

theorem map_user_cases (result : Except Failure String) :
    result.map (Identity.user .userPass) ≠ .ok .anonymous ∧
      ∀ f, result.map (Identity.user .userPass) = .error f → result = .error f := by
  cases result with
  | ok user => exact ⟨nofun, nofun⟩
  | error e =>
      refine ⟨nofun, fun f h => ?_⟩
      cases h
      rfl

/-- What comes of an offer is told by the choice. -/
theorem answered (hn : n ≠ 0) (offered : Block n.toNat) (rest : Bytes)
    (hm : a.select? offered.bytes = m?) :
    Answered a offered.bytes rest m? ((negotiate a).eval (n :: (offered.bytes ++ rest))) := by
  rw [eval_negotiate_offered hn offered rest hm]
  match m?, hm with
  | none, _ =>
      have ho : (proceed a offered.bytes none).eval rest =
          ⟨.error (.authentication (.noAcceptableMethod offered.bytes)), rest, []⟩ := rfl
      rw [ho]
      exact ⟨fun _ => rfl, nofun, nofun, nofun, fun _ _ => rfl⟩
  | some .noAuth, _ =>
      have ho : (proceed a offered.bytes (some .noAuth)).eval rest = ⟨.ok .anonymous, rest, []⟩ :=
        rfl
      rw [ho]
      exact ⟨nofun, fun _ => rfl, nofun, fun _ => rfl, fun _ => nofun⟩
  | some .userPass, hm =>
      obtain ⟨store, required, rfl⟩ :=
        credentials_of_userPass (Authenticator.picks_iff.mpr hm).mem.2
      have ho : (proceed (.credentials store required) offered.bytes (some .userPass)).eval rest =
          _ := eval_bind_pure (password store) (Identity.user .userPass) rest
      rw [ho]
      obtain ⟨hnamed, hfails⟩ := map_user_cases ((password store).eval rest).result
      exact ⟨nofun, nofun, fun _ => ⟨store, required, rfl, rfl⟩, fun h => absurd h hnamed,
        fun others h => absurd (hfails _ h) password_noAcceptableMethod⟩

/-! ### The judgement on passwords is there when it is needed -/

/-- A server goes by passwords only with those for whom it has a judgement: to look for one changes
nothing. -/
theorem negotiate_means (a : Authenticator) : a.means.negotiate = negotiate a := by
  have hselect : a.means.select? = a.select? := by
    funext offered
    rw [Authenticator.Means.select?, a.methods_means, Authenticator.select?]
  have hproceed (offered : Bytes) :
      a.means.proceed offered (a.select? offered) = proceed a offered (a.select? offered) := by
    match hm : a.select? offered with
    | none | some .noAuth => rfl
    | some .userPass =>
        obtain ⟨store, required, rfl⟩ :=
          credentials_of_userPass (Authenticator.picks_iff.mpr hm).mem.2
        rfl
  unfold Authenticator.Means.negotiate negotiate
  rw [hselect]
  simp only [hproceed]

/-- What is wrong with a client is not told in words of another kind. -/
theorem fault_ne_other {input : Bytes} {fault : AuthFault} {text : String}
    (h : ((negotiate a).eval input).result = .error (.authentication fault)) :
    fault ≠ .other text := by
  rintro rfl
  rcases offer_cases input with
    rfl | ⟨rest, rfl⟩ | ⟨n, octets, hlt, rfl⟩ | ⟨n, offered, rest, hn, rfl⟩
  · rw [fails_negotiate_nil] at h
    cases h
  · rw [eval_negotiate_zero] at h
    cases h
  · rw [fails_negotiate_of_lt hlt] at h
    cases h
  obtain ⟨m?, hm⟩ : ∃ m?, a.select? offered.bytes = m? := ⟨_, rfl⟩
  have hanswered := answered hn offered rest hm
  match m? with
  | none =>
      rw [hanswered.nobody rfl] at h
      cases h
  | some .noAuth =>
      rw [hanswered.anonymous rfl] at h
      cases h
  | some .userPass =>
      obtain ⟨store, required, rfl, ho⟩ := hanswered.user rfl
      rw [ho] at h
      have hexchange := (map_user_cases _).2 _ h
      rcases eval_password_cases store rest with
        ⟨user, left, ho⟩ | ⟨e, -, ho⟩ | ⟨left, fault, hrefused, ho⟩
      · rw [ho] at hexchange
        cases hexchange
      · rw [ho] at hexchange
        cases hexchange
      · rw [ho] at hexchange
        cases hexchange
        cases hrefused

theorem append_ne_of_not_prefix {s t u : String} (h : ¬s.toList <+: u.toList) : s ++ t ≠ u := by
  rintro rfl
  exact h (by simp)

/-- The missing judgement is not what any fault with words of its own is about. -/
theorem message_ne_of_ne_other (h : ∀ text, fault ≠ .other text) :
    fault.message ≠ "no credentials configured" := by
  cases fault with
  | noMethods | malformedCredentials | emptyUsername => decide
  | noAcceptableMethod offered =>
      show "no acceptable authentication method, client offered [" ++ _ ++ "]" ≠ _
      rw [String.append_assoc]
      exact append_ne_of_not_prefix (by decide)
  | unknownExchange version =>
      show "invalid auth version: " ++ Nat.repr version.toNat ≠ _
      exact append_ne_of_not_prefix (by decide)
  | wrongCredentials username =>
      show "invalid credentials for user: " ++ username ≠ _
      exact append_ne_of_not_prefix (by decide)
  | cannotAuthenticate version => cases version <;> decide
  | other text => exact absurd rfl (h text)

/-- Method negotiation. A client that sends nothing, or fewer methods than it says, is told nothing,
and one that offers none is turned away. Of an offer the server picks the first byte that names a
method which it supports; it tells its choice when it has heard the offer and nothing after it, and
goes on by it alone: without a method the client is turned away, without credentials it is let in,
and with passwords it comes to what the exchange of them comes to. Where credentials are required
nobody is let in without them; where they are asked for, there is a judgement on them. -/
theorem method_exchange (a : Authenticator) :
    let exchange := negotiate a
    (exchange.eval [] = ⟨.error (.transport .endOfNumber), [], []⟩ ∧
      (∀ (n : UInt8) (octets : Bytes), octets.length < n.toNat →
        exchange.eval (n :: octets) = ⟨.error (.transport .endOfBlock), [], []⟩) ∧
      IoError.endOfNumber.kind = .unexpectedEof ∧ IoError.endOfBlock.kind = .unexpectedEof) ∧
    (∀ rest, exchange.eval (0 :: rest) = ⟨.error (.authentication .noMethods), rest, [5, 0xFF]⟩) ∧
    (∀ (n : UInt8) (offered : Block n.toNat), n ≠ 0 → ∃ m? : Option Method,
      (∀ m?', a.Picks offered.bytes m?' ↔ m?' = m?) ∧
      (∀ m, m? = some m → m.byte ∈ offered.bytes ∧ m ∈ a.methods) ∧
      (∃ next, exchange.Reaches (n :: offered.bytes) []
          (.write [5, (m?.map Method.byte).getD 0xFF] next) ∧
        next (.ok ()) = proceed a offered.bytes m? ∧
        ∀ e, next (.error e) = Dialogue.fail (.transport e)) ∧
      ∀ rest, Answered a offered.bytes rest m? (exchange.eval (n :: (offered.bytes ++ rest)))) ∧
    (∀ store required offered, a = .credentials store required → required = true →
      ¬a.Picks offered (some .noAuth)) ∧
    a.means.negotiate = exchange ∧
    ∀ input fault, (exchange.eval input).result = .error (.authentication fault) →
      fault.message ≠ "no credentials configured" := by
  intro exchange
  refine ⟨⟨fails_negotiate_nil, fun n octets hlt => fails_negotiate_of_lt hlt, rfl, rfl⟩,
    eval_negotiate_zero, fun n offered hn => ?_, ?_, negotiate_means a, fun input fault h => ?_⟩
  · have hpicks := a.picks_select? offered.bytes
    refine ⟨a.select? offered.bytes, fun m?' => ?_, fun m hm => ?_, reaches_choice hn offered rfl,
      fun rest => answered hn offered rest rfl⟩
    · rw [Authenticator.picks_iff]
      exact eq_comm
    · exact (Authenticator.picks_iff.mpr hm).mem
  · rintro store required offered rfl rfl hpicks
    exact absurd hpicks.mem.2 (by simp [Authenticator.methods])
  · exact message_ne_of_ne_other fun text => fault_ne_other h

/-- A client that offers an unknown method, passwords and no credentials, in this order, goes by
passwords; when it shows a wrong one it is turned away, although it offered to go without. -/
theorem method_exchange_no_fallback :
    let store : CredentialStore := fun user password => user = "u" && password = "p"
    let a := Authenticator.credentials store false
    let strict := Authenticator.credentials store true
    let exchange := negotiate a
    let attempt := login "u" "q"
    ((3 : UInt8) ≠ 0 ∧ a.Picks [9, 2, 0] (some .userPass) ∧
      (exchange.eval (3 :: ([9, 2, 0] ++ attempt))).result =
        .error (.authentication (.wrongCredentials "u")) ∧
      (exchange.eval (3 :: ([9, 2, 0] ++ attempt))).said = [5, 2, 1, 1] ∧
      (AuthFault.wrongCredentials "u").message ≠ "no credentials configured") ∧
    (List.length ([9] : Bytes) < (2 : UInt8).toNat ∧
      exchange.eval [2, 9] = ⟨.error (.transport .endOfBlock), [], []⟩) ∧
    strict = .credentials store true ∧ ¬strict.Picks [2, 0] (some .noAuth) := by
  intro store a strict exchange attempt
  obtain ⟨⟨-, hshort, -⟩, -, hoffer, -, -, hmessage⟩ := method_exchange a
  obtain ⟨-, -, -, hstrict, -, -⟩ := method_exchange strict
  have hunknown : ∀ b ∈ ([9] : Bytes), ¬a.Supports b := by
    rintro b hb ⟨m, -, rfl⟩
    cases m <;> exact absurd hb (by decide)
  have hpicks : a.Picks [9, 2, 0] (some .userPass) :=
    @Authenticator.Picks.first a [9] [0] .userPass hunknown (by decide)
  obtain ⟨m?, hm, -, -, hanswered⟩ := hoffer 3 ⟨[9, 2, 0], rfl⟩ (by decide)
  obtain ⟨store', required, hcredentials, ho⟩ := (hanswered attempt).user ((hm _).mp hpicks).symm
  obtain ⟨rfl, rfl⟩ := Authenticator.credentials.inj hcredentials
  have hwrong : (password store).eval attempt =
      ⟨.error (.authentication (.wrongCredentials "u")), [], [1, 1]⟩ := by
    refine Refused.eval_eq (.wrong [] (by decide) (by decide) (by decide) ?_)
    decide
  have hresult : (exchange.eval (3 :: ([9, 2, 0] ++ attempt))).result =
      .error (.authentication (.wrongCredentials "u")) := by
    rw [ho, hwrong]
    rfl
  refine ⟨⟨by decide, hpicks, hresult, ?_, hmessage _ _ hresult⟩,
    ⟨by decide, hshort 2 [9] (by decide)⟩, rfl, hstrict store true _ rfl rfl⟩
  rw [ho, hwrong]
  rfl

end Authentication

end Socks
