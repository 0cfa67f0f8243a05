import Socks.Proofs.Session.Equipped

/-!
# What is sent on for the client of an association

Of the datagrams that a client sends to its association, those that are whole and well formed are
sent on, each with its own payload to its own destination, in the order in which they came. Names
are looked up, one after the other, and nothing else is. What becomes of a datagram is no matter for
those after it.

Main statement: `Session.datagrams_forwarded`.
-/

namespace Socks

namespace Association

variable {resolve : Answers} {there : Address}
  {client : Endpoint} {since free events : List Event} {as : List (Packet × List Event)}

/-! ### Which datagrams are taken up -/

/-- The datagrams of a client that reach the inner socket. -/
def datagramsOf (client : Endpoint) (events : List Event) : List Packet :=
  events.filterMap fun
    | .innerReceives source packet => if source = client then some packet else none
    | _ => none

/-- The answer about a datagram that was not there at once, but came with an event. -/
def late? (resolve : Answers) (t : Treatment) : Option (Except IoError IpAddress) :=
  match (wanted? t.packet.bytes).map resolve with
  | some none => t.answer?
  | _ => none

def wants (packet : Packet) : Bool := (wanted? packet.bytes).isSome

theorem arrivals_map (client : Endpoint) (events : List Event) :
    (arrivals client events).map Prod.fst = datagramsOf client events := by
  induction events with
  | nil => rfl
  | cons e events ih =>
      cases e with
      | innerReceives source packet =>
          by_cases hsource : source = client
          · simpa [arrivals, datagramsOf, hsource] using ih
          · simpa [arrivals, datagramsOf, hsource] using ih
      | _ => exact ih

/-- A datagram is taken up when it has arrived and the one before it is done with. -/
def moment (free later : List Event) : List Event :=
  if later.length ≤ free.length then later else free

/-- What becomes of datagrams of which the first is taken up at the moment `begun`. -/
inductive Taken (resolve : Answers) (since begun : List Event) (packet : Packet)
    (as : List (Packet × List Event)) : List Treatment → Prop
  | unasked : wanted? packet.bytes = none →
      Taken resolve since begun packet as (⟨packet, none⟩ :: treat resolve since begun as)
  | answered {host : String} {answer : Except IoError IpAddress} {done : List Event} :
      wanted? packet.bytes = some host →
      answeredIn? Event.resolved? (resolve host) begun = some (answer, done) →
        Taken resolve since begun packet as (⟨packet, some answer⟩ :: treat resolve since done as)
  | unanswered {host : String} :
      wanted? packet.bytes = some host → resolve host = none →
      firstAnswer? Event.resolved? begun = none →
        Taken resolve since begun packet as
          [⟨packet, (firstAnswer? Event.resolved? since).map Prod.fst⟩]

theorem taken_treat (resolve : Answers) (since free : List Event) (packet : Packet)
    (later : List Event) (as : List (Packet × List Event)) :
    Taken resolve since (moment free later) packet as
      (treat resolve since free ((packet, later) :: as)) := by
  rw [treat, ← moment]
  cases hwanted : wanted? packet.bytes with
  | none => exact .unasked hwanted
  | some host =>
      dsimp only
      cases hanswer : answeredIn? Event.resolved? (resolve host) (moment free later) with
      | some answered =>
          obtain ⟨answer, done⟩ := answered
          exact .answered hwanted hanswer
      | none =>
          cases hresolve : resolve host with
          | some answer =>
              rw [hresolve] at hanswer
              cases hanswer
          | none =>
              rw [hresolve] at hanswer
              exact .unanswered hwanted hresolve hanswer

theorem treat_prefix (resolve : Answers) (since free : List Event)
    (as : List (Packet × List Event)) :
    (treat resolve since free as).map Treatment.packet <+: as.map Prod.fst := by
  induction as generalizing free with
  | nil => exact List.prefix_refl _
  | cons x as ih =>
      obtain ⟨packet, later⟩ := x
      have htaken := taken_treat resolve since free packet later as
      generalize treat resolve since free ((packet, later) :: as) = ts at htaken ⊢
      cases htaken with
      | unasked => exact List.cons_prefix_cons.mpr ⟨rfl, ih _⟩
      | answered => exact List.cons_prefix_cons.mpr ⟨rfl, ih _⟩
      | unanswered => exact List.cons_prefix_cons.mpr ⟨rfl, List.nil_prefix⟩

theorem treat_all
    (h : ∀ t ∈ treat resolve [] free as, wants t.packet = true → t.answer?.isSome = true) :
    (treat resolve [] free as).map Treatment.packet = as.map Prod.fst := by
  induction as generalizing free with
  | nil => rfl
  | cons x as ih =>
      obtain ⟨packet, later⟩ := x
      have htaken := taken_treat resolve [] free packet later as
      generalize treat resolve [] free ((packet, later) :: as) = ts at h htaken ⊢
      cases htaken with
      | unasked => exact congrArg (packet :: ·) (ih fun t ht => h t (List.mem_cons_of_mem _ ht))
      | answered => exact congrArg (packet :: ·) (ih fun t ht => h t (List.mem_cons_of_mem _ ht))
      | unanswered hwanted =>
          have hanswered := h _ List.mem_cons_self (by rw [wants, hwanted]; rfl)
          cases hanswered

/-- Where every answer is there at once, no datagram waits. -/
theorem treat_prompt
    (h : ∀ x ∈ as, ∀ host, wanted? x.1.bytes = some host → (resolve host).isSome = true) :
    treat resolve since free as = as.map fun x => ⟨x.1, (wanted? x.1.bytes).bind resolve⟩ := by
  induction as generalizing free with
  | nil => rfl
  | cons x as ih =>
      obtain ⟨packet, later⟩ := x
      have hmore : ∀ x ∈ as, ∀ host, wanted? x.1.bytes = some host → (resolve host).isSome = true :=
        fun x hx => h x (List.mem_cons_of_mem _ hx)
      have htaken := taken_treat resolve since free packet later as
      generalize treat resolve since free ((packet, later) :: as) = ts at htaken ⊢
      cases htaken with
      | unasked hwanted => rw [ih hmore, List.map_cons, hwanted, Option.bind_none]
      | @answered host answer done hwanted hanswer =>
          obtain ⟨found, hfound⟩ :=
            Option.isSome_iff_exists.mp (h _ List.mem_cons_self host hwanted)
          rw [hfound] at hanswer
          cases hanswer
          rw [ih hmore, List.map_cons, hwanted, Option.bind_some, hfound]
      | @unanswered host hwanted hresolve =>
          have hfound := h _ List.mem_cons_self host hwanted
          rw [hresolve] at hfound
          cases hfound

theorem treat_answer {t : Treatment} (h : t ∈ treat resolve since free as) {host : String}
    (hwanted : wanted? t.packet.bytes = some host) {answer : Except IoError IpAddress}
    (hanswer : resolve host = some answer) : t.answer? = some answer := by
  induction as generalizing free with
  | nil => cases h
  | cons x as ih =>
      obtain ⟨packet, later⟩ := x
      have htaken := taken_treat resolve since free packet later as
      generalize treat resolve since free ((packet, later) :: as) = ts at h htaken
      cases htaken with
      | unasked hnone =>
          rcases List.mem_cons.mp h with rfl | h
          · rw [hnone] at hwanted
            cases hwanted
          · exact ih h
      | answered hhost hfound =>
          rcases List.mem_cons.mp h with rfl | h
          · rw [hhost] at hwanted
            cases hwanted
            rw [hanswer] at hfound
            cases hfound
            rfl
          · exact ih h
      | unanswered hhost hresolve =>
          obtain rfl := List.mem_singleton.mp h
          rw [hhost] at hwanted
          cases hwanted
          rw [hanswer] at hresolve
          cases hresolve

/-! ### Which answers count -/

theorem late?_of_unwanted {t : Treatment} (h : wanted? t.packet.bytes = none) :
    late? resolve t = none := by
  rw [late?, h]
  rfl

theorem late?_of_wanted {t : Treatment} {host : String} (h : wanted? t.packet.bytes = some host) :
    late? resolve t = if resolve host = none then t.answer? else none := by
  rw [late?, h, Option.map_some]
  cases resolve host with
  | none => rfl
  | some answer => rfl

theorem moment_suffix {later : List Event} (hfree : free <:+ events) (hlater : later <:+ events) :
    moment free later <:+ free := by
  unfold moment
  split_ifs with hle
  · exact List.suffix_of_suffix_length_le hlater hfree hle
  · exact List.suffix_refl _

/-- Every answer that comes with an event counts for one look-up at most, in order. -/
theorem treat_late (hfree : free <:+ events) (has : ∀ x ∈ as, x.2 <:+ events) :
    ((treat resolve since free as).filterMap (late? resolve)).Sublist
      ((free ++ since).filterMap Event.resolved?) := by
  induction as generalizing free with
  | nil => exact List.nil_sublist _
  | cons x as ih =>
      obtain ⟨packet, later⟩ := x
      have hmore : ∀ x ∈ as, x.2 <:+ events := fun x hx => has x (List.mem_cons_of_mem _ hx)
      have hsuffix : moment free later <:+ free := moment_suffix hfree (has _ List.mem_cons_self)
      have hbegun : moment free later <:+ events := hsuffix.trans hfree
      have htaken := taken_treat resolve since free packet later as
      generalize treat resolve since free ((packet, later) :: as) = ts at htaken ⊢
      generalize moment free later = begun at hsuffix hbegun htaken
      refine List.Sublist.trans ?_ ((hsuffix.sublist.append_right since).filterMap _)
      cases htaken with
      | unasked hwanted =>
          rw [List.filterMap_cons_none (late?_of_unwanted hwanted)]
          exact ih hbegun hmore
      | @answered host answer done hwanted hanswer =>
          have hlate := @late?_of_wanted resolve ⟨packet, some answer⟩ host hwanted
          cases hresolve : resolve host with
          | some found =>
              rw [hresolve] at hanswer
              cases hanswer
              rw [if_neg (by simp [hresolve])] at hlate
              rw [List.filterMap_cons_none hlate]
              exact ih hbegun hmore
          | none =>
              rw [hresolve] at hanswer
              obtain ⟨e, hdone⟩ := suffix_of_firstAnswer? hanswer
              have hevents : done <:+ events := (List.suffix_cons e done).trans (hdone.trans hbegun)
              rw [if_pos hresolve] at hlate
              rw [List.filterMap_cons_some hlate, List.filterMap_append,
                filterMap_of_firstAnswer? hanswer, List.cons_append, ← List.filterMap_append]
              exact (ih hevents hmore).cons_cons answer
      | @unanswered host hwanted hresolve hnone =>
          have hlate : ∀ answer?, late? resolve ⟨packet, answer?⟩ = answer? := fun answer? =>
            (late?_of_wanted hwanted).trans (if_pos hresolve)
          rw [List.filterMap_append, filterMap_of_unanswered hnone, List.nil_append]
          cases hsince : firstAnswer? Event.resolved? since with
          | none =>
              rw [Option.map_none, List.filterMap_cons_none (hlate none)]
              exact List.nil_sublist _
          | some answered =>
              rw [Option.map_some, List.filterMap_cons_some (hlate _),
                filterMap_of_firstAnswer? hsince]
              exact (List.nil_sublist _).cons_cons _

/-! ### What does not matter -/

theorem arrivals_sorted (client : Endpoint) (events : List Event) :
    (arrivals client events).Pairwise fun x y => y.2.length < x.2.length := by
  induction events with
  | nil => exact .nil
  | cons e events ih =>
      cases e with
      | innerReceives source packet =>
          rw [arrivals]
          split_ifs
          · exact .cons (fun x hx => length_of_mem_arrivals hx) ih
          · exact ih
      | _ => exact ih

/-- Datagrams that want no look-up make no difference to those that do. -/
theorem treat_filter (hsorted : as.Pairwise fun x y => y.2.length < x.2.length) :
    (treat resolve since free as).filter (fun t => wants t.packet) =
      treat resolve since free (as.filter fun x => wants x.1) := by
  induction as generalizing free with
  | nil => rfl
  | cons x as ih =>
      obtain ⟨packet, later⟩ := x
      obtain ⟨hfirst, hmore⟩ := List.pairwise_cons.mp hsorted
      cases hwanted : wanted? packet.bytes with
      | none =>
          have hwants : wants packet = false := by rw [wants, hwanted]; rfl
          have hrest : treat resolve since (moment free later) (as.filter fun x => wants x.1) =
              treat resolve since free (as.filter fun x => wants x.1) := by
            unfold moment
            split_ifs with hle
            · refine treat_of_later hle fun x hx => ?_
              exact Nat.le_of_lt (hfirst x (List.mem_of_mem_filter hx))
            · rfl
          rw [List.filter_cons_of_neg (by simp [hwants]), ← hrest, ← ih hmore, treat, hwanted,
            ← moment]
          exact List.filter_cons_of_neg (by simp [hwants])
      | some host =>
          have hwants : wants packet = true := by rw [wants, hwanted]; rfl
          rw [List.filter_cons_of_pos (a := (packet, later)) hwants]
          simp only [treat, hwanted]
          split
          · rw [← ih hmore]
            exact List.filter_cons_of_pos hwants
          · exact List.filter_cons_of_pos hwants

/-- What is read of a datagram when it is taken up: its octets and the answer about its host, but
not whether what is sent on for it will be refused. -/
def Treatment.read (t : Treatment) : Bytes × Option (Except IoError IpAddress) :=
  (t.packet.bytes, t.answer?)

/-- Which datagrams will be refused makes no difference to how they are taken up. -/
theorem treat_refused {as' : List (Packet × List Event)}
    (h : (as'.map fun x => (x.1.bytes, x.2)) = as.map fun x => (x.1.bytes, x.2)) :
    (treat resolve since free as').map Treatment.read =
      (treat resolve since free as).map Treatment.read := by
  induction as generalizing as' free with
  | nil => rw [List.map_eq_nil_iff.mp h]
  | cons x as ih =>
      cases as' with
      | nil => cases h
      | cons x' as' =>
          obtain ⟨packet, later⟩ := x
          obtain ⟨packet', later'⟩ := x'
          simp only [List.map_cons, List.cons.injEq, Prod.mk.injEq] at h
          obtain ⟨⟨hbytes, rfl⟩, hmore⟩ := h
          simp only [treat, hbytes]
          cases wanted? packet.bytes with
          | none => simp [Treatment.read, hbytes, ih hmore]
          | some host =>
              dsimp only
              split
              · simp [Treatment.read, hbytes, ih hmore]
              · simp [Treatment.read, hbytes]

/-! ### All datagrams of a client -/

/-- How the datagrams of a client that come with some events are taken up: in order, from the first
one on, and all of them if the inner socket goes on and every look-up is answered. Where answers are
there at once, they are the answers, and nothing waits; an answer that comes with an event counts
once. Only datagrams that want a look-up matter for look-ups, and it does not matter for any which
of them the outer socket refuses. -/
structure TakesUp (resolve : Answers) (client : Endpoint)
    (events : List Event) (ts : List Treatment) : Prop where
  order : ts.map Treatment.packet <+: datagramsOf client (events.takeWhile sound)
  complete : (∀ e ∈ events, sound e = true) →
    (∀ t ∈ ts, wants t.packet = true → t.answer?.isSome = true) →
      ts.map Treatment.packet = datagramsOf client events
  prompt : (∀ packet ∈ datagramsOf client (events.takeWhile sound), ∀ host,
      wanted? packet.bytes = some host → (resolve host).isSome = true) →
    ts = (datagramsOf client (events.takeWhile sound)).map fun packet =>
      ⟨packet, (wanted? packet.bytes).bind resolve⟩
  answer : ∀ t ∈ ts, ∀ host answer, wanted? t.packet.bytes = some host →
    resolve host = some answer → t.answer? = some answer
  late : (ts.filterMap (late? resolve)).Sublist (events.filterMap Event.resolved?)
  lookups : ts.filter (fun t => wants t.packet) =
    treat resolve (events.dropWhile sound) (events.takeWhile sound)
      ((arrivals client (events.takeWhile sound)).filter fun x => wants x.1)
  refused : ∀ as' : List (Packet × List Event),
    (as'.map fun x => (x.1.bytes, x.2)) =
      ((arrivals client (events.takeWhile sound)).map fun x => (x.1.bytes, x.2)) →
        (treat resolve (events.dropWhile sound) (events.takeWhile sound) as').map Treatment.read =
          ts.map Treatment.read

theorem takesUp_treatments (resolve : Answers) (howner : owner? there events = some client) :
    TakesUp resolve client events (treatments resolve there events) := by
  have htreatments : treatments resolve there events =
      treat resolve (events.dropWhile sound) (events.takeWhile sound)
        (arrivals client (events.takeWhile sound)) := by
    rw [treatments, howner]
  rw [htreatments]
  refine ⟨?_, fun hsound hanswered => ?_, fun hprompt => ?_,
    fun t ht host answer hwanted hanswer => treat_answer ht hwanted hanswer, ?_,
    treat_filter (arrivals_sorted _ _), fun as' => treat_refused⟩
  · rw [← arrivals_map]
    exact treat_prefix ..
  · have hall : events.takeWhile sound = events := List.takeWhile_eq_self_iff.mpr hsound
    have hnone : events.dropWhile sound = [] := List.dropWhile_eq_nil_iff.mpr hsound
    rw [hall, hnone] at hanswered ⊢
    rw [treat_all hanswered, arrivals_map]
  · rw [← arrivals_map] at hprompt ⊢
    rw [treat_prompt fun x hx => hprompt x.1 (List.mem_map_of_mem hx), List.map_map]
    rfl
  · have hlate := @treat_late resolve (events.dropWhile sound) _ _ _
      (List.suffix_refl (events.takeWhile sound))
      fun x (hx : x ∈ arrivals client _) =>
        (List.suffix_cons _ _).trans (suffix_of_mem_arrivals hx)
    rwa [List.takeWhile_append_dropWhile] at hlate

end Association

namespace Session

open Association Handshake

variable {service : Service} {c : Connection} {out : Surroundings} {control : Stream} {s : Session}
  {calls : List Call} {events : List Event} {r : Request} {o : Outfit}

/-- What a session has sent on and looked up for its client that has told it about both sockets:
what the treatments of the client's datagrams come to, as long as the client went on. Beside it the
session sends from the inner socket. -/
def Forwards (out : Surroundings) (r : Request) (calls : List Call) (control : Stream)
    (events : List Event) (o : Outfit) (s : Session) : Prop :=
  ∀ inner outer later, o = .ready inner outer later →
    control.Takes (Reply.granted r.version inner).bytes.length →
      ∃ before back, events = before ++ later ∧ (∀ d ∈ back, d.via = inner) ∧
        let lived := attended (endingAfter control.ending before) later
        let treated := treatments out.resolve r.destination lived
        Merges (treated.filterMap (Treatment.sending? outer)) back s.sent ∧
          s.calls = calls ++ (treated.filterMap fun t => wanted? t.packet.bytes).map Call.resolve

theorem Attends.forwards (h : Attends out r calls control events o s) :
    Forwards out r calls control events o s := by
  intro inner outer later ho ht
  obtain ⟨before, he, hdoes⟩ := h inner outer later ho ht
  exact ⟨before, _, he, via_returned, hdoes.merges, hdoes.lookups⟩

/-- What a client sends to its association is sent on: for a request that is known from the start,
for one that comes in a handshake, and for whatever happens while the control stream is open, what
goes out from the outer socket is what `Treatment.sending?` makes of each datagram of the client, in
order, and what is looked up is what `wanted?` tells of each. Without a client there is nothing to
treat, and the client's datagrams are taken up as `TakesUp` says. -/
theorem datagrams_forwarded (service : Service) (c : Connection) (out : Surroundings)
    (control : Stream) (events : List Event) :
    let fitted (r : Request) : List Call := fitting (c.server?.map Endpoint.ip) r
    (∀ r, r.command = .associate → service.rules r = true →
      Forwards out r (fitted r) control events (.ofConnection c out events)
        ((ofRequest service c out control r).trace service c out events)) ∧
    (let s := (start service c out control).trace service c out events
     Outside s ∨
      ∃ before after r hello rest said, events = before ++ after ∧
        Accepts service.authenticator r hello said ∧ sentBy control before = hello ++ rest ∧
        let stream : Stream :=
          { control with
            incoming := rest
            ending := endingAfter control.ending before
            written := control.written ++ said }
        let asked : Request := { r with client? := c.client? }
        r.command = .associate → service.rules asked = true →
          Forwards out asked (fitted asked) stream after (.ofConnection c out after) s) ∧
    ∀ there lived,
      let treated := treatments out.resolve there lived
      (owner? there lived = none → treated = []) ∧
      ∀ client, owner? there lived = some client → TakesUp out.resolve client lived treated := by
  intro fitted
  refine ⟨fun r hcommand hr => (attends_ofRequest hcommand hr events).forwards, ?_,
    fun there lived =>
      ⟨fun hnone => ?_, fun client howner => takesUp_treatments out.resolve howner⟩⟩
  · intro s
    cases enters_trace service c out control events with
    | outside ho => exact .inl ho
    | @inside before after r hello rest said phase he ha hsent hs =>
        refine .inr ⟨before, after, r, hello, rest, said, he, ha, hsent, ?_⟩
        intro stream asked hcommand hr
        have hattends := attends_start hcommand hr hs after
        rw [← he] at hattends
        exact hattends.forwards
  · show treatments _ _ _ = []
    rw [treatments, hnone]

/-- A client sends five datagrams: a malformed one, a fragment, one for a host by name, one for a
literal address, which waits for the look-up, and one that the outer socket refuses. Meanwhile
something comes back. -/
theorem datagrams_forwarded_five :
    let service : Service := ⟨.anyone, fun _ => true, 10, 60⟩
    let out : Surroundings := .silent
    let r : Request := ⟨.v5, .associate, .literal .anyV4 0, .anonymous, none⟩
    let inner : Endpoint := ⟨.ofOctets 127 0 0 1, 1080⟩
    let outer : Endpoint := ⟨.anyV4, 5353⟩
    let client : Endpoint := ⟨.ofOctets 10 0 0 1, 9⟩
    let far : Endpoint := ⟨.ofOctets 10 0 0 7, 53⟩
    let found : IpAddress := .ofOctets 10 0 0 8
    let lived : List Event :=
      [.innerReceives client ⟨[0, 0], true⟩,
        .innerReceives client ⟨[0, 0, 1, 1, 10, 0, 0, 7, 0, 53, 96], true⟩,
        .innerReceives client ⟨[0, 0, 0, 3, 1, 104, 0, 80, 97], true⟩,
        .innerReceives client ⟨[0, 0, 0, 1, 10, 0, 0, 7, 0, 53, 98], true⟩,
        .innerReceives client ⟨[0, 0, 0, 1, 10, 0, 0, 7, 0, 53, 98], false⟩,
        .outerReceives far ⟨[100], true⟩, .resolved (.ok found)]
    let s := (ofRequest service ⟨none, none⟩ out .idle r).trace service ⟨none, none⟩ out
      ([.opened (.ok inner), .opened (.ok outer)] ++ lived)
    r.command = .associate ∧ service.rules r = true ∧
      Stream.Takes .idle (Reply.granted .v5 inner).bytes.length ∧
      (∃ back, (∀ d ∈ back, d.via = inner) ∧
        Merges [⟨outer, ⟨found, 80⟩, [97]⟩, ⟨outer, far, [98]⟩] back s.sent) ∧
      s.calls = fitting none r ++ [.resolve "h"] ∧
      TakesUp out.resolve client lived (treatments out.resolve r.destination lived) := by
  intro service out r inner outer client far found lived s
  have ht : Stream.Takes .idle (Reply.granted .v5 inner).bytes.length :=
    Stream.takes_of_faultless rfl _
  have hforth : (treatments out.resolve r.destination lived).filterMap
      (Treatment.sending? outer) =
        [⟨outer, ⟨found, 80⟩, [97]⟩, ⟨outer, far, [98]⟩] := by decide +kernel
  have hnames : ((treatments out.resolve r.destination lived).filterMap
      fun t => wanted? t.packet.bytes) = ["h"] := by decide +kernel
  obtain ⟨hrequest, -, htakesUp⟩ := datagrams_forwarded service ⟨none, none⟩ out .idle
    ([.opened (.ok inner), .opened (.ok outer)] ++ lived)
  obtain ⟨before, back, he, hback, hmerges, hcalls⟩ :=
    hrequest r rfl rfl inner outer lived rfl ht
  obtain rfl := List.append_cancel_right he
  have hlived : attended (endingAfter Stream.idle.ending [.opened (.ok inner), .opened (.ok outer)])
      lived = lived := attended_of_awaited rfl
  dsimp only at hmerges hcalls
  rw [hlived, hforth] at hmerges
  rw [hlived, hnames] at hcalls
  exact ⟨rfl, rfl, ht, ⟨back, hback, hmerges⟩, hcalls, (htakesUp r.destination lived).2 client rfl⟩

end Session

end Socks
