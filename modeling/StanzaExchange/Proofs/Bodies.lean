import StanzaExchange.Proofs.FeedOrder
import StanzaExchange.Proofs.Grammar

/-!
The pending body of the in-process transport (section 10.1 of the specification, module memory).
`next` stores the body of the element it returns, replacing any earlier one; `decode` takes the
pending body in any case and decodes it if its name is that of the tag; `skip` drops it if its name
is that of the tag. The transport contract asks for the body of the given tag; since only names are
compared, an element of the same name read later can be decoded in its place. The theorems state
what holds instead.
-/
namespace StanzaExchange

/-- Decoding an element never reports a missing body. -/
theorem Element.decode_ne_missingBody (tag : Tag) (e : Element) (name : String) :
    e.decode tag ≠ .error (.missingBody name) := by
  intro refused
  obtain ⟨rule, -, broken⟩ := ((decode_checks _).mp refused).exists_breaks
  cases broken

namespace Feed

variable {f : Feed} {e : Element} {start : StartTag}

theorem decode_of_body (waits : f.body = some e) (same : e.name = start.name) (tag : Tag) :
    (f.decode tag start).1 = e.decode tag := by
  simp [decode, waits, same]

theorem decode_of_missing (missing : ∀ e, f.body = some e → e.name ≠ start.name) (tag : Tag) :
    (f.decode tag start).1 = .error (.missingBody start.name) := by
  cases body : f.body with
  | none => simp [decode, body]
  | some e => simp [decode, body, missing e body]

end Feed

/-- The answer is the result of decoding some body, successful or not. -/
def Answer.isOfBody : Answer → Bool
  | .undecoded (.missingBody _) => false
  | .undecoded _ | .stanza _ => true
  | _ => false

theorem Answer.isOfBody_decoded (tag : Tag) (e : Element) :
    (Answer.decoded (e.decode tag)).isOfBody = true := by
  cases read : e.decode tag with
  | ok stanza => rfl
  | error refusal =>
    cases refusal with
    | missingBody name => exact absurd read (e.decode_ne_missingBody tag name)
    | _ => rfl

namespace Script.LinkSession

variable {s : LinkSession} {step : LinkStep} {steps : List LinkStep} {e : Element} {n : Nat}
  {tag : Tag} {choice : StartChoice} {start : StartTag}

/-- The elements read, indexed as their start tags are. -/
def elementsRead (steps : List LinkStep) : List Element :=
  (seen reads steps).filterMap Arrival.element?

/-- The step takes away a pending body of this name: a successful `next`, any `decode`, or a `skip`
of the name. -/
def Displaces (s : LinkSession) (name : String) : LinkStep → Prop
  | .next => ∃ start, s.answer .next = .startTag start
  | .decode _ choice => s.connected = true ∧ ∃ start, s.start? choice = some start
  | .skip choice => s.connected = true ∧ ∃ start, s.start? choice = some start ∧ start.name = name
  | _ => False

/-- The body of the n-th element read is pending. -/
def Awaits (steps : List LinkStep) (n : Nat) (e : Element) : Prop :=
  ∃ earlier since, steps = earlier ++ .next :: since ∧
    (after earlier).reads .next = [.element e] ∧ (elementsRead earlier).length = n ∧
    ∀ o ∈ trail performed (after (earlier ++ [.next])) since, ¬o.before.Displaces e.name o.move

/-- The call of `decode` takes the body of the n-th element read. -/
def Materialises (steps : List LinkStep) (tag : Tag) (choice : StartChoice) (n : Nat)
    (e : Element) : Prop :=
  Awaits steps n e ∧ ((after steps).answer (.decode tag choice)).isOfBody = true

theorem elementsRead_concat : elementsRead (steps ++ [step]) =
    elementsRead steps ++ ((after steps).reads step).filterMap Arrival.element? := by
  simp [elementsRead]

theorem reads_eq_nil (other : step ≠ .next) : s.reads step = [] := by
  cases step <;> first | rfl | exact absurd rfl other

/-- The pending body after a `next`. -/
theorem body_next : (s.feed.touch (s.feedTouch .next)).body = some e ↔
    s.reads .next = [.element e] ∨ s.feed.body = some e ∧ ¬s.Displaces e.name .next := by
  cases connected : s.connected with
  | false =>
    have gone : s.perform .next = (.gone .transport, s) := perform_of_dropped connected rfl
    simp [feedTouch, Displaces, reads, answer, connected, gone]
  | true =>
    rcases arrivals : s.feed.arrivals with _ | ⟨found | failure, rest⟩
    · cases feeding : s.feed.feeding <;>
        simp [feedTouch, Displaces, reads, answer, perform_next, connected, arrivals, feeding]
    · simp [feedTouch, Displaces, reads, answer, perform_next, connected, arrivals]
    · simp [feedTouch, Displaces, reads, answer, perform_next, connected, arrivals]

theorem displaces_skip_iff (waits : s.feed.body = some e) :
    s.Displaces e.name (.skip choice) ↔ (s.connected && s.meansBody choice) = true := by
  cases means : s.start? choice with
  | none => simp [Displaces, meansBody, means]
  | some start => simp [Displaces, meansBody, means, waits, @eq_comm _ start.name]

theorem body_skip : (s.feed.touch (s.feedTouch (.skip choice))).body = some e ↔
    s.feed.body = some e ∧ ¬s.Displaces e.name (.skip choice) := by
  rw [and_congr_right fun waits => not_congr (displaces_skip_iff waits), feedTouch]
  split
  next displaces => simp [displaces]
  next kept => simp [kept]

/-- The pending body after a step: newly read, or not displaced. -/
theorem body_performed : (s.performed step).feed.body = some e ↔
    s.reads step = [.element e] ∨ s.feed.body = some e ∧ ¬s.Displaces e.name step := by
  rw [(performs s step).feed]
  cases step with
  | peer step =>
    cases step with
    | push | hangUp | dropPeer =>
      simp only [feedTouch, Displaces, reads]
      split <;> simp [Feed.hangUp]
    | nextSent | tryNextSent | sent | ends => simp [feedTouch, Displaces, reads]
  | next => exact body_next
  | decode tag choice =>
    cases means : s.start? choice <;> cases connected : s.connected <;>
      simp [feedTouch, Displaces, reads, connected, means]
  | skip choice => simpa [reads] using body_skip
  | send | sendEnd | dropTransport => simp [feedTouch, Displaces, reads]

/-- The recursion of `Awaits` over the steps. -/
theorem awaits_concat : Awaits (steps ++ [step]) n e ↔
    (after steps).reads step = [.element e] ∧ (elementsRead steps).length = n ∨
      Awaits steps n e ∧ ¬(after steps).Displaces e.name step := by
  constructor
  · rintro ⟨earlier, since, split, read, number, kept⟩
    -- the last step is the `next` that stored the body, or one after it
    induction since using List.reverseRecOn with
    | nil =>
      obtain ⟨rfl, same⟩ := List.append_inj' split rfl
      obtain rfl : step = .next := by simpa using same
      exact .inl ⟨read, number⟩
    | append_singleton since last _ =>
      rw [← List.cons_append, ← List.append_assoc] at split
      obtain ⟨rfl, same⟩ := List.append_inj' split rfl
      obtain rfl : step = last := by simpa using same
      rw [forall_mem_trail_concat, ← after_append, List.append_assoc] at kept
      exact .inr ⟨⟨earlier, since, rfl, read, number, kept.1⟩, kept.2⟩
  · rintro (⟨read, number⟩ | ⟨⟨earlier, since, rfl, read, number, kept⟩, last⟩)
    · obtain rfl : step = .next := by
        refine Classical.not_not.mp fun other => ?_
        rw [reads_eq_nil other] at read
        cases read
      exact ⟨steps, [], rfl, read, number, List.forall_mem_nil _⟩
    · refine ⟨earlier, since ++ [step], by simp, read, number, ?_⟩
      rw [forall_mem_trail_concat, ← after_append, List.append_assoc]
      exact ⟨kept, last⟩

/-- The pending body is the one that nothing has taken away since it was read. -/
theorem body_after (steps : List LinkStep) :
    (after steps).feed.body = some e ↔ ∃ n, Awaits steps n e := by
  induction steps using List.reverseRecOn with
  | nil => exact ⟨nofun, fun ⟨_, earlier, since, split, _⟩ => by simp at split⟩
  | append_singleton steps step ih =>
    rw [after_concat, body_performed, ih]
    simp only [awaits_concat]
    constructor
    · rintro (read | ⟨⟨n, awaits⟩, kept⟩)
      · exact ⟨_, .inl ⟨read, rfl⟩⟩
      · exact ⟨n, .inr ⟨awaits, kept⟩⟩
    · rintro ⟨n, ⟨read, -⟩ | ⟨awaits, kept⟩⟩
      · exact .inl read
      · exact .inr ⟨⟨n, awaits⟩, kept⟩

/-- A step that leaves a body pending reads no element. -/
theorem reads_of_not_displaces (kept : ¬s.Displaces e.name step) :
    (s.reads step).filterMap Arrival.element? = [] := by
  cases step with
  | next =>
    cases connected : s.connected with
    | false => simp [reads, connected]
    | true =>
      rcases arrivals : s.feed.arrivals with _ | ⟨found | failure, rest⟩
      · simp [reads, arrivals]
      · exact absurd ⟨found.startTag, by simp [answer, perform_next connected, arrivals]⟩ kept
      · simp [reads, connected, arrivals, Arrival.element?]
  | _ => rfl

/-- The pending body is that of the last element read. -/
theorem Awaits.last_read (awaits : Awaits steps n e) :
    ∃ before, elementsRead steps = before ++ [e] ∧ before.length = n := by
  induction steps using List.reverseRecOn with
  | nil =>
    obtain ⟨earlier, since, split, -⟩ := awaits
    simp at split
  | append_singleton steps step ih =>
    rw [elementsRead_concat]
    rcases awaits_concat.mp awaits with ⟨read, number⟩ | ⟨awaits, kept⟩
    · exact ⟨elementsRead steps, by simp [read, Arrival.element?], number⟩
    · rw [reads_of_not_displaces kept, List.append_nil]
      exact ih awaits

theorem Awaits.number (awaits : Awaits steps n e) :
    (elementsRead steps)[n]? = some e ∧ (elementsRead steps).length = n + 1 := by
  obtain ⟨before, split, rfl⟩ := awaits.last_read
  simp [split]

theorem answer_decode (connected : s.connected = true) (means : s.start? choice = some start)
    (tag : Tag) : s.answer (.decode tag choice) = .decoded (s.feed.decode tag start).1 := by
  rw [answer, perform_decode connected means]

theorem Awaits.answer_decode (awaits : Awaits steps n e)
    (connected : (after steps).connected = true)
    (means : (after steps).start? choice = some start) (same : e.name = start.name) (tag : Tag) :
    (after steps).answer (.decode tag choice) = .decoded (e.decode tag) := by
  rw [LinkSession.answer_decode connected means,
    Feed.decode_of_body ((body_after steps).mpr ⟨n, awaits⟩) same]

/-- `decode` reports a missing body if none of the name is pending. -/
theorem answer_decode_of_missing (connected : (after steps).connected = true)
    (means : (after steps).start? choice = some start)
    (missing : ¬∃ n e, Awaits steps n e ∧ e.name = start.name) (tag : Tag) :
    (after steps).answer (.decode tag choice) = .undecoded (.missingBody start.name) := by
  rw [LinkSession.answer_decode connected means, Feed.decode_of_missing]
  · rfl
  · intro e waits same
    obtain ⟨n, awaits⟩ := (body_after steps).mp waits
    exact missing ⟨n, e, awaits, same⟩

theorem means_of_isOfBody (ofBody : (s.answer (.decode tag choice)).isOfBody = true) :
    s.connected = true ∧ ∃ start, s.start? choice = some start := by
  cases connected : s.connected with
  | false =>
    rw [answer, perform_of_dropped connected rfl] at ofBody
    cases ofBody
  | true =>
    cases means : s.start? choice with
    | none =>
      rw [answer, (perform_unmeant connected means).1] at ofBody
      cases ofBody
    | some start => exact ⟨rfl, start, rfl⟩

/-- `decode` decodes a body exactly if one of the name is pending. -/
theorem isOfBody_iff (steps : List LinkStep) (tag : Tag) (choice : StartChoice) :
    ((after steps).answer (.decode tag choice)).isOfBody = true ↔
      (after steps).connected = true ∧ ∃ start, (after steps).start? choice = some start ∧
        ∃ n e, Awaits steps n e ∧ e.name = start.name := by
  constructor
  · intro ofBody
    obtain ⟨connected, start, means⟩ := means_of_isOfBody ofBody
    refine ⟨connected, start, means, Classical.not_not.mp fun missing => ?_⟩
    rw [answer_decode_of_missing connected means missing] at ofBody
    cases ofBody
  · rintro ⟨connected, start, means, n, e, awaits, same⟩
    rw [awaits.answer_decode connected means same]
    exact Answer.isOfBody_decoded tag e

theorem Awaits.unique {other : Element} {m : Nat} (awaits : Awaits steps n e)
    (also : Awaits steps m other) : n = m ∧ e = other := by
  obtain ⟨before, split, rfl⟩ := awaits.last_read
  obtain ⟨before', split', rfl⟩ := also.last_read
  obtain ⟨rfl, same⟩ := List.append_inj' (split.symm.trans split') rfl
  exact ⟨rfl, by simpa using same⟩

theorem Materialises.answer_eq (materialises : Materialises steps tag choice n e) :
    (after steps).answer (.decode tag choice) = .decoded (e.decode tag) := by
  obtain ⟨awaits, ofBody⟩ := materialises
  obtain ⟨connected, start, means, m, other, waiting, same⟩ :=
    (isOfBody_iff steps tag choice).mp ofBody
  obtain ⟨-, rfl⟩ := awaits.unique waiting
  exact awaits.answer_decode connected means same tag

/-- A body pending later was pending before, undisplaced, or was read later. -/
theorem Awaits.of_append {more : List LinkStep} (awaits : Awaits (steps ++ more) n e) :
    Awaits steps n e ∧
        (∀ o ∈ trail performed (after steps) more, ¬o.before.Displaces e.name o.move) ∨
      (elementsRead steps).length ≤ n := by
  induction more using List.reverseRecOn with
  | nil =>
    rw [List.append_nil] at awaits
    exact .inl ⟨awaits, List.forall_mem_nil _⟩
  | append_singleton more step ih =>
    rw [← List.append_assoc, awaits_concat] at awaits
    rcases awaits with ⟨-, rfl⟩ | ⟨awaits, kept⟩
    · refine .inr ?_
      simp [elementsRead, seen, trail_append]
    · rcases ih awaits with ⟨waited, all⟩ | behind
      · refine .inl ⟨waited, ?_⟩
        rw [forall_mem_trail_concat, ← after_append]
        exact ⟨all, kept⟩
      · exact .inr behind

/-- Elements are materialised in the order of reading, each at most once. -/
theorem Materialises.increasing {more : List LinkStep} {tag' : Tag} {choice' : StartChoice}
    {m : Nat} {later : Element} (materialises : Materialises steps tag choice n e)
    (again : Materialises (steps ++ .decode tag choice :: more) tag' choice' m later) : n < m := by
  rcases again.1.of_append with ⟨-, kept⟩ | behind
  · exact absurd (means_of_isOfBody materialises.2) (kept _ List.mem_cons_self)
  · have read := materialises.1.number.2
    omega

/-- Decoding with the tag of an element takes the body of the last element read, if that has the
same name, or none. So it takes the body of the tag's element, or none, unless an element of the
same name was read later. -/
theorem decodes_last_read (steps : List LinkStep) (tag : Tag) (choice : StartChoice) (n : Nat)
    (e : Element) (connected : (after steps).connected = true)
    (read : (elementsRead steps)[n]? = some e)
    (means : (after steps).start? choice = some e.startTag) :
    ((after steps).answer (.decode tag choice) = .undecoded (.missingBody e.name) ∨
      ∃ last, (elementsRead steps).getLast? = some last ∧ last.name = e.name ∧
        (after steps).answer (.decode tag choice) = .decoded (last.decode tag)) ∧
    ((∀ later ∈ (elementsRead steps).drop (n + 1), later.name ≠ e.name) →
      (after steps).answer (.decode tag choice) = .undecoded (.missingBody e.name) ∨
      (after steps).answer (.decode tag choice) = .decoded (e.decode tag)) := by
  by_cases waiting : ∃ m last, Awaits steps m last ∧ last.name = e.name
  · obtain ⟨m, last, awaits, same⟩ := waiting
    have answer := awaits.answer_decode connected means same tag
    obtain ⟨before, split, number⟩ := awaits.last_read
    refine ⟨.inr ⟨last, by simp [split], same, answer⟩, fun others => .inr ?_⟩
    rw [split] at read others
    have bound : n < before.length + 1 := by
      simpa using (List.getElem?_eq_some_iff.mp read).1
    rcases Nat.lt_or_eq_of_le (Nat.le_of_lt_succ bound) with earlier | rfl
    · refine absurd same (others last ?_)
      rw [List.drop_append_of_le_length earlier]
      exact List.mem_append_right _ List.mem_cons_self
    · obtain rfl : last = e := by simpa using read
      exact answer
  · have missing := answer_decode_of_missing connected means waiting tag
    exact ⟨.inl missing, fun _ => .inl missing⟩

/-- A message with nothing but an id. -/
def note (id : String) : Element := .build "message" [.attr "id" id]

/-- Two messages are read before the first is decoded. -/
def overtaken : List LinkStep :=
  [.peer (.push (.element (note "a"))), .peer (.push (.element (note "b"))), .next, .next]

theorem decodes_last_read_overtaken :
    (elementsRead overtaken)[1]? = some (note "b") ∧
      (after overtaken).answer (.decode .message (.read 1)) =
        .decoded ((note "b").decode .message) := by
  have read : (elementsRead overtaken)[1]? = some (note "b") := by decide +kernel
  have found : (after overtaken).answer (.decode .message (.read 1)) ≠
      .undecoded (.missingBody (note "b").name) := by decide +kernel
  obtain ⟨-, own⟩ := decodes_last_read overtaken .message (.read 1) 1 (note "b") (by decide +kernel)
    read (by decide +kernel)
  exact ⟨read, (own (by decide +kernel)).resolve_left found⟩

/-- The first tag decodes the body of the second message. -/
theorem overtaking_body_decoded :
    (elementsRead overtaken)[0]? = some (note "a") ∧
      (after overtaken).start? (.read 0) = some (note "a").startTag ∧
      (after overtaken).answer (.decode .message (.read 0)) =
        .stanza (.message { id := some "b" }) ∧
      (note "a").decode .message = .ok (.message { id := some "a" }) := by
  decide +kernel

/-- The read side of the in-process transport. Arrivals are read in the order in which they were
fed, each once, and then, if the peer has hung up or was dropped, `next` answers closed for ever.
Feeding succeeds exactly while the peer has not hung up and the transport is alive, and changes
nothing otherwise. A body is materialised at most once, between its `next` and the following one,
unless a decode or a matching skip took it before; a skip of another name leaves it pending. -/
theorem reading_in_order (steps : List LinkStep) :
    (seen fed steps = seen reads steps ++ (after steps).feed.arrivals ∧
      ∃ times, seen outcomes steps =
          (seen reads steps).map Arrival.outcome ++ List.replicate times (.error .closed) ∧
        (times ≠ 0 → (after steps).feed.arrivals = [] ∧ steps.any LinkStep.hangsUp = true)) ∧
    ((after steps).connected = true → (after steps).answer .next =
      match (after steps).feed.arrivals with
      | .element e :: _ => .startTag e.startTag
      | .failure failure :: _ => .failed failure
      | [] => if steps.any LinkStep.hangsUp then .failed .closed else .pending) ∧
    ((after steps).feed.arrivals = [] → steps.any LinkStep.hangsUp = true →
      ∀ more, ∀ o ∈ trail performed (after steps) more, o.move = .next →
        o.before.connected = true → o.before.answer o.move = .failed .closed) ∧
    (∀ arrival, steps.any LinkStep.dropsPeer = false →
      (after steps).perform (.peer (.push arrival)) =
        if !steps.any LinkStep.hangsUp && !steps.any LinkStep.dropsTransport then
          (.flag true, { after steps with
            feed.arrivals := (after steps).feed.arrivals ++ [arrival] })
        else (.flag false, after steps)) ∧
    (after steps).starts = (elementsRead steps).map Element.startTag ∧
    (∀ tag choice start, (after steps).connected = true →
      (after steps).start? choice = some start →
      (∀ n e, Awaits steps n e → e.name = start.name → Materialises steps tag choice n e) ∧
      ((¬∃ n e, Awaits steps n e ∧ e.name = start.name) →
        (after steps).answer (.decode tag choice) = .undecoded (.missingBody start.name))) ∧
    (∀ tag choice n e, Materialises steps tag choice n e →
      (after steps).answer (.decode tag choice) = .decoded (e.decode tag) ∧
      (elementsRead steps)[n]? = some e ∧ (elementsRead steps).length = n + 1 ∧
      ∀ more tag' choice' m later,
        Materialises (steps ++ .decode tag choice :: more) tag' choice' m later → n < m) ∧
    ∀ choice start n e, (after steps).connected = true →
      (after steps).start? choice = some start → Awaits steps n e → start.name ≠ e.name →
      (after steps).perform (.skip choice) = (.ok, after steps) ∧
        Awaits (steps ++ [.skip choice]) n e := by
  have feeding := feeding_after steps
  refine ⟨⟨fed_eq_reads steps, ?_⟩, ?_, ?_, ?_, starts_eq steps, ?_, ?_, ?_⟩
  · obtain ⟨times, found, drained⟩ := outcomes_after steps
    refine ⟨times, found, fun any => ?_⟩
    obtain ⟨empty, hungUp⟩ := drained any
    exact ⟨empty, by simpa [feeding] using hungUp⟩
  · intro connected
    rw [answer, perform_next connected, feeding]
    rcases (after steps).feed.arrivals with _ | ⟨e | failure, rest⟩
    · cases steps.any LinkStep.hangsUp <;> rfl
    · rfl
    · rfl
  · intro empty hungUp more
    exact closed_for_good ⟨empty, by simp [feeding, hungUp]⟩ more
  · intro arrival present
    have listens : (after steps).wire.listening = true := by simp [listening_after, present]
    rw [← feeding, ← connected_after, perform_push listens, Bool.and_comm]
    rfl
  · intro tag choice start connected means
    exact ⟨fun n e awaits same =>
        ⟨awaits, (isOfBody_iff steps tag choice).mpr ⟨connected, start, means, n, e, awaits, same⟩⟩,
      fun missing => answer_decode_of_missing connected means missing tag⟩
  · intro tag choice n e materialises
    obtain ⟨read, last⟩ := materialises.1.number
    exact ⟨materialises.answer_eq, read, last, fun more tag' choice' m later again =>
      materialises.increasing again⟩
  · intro choice start n e connected means awaits other
    have waits := (body_after steps).mpr ⟨n, awaits⟩
    have unmeant : (after steps).meansBody choice = false := by
      simp [meansBody, means, waits, other.symm]
    have kept : ¬(after steps).Displaces e.name (.skip choice) := by
      simp [displaces_skip_iff waits, unmeant]
    refine ⟨?_, awaits_concat.mpr (.inr ⟨awaits, kept⟩)⟩
    rw [perform_skip connected means, unmeant]
    rfl

/-- A message and a failure are read and another name is skipped, while a second message is fed and
the peer hangs up. -/
def skipping : List LinkStep :=
  [.peer (.push (.element (note "a"))), .peer (.push (.failure (.io "reset"))),
    .peer (.push (.element (note "b"))), .peer .hangUp, .next, .next,
    .skip (.given (Element.named "presence").startTag)]

theorem reading_in_order_skipping :
    Awaits skipping 0 (note "a") ∧
      (after skipping).answer .next = .startTag (note "b").startTag ∧
      (after skipping).answer (.decode .message (.read 0)) =
        .decoded ((note "a").decode .message) ∧
      ¬Materialises (skipping ++ [.decode .message (.read 0), .next]) .message (.read 0) 0
        (note "a") ∧
      (after (skipping ++ [.next])).answer .next = .failed .closed ∧
      (after skipping).perform (.peer (.push (.element (note "c")))) =
        (.flag false, after skipping) := by
  obtain ⟨-, next, -, push, -, decoding, materialised, -⟩ := reading_in_order skipping
  obtain ⟨-, -, ended, -⟩ := reading_in_order (skipping ++ [.next])
  have awaits : Awaits skipping 0 (note "a") := by
    obtain ⟨n, awaits⟩ := (body_after skipping).mp
      (show (after skipping).feed.body = some (note "a") by decide +kernel)
    have once : (elementsRead skipping).length = 1 := by decide +kernel
    obtain rfl : n = 0 := Nat.succ.inj (awaits.number.2.symm.trans once)
    exact awaits
  have materialises : Materialises skipping .message (.read 0) 0 (note "a") :=
    (decoding .message (.read 0) (note "a").startTag (by decide +kernel) (by decide +kernel)).1 0 _
      awaits rfl
  obtain ⟨decoded, -, -, increasing⟩ := materialised _ _ _ _ materialises
  refine ⟨awaits, next (by decide +kernel), decoded, fun again => ?_, ?_, push _ (by decide)⟩
  · exact absurd (increasing [.next] _ _ _ _ again) (Nat.lt_irrefl 0)
  · exact ended (by decide +kernel) (by decide) [.next] ⟨_, .next⟩ List.mem_cons_self rfl
      (by decide +kernel)

end Script.LinkSession

end StanzaExchange
