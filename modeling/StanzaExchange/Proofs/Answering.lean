import StanzaExchange.Proofs.Correlation

/-!
The elements that a correlation filter takes (section 4.1 of the specification and `iq_result` of
section 10.2). The matcher sees stanzas; composed with the classification of elements its condition
is about elements alone: name iq, the id of the query, and not a request. It covers elements that do
not decode, which arrive as malformed stanzas with their id.
-/
namespace StanzaExchange

theorem IqType.eq_value_of_ofValue? {value : String} {type : IqType}
    (known : IqType.ofValue? value = some type) : value = type.value := by
  unfold IqType.ofValue? at known
  split at known <;> cases known <;> rfl

namespace Stanza

variable {x : String}

theorem answers_iq {query : Iq} :
    (Stanza.iq query).answers x = true ↔ query.type.isReply = true ∧ query.id = x := by
  simp [answers]

theorem answers_malformed {id : Option String} {reason : String} :
    (Stanza.malformed .iq id reason).answers x = true ↔ id = some x := by
  cases id <;> simp [answers]

/-- A stanza that answers a query is an iq, decoded or not. -/
theorem of_answers {stanza : Stanza} (answers : stanza.answers x = true) :
    stanza.shortName = Tag.iq.name ∨ ∃ id reason, stanza = .malformed .iq id reason := by
  cases stanza with
  | iq query => exact .inl rfl
  | malformed tag id reason =>
    cases tag with
    | iq => exact .inr ⟨id, reason, rfl⟩
    | error | message | presence => cases answers
  | message | presence | error | unknown | failure => cases answers

end Stanza

namespace Element

variable {faults : Faults} {e : Element} {x : String}

/-- The element decodes as a get or set query. -/
def IsRequest (faults : Faults) (e : Element) : Prop :=
  faults.decode = false ∧
    ∃ query, e.decode .iq = .ok (.iq query) ∧ (query.type = .get ∨ query.type = .set)

theorem ofValue?_of_readType {α : Type} {tag : Tag} {ofValue? : String → Option α} {value : String}
    {type : α} (known : readType tag ofValue? value = .ok type) : ofValue? value = some type := by
  unfold readType at known
  split at known
  next found here =>
    cases known
    exact here
  · cases known

/-- A decoded iq has the id and the type of its element. -/
theorem exists_of_decode_iq {stanza : Stanza} (read : e.decode .iq = .ok stanza) :
    ∃ query, stanza = .iq query ∧ e.attr? "id" = some query.id ∧
      e.attr? "type" = some query.type.value := by
  unfold decode at read
  split at read
  · cases read
  · obtain ⟨query, decoded, rfl⟩ := map_eq_ok_iff.mp read
    obtain ⟨id, there, decoded⟩ := bind_eq_ok_iff.mp decoded
    obtain ⟨value, given, decoded⟩ := bind_eq_ok_iff.mp decoded
    obtain ⟨type, known, decoded⟩ := bind_eq_ok_iff.mp decoded
    obtain ⟨sender, -, decoded⟩ := bind_eq_ok_iff.mp decoded
    obtain ⟨recipient, -, decoded⟩ := bind_eq_ok_iff.mp decoded
    cases decoded
    refine ⟨_, rfl, attr?_of_requiredAttr there, ?_⟩
    rw [attr?_of_requiredAttr given, IqType.eq_value_of_ofValue? (ofValue?_of_readType known)]

/-- A request keeps every rule of the grammar and has type get or set. -/
theorem isRequest_iff : e.IsRequest faults ↔
    faults.decode = false ∧ (∀ rule ∈ Tag.iq.rules, rule.Kept .iq e) ∧
      (e.attr? "type" = some "get" ∨ e.attr? "type" = some "set") := by
  constructor
  · rintro ⟨whole, query, read, asks⟩
    obtain ⟨_, ⟨⟩, -, type⟩ := exists_of_decode_iq read
    refine ⟨whole, decode_checks.exists_ok_iff.mp ⟨_, read⟩, ?_⟩
    rcases asks with asks | asks
    · exact .inl (by rw [type, asks]; rfl)
    · exact .inr (by rw [type, asks]; rfl)
  · rintro ⟨whole, kept, asks⟩
    obtain ⟨stanza, read⟩ := decode_checks.exists_ok_iff.mpr kept
    obtain ⟨query, rfl, -, type⟩ := exists_of_decode_iq read
    refine ⟨whole, query, read, ?_⟩
    rw [type] at asks
    cases kind : query.type <;> simp_all [IqType.value]

/-- Only elements of name iq answer queries. -/
theorem name_of_answers (answers : (e.readAs faults).answers x = true) : e.name = Tag.iq.name := by
  unfold readAs at answers
  split at answers
  · cases answers
  next tag known =>
    rw [Tag.name_of_ofName? known]
    split at answers
    next stanza read =>
      split at read
      · cases read
      · rw [← shortName_of_decode read]
        rcases Stanza.of_answers answers with same | ⟨id, reason, rfl⟩
        · exact same
        · exact absurd read decode_ne_malformed
    next error refused =>
      rcases Stanza.of_answers answers with other | ⟨id, reason, same⟩
      · exact absurd other (by simp [Stanza.shortName, Tag.name])
      · cases same
        rfl

/-- An iq that does not decode is accepted by its id. -/
theorem answers_of_unread (named : e.name = Tag.iq.name)
    (unread : faults.decode = true ∨ ∃ error, e.decode .iq = .error error) :
    (e.readAs faults).answers x = true ↔ e.attr? "id" = some x := by
  have known : Tag.ofName? e.name = some .iq := by rw [named]; rfl
  unfold readAs
  rw [known]
  rcases unread with lost | ⟨error, refused⟩
  · simp only [lost, if_true]
    exact Stanza.answers_malformed
  · cases lost : faults.decode with
    | true => exact Stanza.answers_malformed
    | false =>
      simp only [refused]
      exact Stanza.answers_malformed

/-- An iq that decodes is accepted by its id if it is a reply. -/
theorem answers_of_read {query : Iq} (named : e.name = Tag.iq.name) (whole : faults.decode = false)
    (read : e.decode .iq = .ok (.iq query)) :
    (e.readAs faults).answers x = true ↔ query.type.isReply = true ∧ e.attr? "id" = some x := by
  have known : Tag.ofName? e.name = some .iq := by rw [named]; rfl
  obtain ⟨_, ⟨⟩, id, -⟩ := exists_of_decode_iq read
  unfold readAs
  simp only [known, whole, read]
  rw [id, Option.some.injEq]
  exact Stanza.answers_iq

/-- The condition of the correlation matcher on elements. -/
theorem answers_readAs : (e.readAs faults).answers x = true ↔
    e.name = Tag.iq.name ∧ e.attr? "id" = some x ∧ ¬e.IsRequest faults := by
  by_cases named : e.name = Tag.iq.name
  · by_cases unread : faults.decode = true ∨ ∃ error, e.decode .iq = .error error
    · have unasked : ¬e.IsRequest faults := by
        rintro ⟨whole, query, read, -⟩
        rcases unread with lost | ⟨error, refused⟩
        · exact absurd lost (by simp [whole])
        · cases read.symm.trans refused
      rw [answers_of_unread named unread]
      simp [named, unasked]
    · obtain ⟨whole, unrefused⟩ := not_or.mp unread
      cases read : e.decode .iq with
      | error error => exact absurd ⟨error, read⟩ unrefused
      | ok stanza =>
        obtain ⟨query, rfl, -, -⟩ := exists_of_decode_iq read
        have whole : faults.decode = false := by simpa using whole
        have asks : e.IsRequest faults ↔ query.type.isReply = false := by
          simp only [IsRequest, whole, read]
          cases kind : query.type <;> simp [kind, IqType.isReply]
        rw [answers_of_read named whole read, asks]
        simp [named, and_comm]
  · constructor
    · intro answers
      exact absurd (name_of_answers answers) named
    · rintro ⟨named', -⟩
      exact absurd named' named

end Element

namespace Matcher

/-- A correlation filter takes exactly the elements that answer its query: those of name iq with its
id that do not decode as a request. The receiver task routes the classification of an element, so a
reply with the id is taken even if it does not decode, no well-formed request is taken unless the
decode fault hits it, no element of another name is taken, and whatever a running query was handed
is the classification of such an element. -/
theorem takes_answers_alone (faults : Faults) (x : String) :
    (∀ (e : Element) (i : Inflow) (trace : Bool) (rest : List Arrival), i.reader = .reading →
      i.feed.arrivals = .element e :: rest →
      ∃ feed events, i.step? faults trace = some
          ({ i with feed, reader := .routing (e.readAs faults) i.registry.snapshot 0 }, events) ∧
        feed.arrivals = rest ∧ feed.feeding = i.feed.feeding) ∧
    (∀ e : Element, (Matcher.replyTo x).accepts (e.readAs faults) = true ↔
      e.name = "iq" ∧ e.attr? "id" = some x ∧ ¬e.IsRequest faults) ∧
    (∀ e : Element, e.name = "iq" → e.attr? "id" = some x →
      e.attr? "type" = some "result" ∨ e.attr? "type" = some "error" →
      (Matcher.replyTo x).accepts (e.readAs faults) = true) ∧
    (∀ e : Element, faults.decode = false → (∀ rule ∈ Tag.iq.rules, rule.Kept .iq e) →
      e.attr? "type" = some "get" ∨ e.attr? "type" = some "set" →
      (Matcher.replyTo x).accepts (e.readAs faults) = false) ∧
    (∀ e : Element, e.name ≠ "iq" → (Matcher.replyTo x).accepts (e.readAs faults) = false) ∧
    ∀ k : Course, k.faults = faults → ∀ n query, k.now.query? n = some query → query.iq.id = x →
      ∀ stanza ∈ k.past.handedTo query.filter, ∃ e : Element, .element e ∈ k.past.fed ∧
        stanza = e.readAs faults ∧ e.name = "iq" ∧ e.attr? "id" = some x ∧
        ¬e.IsRequest faults := by
  have takes : ∀ e : Element, (Matcher.replyTo x).accepts (e.readAs faults) = true ↔
      e.name = "iq" ∧ e.attr? "id" = some x ∧ ¬e.IsRequest faults :=
    fun _ => Element.answers_readAs
  refine ⟨fun e i trace rest => Inflow.step?_reads faults trace, takes, ?_, ?_, ?_, ?_⟩
  · intro e named id replies
    refine (takes e).mpr ⟨named, id, fun request => ?_⟩
    obtain ⟨-, -, asks⟩ := Element.isRequest_iff.mp request
    rcases replies with type | type <;> simp [type] at asks
  · intro e whole kept asks
    have request : e.IsRequest faults := Element.isRequest_iff.mpr ⟨whole, kept, asks⟩
    rw [Bool.eq_false_iff, ne_eq, takes]
    rintro ⟨-, -, unasked⟩
    exact unasked request
  · intro e other
    rw [Bool.eq_false_iff, ne_eq, takes]
    rintro ⟨named, -⟩
    exact other named
  · rintro k rfl n query has rfl stanza stands
    obtain ⟨e, arrived, rfl, answers⟩ := k.exists_fed_of_handedTo has stands
    exact ⟨e, arrived, rfl, Element.answers_readAs.mp answers⟩

/-- A reply from an undecodable address. -/
def strayReply : Element :=
  .build "iq" [.attr "id" "first", .attr "type" "result", .attr "from" "@"]

/-- A request with the id of the query. -/
def sameRequest : Element := .build "iq" [.attr "id" "first", .attr "type" "get"]

/-- A query is waiting, and both are fed. -/
def reached : Course := Course.asking.andThen <|
  [.outside (.push (.element sameRequest)), .outside (.push (.element strayReply))] ++
    List.replicate 7 (.step .reader)

theorem takes_answers_alone_reached :
    (∃ error, strayReply.decode .iq = .error error) ∧
      (Matcher.replyTo "first").accepts (strayReply.readAs .none) = true ∧
      (∃ query, sameRequest.decode .iq = .ok (.iq query)) ∧
      (Matcher.replyTo "first").accepts (sameRequest.readAs .none) = false ∧
      (Matcher.replyTo "first").accepts ((Element.named "message").readAs .none) = false ∧
      (∃ stanza, reached.past.handedTo 0 = [stanza]) ∧
      (∀ stanza ∈ reached.past.handedTo 0, ∃ e : Element, .element e ∈ reached.past.fed ∧
        stanza = e.readAs .none ∧ e.name = "iq" ∧ e.attr? "id" = some "first" ∧
        ¬e.IsRequest .none) ∧
      ∃ feed events, Inflow.step? .none true
          { registry := .ofCapacity 1, inbound := .ofCapacity 1,
            feed := { arrivals := [.element strayReply] } } = some
          ({ registry := .ofCapacity 1, inbound := .ofCapacity 1, feed,
             reader := .routing (strayReply.readAs .none) [] 0 }, events) ∧
        feed.arrivals = [] ∧ feed.feeding = true := by
  have refused : strayReply.decode .iq = .error (.invalidJid ⟨.emptyNode, "@"⟩) := by
    decide +kernel
  have read : sameRequest.decode .iq = .ok (.iq { id := "first", type := .get }) := by
    decide +kernel
  have waits : reached.now.query? 0 = some ⟨.get "first" (.named "ping"), 0, none⟩ := by
    decide +kernel
  have handed : reached.past.handedTo 0 =
      [.malformed .iq (some "first") "invalid address: address has an empty node: \"@\""] := by
    decide +kernel
  obtain ⟨routes, -, replies, requests, others, attended⟩ := takes_answers_alone .none "first"
  have kept : ∀ rule ∈ Tag.iq.rules, rule.Kept .iq sameRequest :=
    Element.decode_checks.exists_ok_iff.mp ⟨_, read⟩
  refine ⟨⟨_, refused⟩, replies strayReply rfl (by decide +kernel) (.inl (by decide +kernel)),
    ⟨_, read⟩, requests sameRequest rfl kept (.inl (by decide +kernel)),
    others (.named "message") (by decide), ⟨_, handed⟩, ?_, ?_⟩
  · exact attended reached rfl 0 _ waits rfl
  · exact routes strayReply _ true [] rfl rfl

end Matcher

end StanzaExchange
