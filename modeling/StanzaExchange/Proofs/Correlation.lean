import StanzaExchange.Proofs.Grammar
import StanzaExchange.Proofs.InboundOrder
import StanzaExchange.Proofs.Queries

/-!
Correctness of the results of `send_recv` (section 4.5 and properties P2 and P4 of the
specification): what a query ends with is determined by a delivery with its id, by termination, or
by its deadline. `Outcome.Justified` lists the admissible results with their causes, `Work.Pursues`
extends it to the intermediate states of a call, and `Pursues.step` carries it along an execution.
-/
namespace StanzaExchange

open Inflow (Flow Touch handsTo Advance)

theorem Tag.name_of_ofName? {name : String} {tag : Tag} (known : Tag.ofName? name = some tag) :
    name = tag.name := by
  unfold Tag.ofName? at known
  split at known <;> cases known <;> rfl

namespace Element

variable {faults : Faults} {e : Element}

theorem decode_ne_malformed {tag other : Tag} {id : Option String} {reason : String} :
    e.decode tag ≠ .ok (.malformed other id reason) := by
  intro read
  have named := shortName_of_decode read
  cases tag <;> simp [Stanza.shortName, Tag.name] at named

/-- A malformed stanza carries the tag and the id of its element, which did not decode. -/
theorem of_readAs_malformed {tag : Tag} {id : Option String} {reason : String}
    (read : e.readAs faults = .malformed tag id reason) :
    e.name = tag.name ∧ e.attr? "id" = id ∧
      (faults.decode = true ∨ ∃ error, e.decode tag = .error error) := by
  unfold readAs at read
  split at read
  · cases read
  next known =>
    split at read
    next stanza decoded =>
      split at decoded
      · cases decoded
      · rw [read] at decoded
        exact absurd decoded decode_ne_malformed
    next error failed =>
      cases read
      refine ⟨Tag.name_of_ofName? known, rfl, ?_⟩
      split at failed
      next lost => exact .inl lost
      · exact .inr ⟨error, failed⟩

end Element

namespace Course

/-- A delivery is accepted by the matcher of its filter. -/
theorem accepts_of_handed (k : Course) :
    ∀ hand ∈ k.past.handed, k.now.inflow.registry.accepts hand.1 hand.2 = true := by
  refine k.induction (P := fun past now => ∀ hand ∈ past.handed,
    now.inflow.registry.accepts hand.1 hand.2 = true) (fun hand member => ?_) ?_
  · exact absurd member List.not_mem_nil
  · intro moves move j kept hand member
    have stays : ∀ {r : Registry} {id : FilterId} {stanza : Stanza},
        r.Ages (j.now.move move).inflow.registry → r.accepts id stanza = true →
        (j.now.move move).inflow.registry.accepts id stanza = true := by
      intro r id stanza ages wanted
      obtain ⟨f, found, -⟩ := Registry.exists_of_accepts wanted
      rw [ages.accepts_eq found, wanted]
    rw [History.handed_concat] at member
    rcases List.mem_append.mp member with before | new
    · exact stays (Conversation.ages_move move) (kept hand before)
    · rcases Moment.told_or_advances ⟨j.now, move⟩ with ⟨touch, told⟩ | ⟨flow, advances⟩
      · rw [told.still.2.1] at new
        cases new
      · rw [advances.handed] at new
        rcases advances.step.handed with none | ⟨id, stanza, one, known, wanted, reads⟩
        · rw [none] at new
          cases new
        · rw [one, List.mem_singleton] at new
          rw [new]
          exact stays advances.step.ages wanted

/-- A delivery is the classification of an element that was fed. -/
theorem exists_fed_of_handed (k : Course) {hand : FilterId × Stanza}
    (member : hand ∈ k.past.handed) :
    ∃ e, .element e ∈ k.past.fed ∧ e.readAs k.faults = hand.2 := by
  rw [k.account.handed] at member
  obtain ⟨p, passed, member⟩ := List.mem_flatMap.mp member
  obtain ⟨id, taker, rfl⟩ := List.mem_map.mp member
  refine ⟨p.element, ?_, rfl⟩
  have arrived : .element p.element ∈ k.past.arrived := List.mem_map.mpr ⟨p, passed, rfl⟩
  rw [k.conserved.feed]
  apply List.mem_append_left
  rcases k.read_eq with whole | ended
  · rw [whole]
    exact arrived
  · rw [ended]
    exact List.mem_append_left _ arrived

end Course

/-- The admissible results of a query, each with its cause: a result or an error reply with the id,
an element with tag iq and the id that does not decode, termination or a missing sender, or the
timeout of a limited query. -/
def Outcome.Justified (iq : Iq) (limit : Option Nat) (faults : Faults) (fed : List Arrival)
    (ended barred : Prop) : Outcome → Prop
  | .replied reply => reply.id = iq.id ∧ reply.type = .result
  | .failed (.refused reply) => reply.id = iq.id ∧ reply.type = .error
  | .failed (.unexpected found) => found = "malformed stanza" ∧ ∃ e, .element e ∈ fed ∧
      e.name = "iq" ∧ e.attr? "id" = some iq.id ∧
      (faults.decode = true ∨ ∃ error, e.decode .iq = .error error)
  | .failed .closed => barred ∨ ended
  | .failed (.timeout id) => id = iq.id ∧ limit ≠ none
  | .sent | .joined => False

/-- The states of a call that pursues a query, with admissible results. -/
def Work.Pursues (iq : Iq) (limit : Option Nat) (may : Outcome → Prop) : Work → Prop
  | .query asked time => asked = iq ∧ time = limit
  | .queryOffering asked | .queryWaiting asked | .queryAwaiting asked =>
    asked.iq = iq ∧ (asked.deadline ≠ none → limit ≠ none)
  | .done outcome => may outcome
  | .cancelled => True
  | _ => False

namespace Outcome

variable {iq : Iq} {limit : Option Nat} {faults : Faults} {fed more : List Arrival}
  {ended later barred : Prop}

/-- An admissible result stays admissible. -/
theorem Justified.mono {outcome : Outcome}
    (justified : outcome.Justified iq limit faults fed ended barred)
    (grows : ∀ arrival ∈ fed, arrival ∈ more) (ends : ended → later) :
    outcome.Justified iq limit faults more later barred := by
  cases outcome with
  | failed error =>
    cases error with
    | closed => exact justified.imp_right ends
    | unexpected found =>
      obtain ⟨name, e, arrived, claims⟩ := justified
      exact ⟨name, e, grows _ arrived, claims⟩
    | refused reply | timeout id => exact justified
  | sent | replied | joined => exact justified

/-- The result made of an element that answers the query is admissible. -/
theorem justified_ofReply {e : Element} (arrived : .element e ∈ fed)
    (answers : (e.readAs faults).answers iq.id = true) :
    (Outcome.ofReply (some (e.readAs faults))).Justified iq limit faults fed ended barred := by
  cases read : e.readAs faults with
  | iq reply =>
    rw [read] at answers
    obtain ⟨replies, same⟩ := Bool.and_eq_true_iff.mp answers
    have id : reply.id = iq.id := by simpa using same
    cases type : reply.type with
    | result => simpa [ofReply, type, Justified] using id
    | error => simpa [ofReply, type, Justified] using id
    | get | set => simp [type, IqType.isReply] at replies
  | malformed tag id reason =>
    obtain ⟨name, attr, undecoded⟩ := Element.of_readAs_malformed read
    rw [read] at answers
    cases tag with
    | iq =>
      cases id with
      | none => cases answers
      | some id =>
        obtain rfl : id = iq.id := by simpa [Stanza.answers] using answers
        exact ⟨rfl, e, arrived, name, attr, undecoded⟩
    | error | message | presence => cases answers
  | message | presence | error | unknown | failure =>
    rw [read] at answers
    cases answers

end Outcome

namespace Work

variable {iq : Iq} {limit : Option Nat} {may later : Outcome → Prop} {work : Work}

theorem Pursues.mono (pursues : work.Pursues iq limit may)
    (more : ∀ outcome, may outcome → later outcome) : work.Pursues iq limit later := by
  cases work with
  | done outcome => exact more outcome pursues
  | cancelled => trivial
  | query | queryOffering | queryWaiting | queryAwaiting => exact pursues
  | send | sendWaiting | join | leaving | joining => exact pursues.elim

/-- A pursued query carries the request and the limit of its call. -/
theorem Pursues.query {query : Query} (pursues : work.Pursues iq limit may)
    (has : work.query? = some query) :
    query.iq = iq ∧ (query.deadline ≠ none → limit ≠ none) := by
  cases work with
  | queryOffering | queryWaiting | queryAwaiting =>
    obtain rfl := Option.some.inj has
    exact pursues
  | _ => cases has

/-- A turn preserves `Pursues`, given the causes of the results with which it can end the query. -/
theorem Pursues.turn {c : Conversation} {call : Call} {givenUp : Bool} {touch : Touch}
    {put : List Stanza} (turn : Conversation.Turn c call givenUp touch put work)
    (pursues : call.work.Pursues iq limit may)
    (shut : call.sender = false ∨ c.outflow.outbound.receiving = false → may (.failed .closed))
    (answered : ∀ query stanza, call.work.query? = some query →
      (c.inflow.registry.queueOf query.filter).head? = some stanza → may (.ofReply (some stanza)))
    (deserted : ∀ query, call.work.query? = some query →
      c.inflow.registry.isRemoved query.filter = true → may (.ofReply none))
    (expires : limit ≠ none → may (.failed (.timeout iq.id))) : work.Pursues iq limit may := by
  cases turn with
  | plain running before after mild =>
    cases asked : call.work <;>
      simp [asked, Pursues, Work.isQuery, Work.isRunning] at pursues before running
  | registers asked =>
    rw [asked] at pursues
    obtain ⟨rfl, rfl⟩ := pursues
    exact ⟨rfl, fun timed => by simpa using timed⟩
  | waits asked => exact pursues.query (by simp [asked, Work.query?])
  | queues unsent =>
    rcases unsent with asked | asked <;> exact pursues.query (by simp [asked, Work.query?])
  | refused unsent closed => exact shut closed
  | answered awaiting first => exact answered _ _ (by simp [awaiting, Work.query?]) first
  | deserted awaiting empty removed => exact deserted _ (by simp [awaiting, Work.query?]) removed
  | expires has limited empty =>
    obtain ⟨rfl, timed⟩ := pursues.query has
    exact expires (timed limited)
  | forgets asked | abandons has => trivial

end Work

namespace Course

/-- The admissible results at the end of an execution. -/
def may (k : Course) (iq : Iq) (limit : Option Nat) (barred : Prop) : Outcome → Prop :=
  Outcome.Justified iq limit k.faults k.past.fed (k.now.outflow.terminated = true) barred

structure Pursues (k : Course) (n : Nat) (sender : Bool) (iq : Iq) (limit : Option Nat)
    (barred : Prop) : Prop where
  exists_work : ∃ work, k.now.stands? n = some (sender, work) ∧
    work.Pursues iq limit (k.may iq limit barred)

variable {k : Course} {n : Nat} {sender : Bool} {iq : Iq} {limit : Option Nat} {barred : Prop}

theorem may_andThen (k : Course) (more : List Move) {outcome : Outcome}
    (before : k.may iq limit barred outcome) :
    (k.andThen more).may iq limit barred outcome := by
  apply before.mono
  · intro arrival fed
    rw [past_andThen]
    simpa [History.fed] using Or.inl fed
  · intro ended
    rw [now_andThen]
    exact (Conversation.proceeds_run more).terminated ended

/-- A delivery to a correlation filter is the classification of an element that was fed, and answers
the query. -/
theorem exists_fed_of_handedTo (k : Course) {query : Query} {stanza : Stanza}
    (has : k.now.query? n = some query) (stands : stanza ∈ k.past.handedTo query.filter) :
    ∃ e, .element e ∈ k.past.fed ∧ e.readAs k.faults = stanza ∧
      stanza.answers query.iq.id = true := by
  obtain ⟨⟨id, found⟩, handed, same⟩ := List.mem_filterMap.mp stands
  obtain ⟨rfl, rfl⟩ : id = query.filter ∧ found = stanza := by simpa using same
  obtain ⟨e, arrived, read⟩ := k.exists_fed_of_handed handed
  have wanted := k.accepts_of_handed _ handed
  rw [k.attended.wants n query has] at wanted
  exact ⟨e, arrived, read, wanted⟩

/-- The result made of the oldest delivery to the filter is admissible. -/
theorem may_ofReply (k : Course) {query : Query} {stanza : Stanza}
    (has : k.now.query? n = some query)
    (first : (k.now.inflow.registry.queueOf query.filter).head? = some stanza) :
    k.may query.iq limit barred (.ofReply (some stanza)) := by
  have stands : stanza ∈ k.past.handedTo query.filter := by
    rw [k.handedTo_eq_queueOf has]
    exact List.mem_of_head? first
  obtain ⟨e, arrived, rfl, answers⟩ := k.exists_fed_of_handedTo has stands
  exact Outcome.justified_ofReply arrived answers

/-- `Pursues` is preserved by every move. -/
theorem Pursues.step (pursues : k.Pursues n sender iq limit barred) (spares : k.past.Spares)
    (bars : sender = false → barred) (move : Move) :
    (k.andThen [move]).Pursues n sender iq limit barred := by
  obtain ⟨work, stands, pursues⟩ := pursues
  have further : ∀ outcome, k.may iq limit barred outcome →
      (k.andThen [move]).may iq limit barred outcome := fun _ => k.may_andThen [move]
  rcases Moment.stands_or_turned ⟨k.now, move⟩ stands with
    same | ⟨call, givenUp, touch, put, after, here, rfl, rfl, told, turned, later⟩
  · exact ⟨work, by rw [now_move]; exact same, pursues.mono further⟩
  · have running : ∀ {query}, call.work.query? = some query → k.now.query? n = some query :=
      fun asked => (Conversation.query?_eq stands).trans asked
    refine ⟨after, by rw [now_move]; exact later, ?_⟩
    -- the causes hold before the turn and persist after it
    refine Work.Pursues.mono (Work.Pursues.turn turned.turn pursues ?_ ?_ ?_ ?_) further
    · exact fun closed => closed.imp bars k.terminated_of_shut
    · intro query stanza asked first
      obtain ⟨rfl, -⟩ := pursues.query asked
      exact k.may_ofReply (running asked) first
    · intro query asked removed
      have closed := k.closed_of_isRemoved spares (running asked) removed
      exact .inr (k.terminated_of_closed closed)
    · exact fun timed => ⟨rfl, timed⟩

/-- A new query has an outbound sender, unless it was called on a conversation after `finish`. -/
theorem stands?_of_called (k : Course) {via : Via}
    (called : (k.now.act (.query via iq limit)).1 = .call n) :
    ∃ sender, (k.now.act (.query via iq limit)).2.stands? n = some (sender, .query iq limit) ∧
      (sender = false → via = .own ∧ ∃ m ∈ k.past, m.move = .outside .finish) := by
  rw [Conversation.act, Conversation.reaching] at called ⊢
  cases gone : k.now.unreachable? via with
  | some missing =>
    rw [gone] at called
    cases called
  | none =>
    rw [gone] at called
    obtain rfl := Answer.call.inj called
    have new : (k.now.addCall { sender := k.now.canSend via, work := .query iq limit }).2.stands?
        k.now.calls.length = some (k.now.canSend via, .query iq limit) := by
      simp [Conversation.addCall, Conversation.stands?]
    refine ⟨k.now.canSend via, new, fun barred => ?_⟩
    cases via with
    | handle number => cases barred
    | own =>
      have held : k.now.held = true := by
        cases held : k.now.held with
        | true => rfl
        | false => simp [Conversation.unreachable?, held] at gone
      exact ⟨rfl, k.finished_of_held held barred⟩

/-- From its call on a query is pursued, as long as no correlation filter is removed by a guessed
id. -/
theorem pursues_of_called (k : Course) {via : Via} {more : List Move} {j : Course}
    (called : (k.now.act (.query via iq limit)).1 = .call n)
    (follows : j = k.andThen (.outside (.query via iq limit) :: more)) (spares : j.past.Spares) :
    ∃ caller, j.Pursues n caller iq limit
      (via = .own ∧ ∃ m ∈ k.past, m.move = .outside .finish) := by
  obtain ⟨caller, asked, bars⟩ := k.stands?_of_called called
  refine ⟨caller, ?_⟩
  revert spares
  rw [follows]
  refine k.andThen_induction (P := fun j => j.past.Spares → j.Pursues n caller iq limit
    (via = .own ∧ ∃ m ∈ k.past, m.move = .outside .finish)) _ ?_ ?_ more
  · exact fun _ => ⟨.query iq limit, by rw [now_andThen]; exact asked, rfl, rfl⟩
  · intro j move pursues spares
    rw [past_andThen] at spares
    have before : j.past.Spares := fun m member => spares m (List.mem_append_left _ member)
    exact (pursues before).step before bars move

theorem Pursues.justified {caller : Bool} {outcome : Outcome}
    (pursues : k.Pursues n caller iq limit barred)
    (ended : k.now.stands? n = some (sender, .done outcome)) : k.may iq limit barred outcome := by
  obtain ⟨work, stands, pursued⟩ := pursues
  rw [stands] at ended
  cases ended
  exact pursued

/-- Whatever else goes on, `send_recv` ends with an admissible result: never with the reply to
another query, never with a closed conversation before termination unless it had no sender, and
never with a timeout if it has no limit. -/
theorem reply_correlated (k : Course) (via : Via) (iq : Iq) (limit : Option Nat) (n : Nat)
    (called : (k.now.act (.query via iq limit)).1 = .call n) (more : List Move) (j : Course)
    (follows : j = k.andThen (.outside (.query via iq limit) :: more)) (spares : j.past.Spares)
    (sender : Bool) (outcome : Outcome) (ended : j.now.stands? n = some (sender, .done outcome)) :
    outcome.Justified iq limit k.faults j.past.fed (j.now.outflow.terminated = true)
      (via = .own ∧ ∃ m ∈ k.past, m.move = .outside .finish) := by
  obtain ⟨caller, pursues⟩ := k.pursues_of_called called follows spares
  have justified := pursues.justified ended
  subst follows
  exact justified

/-- The same for an application that removes only ids it was given. -/
theorem justified_of_entitled (k : Course) {via : Via} {more : List Move} {j : Course}
    {outcome : Outcome} (called : (k.now.act (.query via iq limit)).1 = .call n)
    (follows : j = k.andThen (.outside (.query via iq limit) :: more))
    (entitled : j.past.Entitled) (ended : j.now.stands? n = some (sender, .done outcome)) :
    j.may iq limit (via = .own ∧ ∃ m ∈ k.past, m.move = .outside .finish) outcome := by
  obtain ⟨caller, pursues⟩ := k.pursues_of_called called follows (j.spares_of_entitled entitled)
  exact pursues.justified ended

/-- A query is called and sent. -/
def asking : Course where
  jid := ⟨none, "example", none⟩
  settings := { outboundCapacity := 2 }
  moves :=
    [.outside (.query .own (.get "first" (.named "ping")) none), .step (.call 0), .step (.call 0)]

/-- A second query is sent; the reply to it overtakes the reply to the first one. -/
def overtaking : List Move :=
  [.step (.call 1), .step (.call 1),
    .outside (.push (.element (.build "iq" [.attr "id" "second", .attr "type" "result"]))),
    .outside (.push (.element (.build "iq" [.attr "id" "first", .attr "type" "error"])))] ++
    List.replicate 8 (.step .reader) ++ [.step (.call 0), .step (.call 1)]

theorem reply_correlated_overtaking :
    let asked : Iq := .get "second" (.named "ping")
    let j := asking.andThen (.outside (.query .own asked none) :: overtaking)
    (asking.now.act (.query .own asked none)).1 = .call 1 ∧ j.past.Spares ∧
      ∃ reply, j.now.stands? 1 = some (true, .done (.replied reply)) ∧
        reply.id = "second" ∧ reply.type = .result := by
  intro asked j
  have called : (asking.now.act (.query .own asked none)).1 = .call 1 := by decide +kernel
  have spares : j.past.Spares := by decide +kernel
  have ended : j.now.stands? 1 =
      some (true, .done (.replied { id := "second", type := .result })) := by decide +kernel
  exact ⟨called, spares, _, ended,
    asking.reply_correlated .own asked none 1 called overtaking j rfl spares true _ ended⟩

end Course

end StanzaExchange
