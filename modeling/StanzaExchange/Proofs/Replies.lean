import StanzaExchange.Proofs.Queries
import StanzaExchange.Proofs.Routing

/-!
Completeness of correlation (sections 4.2 and 4.5 of the specification). The correlation filter is
registered before the query is sent, so a reply that is routed while the query runs is delivered to
it (`Routes.reply_handed`); and once the query is sent, the first delivery decides its result,
through teardown, hang-up and deadline (`Decides`).
-/
namespace StanzaExchange

open Inflow (Flow Touch handsTo Advance)

namespace Course

variable {k : Course} {n : Nat} {query : Query} {stanza : Stanza} {during : List Move}

/-- The correlation filter of a running query is not gone before teardown. -/
theorem not_gone (k : Course) (spares : k.past.Spares) (has : k.now.query? n = some query)
    (unfinished : k.now.inflow.reader ≠ .closed) : ¬k.now.inflow.registry.Gone query.filter := by
  rintro (removed | unread)
  · exact unfinished (k.closed_iff.mp (k.closed_of_isRemoved spares has removed))
  · exact Bool.false_ne_true (unread.symm.trans (k.attended.reads n query has))

/-- A reply whose routing begins after the registration and is finished before the query ends is
delivered to the query, and does not go to the inbound channel. -/
theorem Routes.reply_handed (routes : k.Routes stanza during)
    (done : (k.begun.run during).inflow.reader = .reading)
    (spares : (k.andThen (.step .reader :: during)).past.Spares)
    (has : k.now.query? n = some query) (still : (k.begun.run during).query? n = some query)
    (answers : stanza.answers query.iq.id = true) :
    (query.filter, stanza) ∈ History.handed (k.begun.moments during) ∧
      History.surfaced (k.begun.moments during) = [] := by
  let j := k.andThen (.step .reader :: during)
  have reached : j.now = k.begun.run during := k.now_andThen _
  have past : j.past = k.past ++ k.now.moments (.step .reader :: during) := k.past_andThen _
  have before : k.past.Spares := fun m member =>
    spares m (by rw [past]; exact List.mem_append_left _ member)
  have routed := routes.routed
  obtain ⟨served, split, order, served_all⟩ := routed.offered.split
  have all : k.now.inflow.registry.active = served := by
    rw [split, done]
    exact List.append_nil served
  have active : query.filter ∈ served := by
    rw [← all, k.wellFormed.active_iff]
    cases removed : k.now.inflow.registry.isRemoved query.filter with
    | false => rfl
    | true =>
      have unfinished : k.now.inflow.reader ≠ .closed := by simp [routes.idle]
      exact absurd (.inl removed) (k.not_gone before has unfinished)
  have there : ¬(k.begun.run during).inflow.registry.Gone query.filter := by
    rw [← reached]
    exact j.not_gone spares (by rw [reached]; exact still) (by simp [reached, done])
  have wanted : (k.begun.run during).inflow.registry.accepts query.filter stanza = true := by
    rw [← reached, j.attended.wants n query (by rw [reached]; exact still)]
    exact answers
  have taker := (served_all query.filter active wanted).resolve_right there
  obtain ⟨⟨id, found⟩, handed, rfl⟩ := List.mem_map.mp taker
  obtain rfl : found = stanza := routed.alike _ handed
  refine ⟨handed, ?_⟩
  rcases routed.stage with ⟨held, unseen⟩ | ⟨idle, shown⟩
  · exact unseen
  · rw [shown, if_neg fun none => List.ne_nil_of_mem taker none.1]

/-- The same for an application that removes only ids it was given. -/
theorem Routes.reply_handed_of_entitled (routes : k.Routes stanza during)
    (done : (k.begun.run during).inflow.reader = .reading)
    (entitled : (k.andThen (.step .reader :: during)).past.Entitled)
    (has : k.now.query? n = some query) (still : (k.begun.run during).query? n = some query)
    (answers : stanza.answers query.iq.id = true) :
    (query.filter, stanza) ∈ History.handed (k.begun.moments during) ∧
      History.surfaced (k.begun.moments during) = [] :=
  routes.reply_handed done (spares_of_entitled _ entitled) has still answers

end Course

/-- The states of a sent query, by the deliveries to its filter: it is pending, or has ended with
the first delivery, or without any by its timer. -/
def Work.Decided (query : Query) (handed : List Stanza) : Work → Prop
  | .queryAwaiting asked => asked = query
  | .done outcome => outcome = .ofReply handed.head? ∨
      (handed = [] ∧ outcome = .failed (.timeout query.iq.id))
  | .cancelled => True
  | _ => False

namespace Course

/-- A sent query, still pending or decided; then its filter takes no more deliveries. -/
structure Decides (k : Course) (n : Nat) (query : Query) : Prop where
  exists_work : ∃ sender work, k.now.stands? n = some (sender, work) ∧
    work.Decided query (k.past.handedTo query.filter) ∧
    (work.query? = none → query.filter < k.now.inflow.registry.nextId ∧
      k.now.inflow.registry.isReceiving query.filter = false)

/-- A turn of an awaiting query ends it with the oldest delivery, or without any. -/
private theorem decided_of_turn (k : Course) {call : Call} {givenUp : Bool} {touch : Touch}
    {put : List Stanza} {work : Work} (has : k.now.query? n = some query)
    (awaiting : call.work = .queryAwaiting query)
    (turn : Conversation.Turn k.now call givenUp touch put work) :
    work.Decided query (k.past.handedTo query.filter) ∧ work.query? = none ∧
      (work = .cancelled → givenUp = true) ∧ ∃ reads, touch = .leave query.filter reads := by
  rw [k.handedTo_eq_queueOf has]
  have same : ∀ {asked}, call.work.query? = some asked → asked = query := by
    intro asked runs
    rw [awaiting] at runs
    exact (Option.some.inj runs).symm
  cases turn with
  | plain running before after mild =>
    rw [awaiting] at before
    cases before
  | registers asked | waits asked | forgets asked =>
    rw [awaiting] at asked
    cases asked
  | queues unsent | refused unsent shut =>
    rw [awaiting] at unsent
    rcases unsent with asked | asked <;> cases asked
  | @answered other stanza asked first =>
    obtain rfl : other = query := same (by simp [asked, Work.query?])
    exact ⟨.inl (by rw [first]), rfl, by simp, true, rfl⟩
  | @deserted other asked empty removed =>
    obtain rfl : other = query := same (by simp [asked, Work.query?])
    exact ⟨.inl (by simp [empty]), rfl, by simp, false, rfl⟩
  | expires runs limited empty =>
    obtain rfl := same runs
    exact ⟨.inr ⟨empty awaiting, rfl⟩, rfl, by simp, false, rfl⟩
  | abandons runs =>
    obtain rfl := same runs
    exact ⟨trivial, rfl, fun _ => rfl, false, rfl⟩

/-- A filter without receiver gets no deliveries. -/
theorem handedTo_of_unread (k : Course) (move : Move) {id : FilterId}
    (unread : k.now.inflow.registry.isReceiving id = false) :
    (k.andThen [move]).past.handedTo id = k.past.handedTo id := by
  rw [handedTo_andThen]
  rcases Moment.told_or_advances ⟨k.now, move⟩ with ⟨touch, told⟩ | ⟨flow, advances⟩
  · simp [told.still.2.1, handsTo]
  · rw [advances.handed]
    rcases advances.step.handed with none | ⟨other, stanza, one, known, wanted, reads⟩
    · simp [none, handsTo]
    · have different : other ≠ id := by
        rintro rfl
        exact Bool.false_ne_true (unread.symm.trans reads)
      simp [one, handsTo, different]

variable {k : Course} {n : Nat} {query : Query}

/-- `Decides` is preserved by moves that leave the call as it is. -/
private theorem Decides.still (decides : k.Decides n query) (move : Move)
    (same : (k.now.move move).stands? n = k.now.stands? n) :
    (k.andThen [move]).Decides n query := by
  obtain ⟨sender, work, stands, decided, left⟩ := decides
  have ages : k.now.inflow.registry.Ages (k.now.move move).inflow.registry :=
    Conversation.ages_move move
  refine ⟨sender, work, by rw [now_move, same, stands], ?_, fun ended => ?_⟩
  · cases work with
    | done outcome =>
      rw [k.handedTo_of_unread move (left rfl).2]
      exact decided
    | queryAwaiting asked | cancelled => exact decided
    | _ => exact decided.elim
  · obtain ⟨known, unread⟩ := left ended
    rw [now_move]
    refine ⟨ages.lt_nextId known, Bool.eq_false_iff.mpr fun reads => ?_⟩
    exact Bool.false_ne_true (unread.symm.trans (ages.isReceiving known reads))

/-- `Decides` is preserved by a turn of the call. -/
private theorem Decides.of_turn {move : Move} {call : Call} {givenUp : Bool} {touch : Touch}
    {put : List Stanza} {work : Work} (has : k.now.query? n = some query)
    (here : k.now.calls[n]? = some call) (awaiting : call.work = .queryAwaiting query)
    (told : Moment.Told ⟨k.now, move⟩ touch)
    (turned : Conversation.Turned k.now n call givenUp touch put work (k.now.move move)) :
    (k.andThen [move]).Decides n query := by
  obtain ⟨decided, ended, -, reads, rfl⟩ := k.decided_of_turn has awaiting turned.turn
  have ages : k.now.inflow.registry.Ages (k.now.move move).inflow.registry :=
    Conversation.ages_move move
  have inflow : (k.now.move move).inflow = k.now.inflow.touch (.leave query.filter reads) :=
    told.inflow
  have same : (k.andThen [move]).past.handedTo query.filter = k.past.handedTo query.filter := by
    simp [handedTo_andThen, told.still.2.1, handsTo]
  refine ⟨call.sender, work, ?_, by rw [same]; exact decided, fun _ => ?_⟩
  · rw [now_move]
    exact (Conversation.stands?_modify here turned.calls n).trans (if_pos rfl)
  · rw [now_move]
    refine ⟨ages.lt_nextId (k.attended.known n query has), ?_⟩
    rw [inflow, Inflow.touch, Registry.isReceiving_leave, if_pos rfl]

/-- `Decides` is preserved by every move. -/
theorem Decides.step (decides : k.Decides n query) (move : Move) :
    (k.andThen [move]).Decides n query := by
  obtain ⟨sender, work, stands, decided, left⟩ := decides.exists_work
  rcases Moment.stands_or_turned ⟨k.now, move⟩ stands with
    same | ⟨call, givenUp, touch, put, after, here, rfl, rfl, told, turned, later⟩
  · exact decides.still move (Eq.trans same stands.symm)
  · have running := turned.turn.running
    -- only a pending call has a turn
    cases awaiting : call.work with
    | queryAwaiting asked =>
      rw [awaiting] at decided
      obtain rfl : asked = query := decided
      have runs : k.now.query? n = some asked := by
        rw [Conversation.query?_eq stands, awaiting]
        rfl
      exact .of_turn runs here awaiting told turned
    | done outcome | cancelled =>
      rw [awaiting] at running
      cases running
    | _ =>
      rw [awaiting] at decided
      exact decided.elim

/-- The poll that puts the query on the outbound channel establishes `Decides`. -/
theorem Decides.of_queued (has : k.now.query? n = some query)
    (sent : Moment.queued ⟨k.now, .step (.call n)⟩ = [.iq query.iq]) :
    (k.andThen [.step (.call n)]).Decides n query := by
  have reached : (k.andThen [.step (.call n)]).now = k.now.move (.step (.call n)) :=
    k.now_andThen _
  cases step : k.now.callStep? n with
  | none =>
    have idle : k.now.move (.step (.call n)) = k.now := by
      simp only [Conversation.move, Conversation.step?, step, Option.getD_none]
    simp [Moment.queued, Moment.after, idle, gained] at sent
  | some after =>
    have moved : k.now.move (.step (.call n)) = after := by
      simp only [Conversation.move, Conversation.step?, step, Option.getD_some]
    obtain ⟨call, touch, put, work, here, turned⟩ := Conversation.callStep?_turned step
    have put_eq : put = [.iq query.iq] := by
      simpa [Moment.queued, Moment.after, moved, turned.queue, gained] using sent
    have runs : call.work.query? = some query := by
      rw [← has, Conversation.query?, Conversation.stands?, here]
      rfl
    have turn := turned.turn
    rw [put_eq] at turn
    have awaits : work = .queryAwaiting query := turn.awaits runs
    refine ⟨call.sender, work, ?_, ?_, fun ended => ?_⟩
    · rw [reached, moved]
      exact (Conversation.stands?_modify here turned.calls n).trans (if_pos rfl)
    · rw [awaits]
      rfl
    · rw [awaits] at ended
      cases ended

/-- A pending query with a delivery is not ended by its timer; its next poll, unless it is aborted,
ends it with the first delivery. -/
theorem decides_next (k : Course) {sender : Bool} {first : Stanza} {rest : List Stanza}
    (stands : k.now.stands? n = some (sender, .queryAwaiting query))
    (handed : k.past.handedTo query.filter = first :: rest) :
    k.now.step? (.timer n) = none ∧ (k.now.awaits n query.filter = true →
      (k.now.move (.step (.call n))).stands? n =
        some (sender, .done (.ofReply (some first)))) := by
  obtain ⟨call, here, same⟩ := Option.map_eq_some_iff.mp stands
  obtain ⟨rfl, awaiting⟩ : call.sender = sender ∧ call.work = .queryAwaiting query := by
    simpa using same
  have runs : k.now.query? n = some query := Conversation.query?_eq stands
  cases step : k.now.callStep? n with
  | none =>
    have awaited : call.work.awaited? = some query.filter := by simp [awaiting, Work.awaited?]
    have empty := Conversation.queueOf_of_stuck step here awaited
    rw [← k.handedTo_eq_queueOf runs, handed] at empty
    cases empty
  | some after =>
    refine ⟨by simp [Conversation.step?, Conversation.timerStep?, step], fun awaits => ?_⟩
    have moved : k.now.move (.step (.call n)) = after := by
      simp only [Conversation.move, Conversation.step?, step, Option.getD_some]
    obtain ⟨call', touch, put, work, here', turned⟩ := Conversation.callStep?_turned step
    obtain rfl : call' = call := Option.some.inj (here'.symm.trans here)
    have kept : call'.aborted = false := by
      simp only [Conversation.awaits, here, Option.any_some, Bool.and_eq_true] at awaits
      simpa using awaits.1
    obtain ⟨decided, ended, given, -⟩ := k.decided_of_turn runs awaiting turned.turn
    rw [kept] at given
    rw [handed] at decided
    have outcome : work = .done (.ofReply (some first)) := by
      cases work with
      | done outcome =>
        rcases decided with same | ⟨none, -⟩
        · rw [same]
          rfl
        · cases none
      | cancelled => cases given rfl
      | queryAwaiting asked => cases ended
      | _ => exact decided.elim
    rw [moved, ← outcome]
    exact (Conversation.stands?_modify here turned.calls n).trans (if_pos rfl)

/-- No reply is missed. A reply routed while the query has its filter is delivered to it; and once
the query is sent, the first delivery decides its result, unless the call is dropped. The condition
`Spares` says that no caller removes a correlation filter by a guessed id; `spares_of_entitled`
gives it for an application that removes only ids it was given. -/
theorem no_reply_missed (k : Course) (n : Nat) (query : Query)
    (has : k.now.query? n = some query) :
    (∀ stanza during, k.Routes stanza during → stanza.answers query.iq.id = true →
      (k.andThen (.step .reader :: during)).past.Spares →
      (k.begun.run during).inflow.reader = .reading →
      (k.begun.run during).query? n = some query →
      (query.filter, stanza) ∈ History.handed (k.begun.moments during) ∧
        History.surfaced (k.begun.moments during) = []) ∧
    (Moment.queued ⟨k.now, .step (.call n)⟩ = [.iq query.iq] →
      ∀ more j first rest, j = k.andThen (.step (.call n) :: more) →
      j.past.handedTo query.filter = first :: rest →
      ∃ sender work, j.now.stands? n = some (sender, work) ∧
        (work = .done (.ofReply (some first)) ∨ work = .cancelled ∨
          work = .queryAwaiting query ∧ j.now.step? (.timer n) = none ∧
            (j.now.awaits n query.filter = true →
              (j.now.move (.step (.call n))).stands? n =
                some (sender, .done (.ofReply (some first)))))) := by
  refine ⟨fun stanza during routes answers spares done still =>
    routes.reply_handed done spares has still answers, ?_⟩
  intro sent more j first rest follows handed
  have decides : j.Decides n query := by
    rw [follows]
    refine k.andThen_induction (P := fun j => j.Decides n query) _ (.of_queued has sent) ?_ more
    exact fun _ move decides => decides.step move
  obtain ⟨sender, work, stands, decided, -⟩ := decides
  rw [handed] at decided
  refine ⟨sender, work, stands, ?_⟩
  cases work with
  | done outcome =>
    rcases decided with same | ⟨none, -⟩
    · exact .inl (by simp [same])
    · cases none
  | cancelled => exact .inr (.inl rfl)
  | queryAwaiting asked =>
    obtain rfl : asked = query := decided
    exact .inr (.inr ⟨rfl, decides_next _ stands handed⟩)
  | _ => exact decided.elim

/-- A query is registered and not yet sent, and a reply to it is fed. -/
def early : Course where
  jid := ⟨none, "example", none⟩
  settings := { filterCapacity := 2 }
  moves :=
    [.outside (.query .own (.get "first" (.named "ping")) none), .step (.call 0),
      .outside (.push (.element (.build "iq" [.attr "id" "first", .attr "type" "result"])))]

/-- The query is sent, a second reply is fed, the peer hangs up, and the registry is closed. -/
def late : List Move :=
  [.outside (.push (.element (.build "iq" [.attr "id" "first", .attr "type" "error"]))),
    .outside .hangUp] ++ List.replicate 9 (.step .reader)

theorem no_reply_missed_early :
    let query : Query := ⟨.get "first" (.named "ping"), 0, none⟩
    let reply : Iq := { id := "first", type := .result }
    let j := early.andThen (.step (.call 0) :: late)
    (0, .iq reply) ∈ History.handed (early.begun.moments [.step .reader, .step .reader]) ∧
      j.now.inflow.registry.closed = true ∧ j.past.handedTo query.filter =
        [.iq reply, .iq { id := "first", type := .error }] ∧
      (j.now.move (.step (.call 0))).stands? 0 = some (true, .done (.replied reply)) := by
  intro query reply j
  have has : early.now.query? 0 = some query := by decide +kernel
  have routes : early.Routes (.iq reply) [.step .reader, .step .reader] :=
    ⟨by decide +kernel, by decide +kernel, by decide +kernel⟩
  have handed : j.past.handedTo query.filter =
      [.iq reply, .iq { id := "first", type := .error }] := by decide +kernel
  obtain ⟨sees, decides⟩ := early.no_reply_missed 0 query has
  obtain ⟨here, -⟩ := sees (.iq reply) [.step .reader, .step .reader] routes (by decide +kernel)
    (by decide +kernel) (by decide +kernel) (by decide +kernel)
  obtain ⟨sender, work, stands, outcome⟩ :=
    decides (by decide +kernel) late j (.iq reply) _ rfl handed
  have waits : j.now.stands? 0 = some (true, .queryAwaiting query) := by decide +kernel
  obtain ⟨rfl, rfl⟩ : true = sender ∧ .queryAwaiting query = work := by
    simpa [waits] using stands
  rcases outcome with done | given | ⟨-, -, next⟩
  · cases done
  · cases given
  · exact ⟨here, by decide +kernel, handed, next (by decide +kernel)⟩

end Course

end StanzaExchange
