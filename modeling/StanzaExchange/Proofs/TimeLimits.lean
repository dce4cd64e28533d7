import StanzaExchange.Proofs.ActiveFilters
import StanzaExchange.Proofs.Replies
import StanzaExchange.Proofs.Rest
import StanzaExchange.Proofs.Unlimited

/-!
Time limits (`send_recv_timeout` in section 10.2 of the specification). The execution with a limit
is compared with the one without, under the same moves: they coincide up to the limit unless the
timer ends the query (`now_eq_unlimited`), which it does only at or after the deadline, while the
query is not ready. What remains after a timeout is what remains after any other end of a query.
-/
namespace StanzaExchange

open Moment (isTurnOf)

namespace Conversation

variable {c : Conversation} {n : Nat} {move : Move}

/-- A query that was called is the last call, and would be with any other limit. -/
theorem act_query_of_called {via : Via} {iq : Iq} {limit : Option Nat}
    (called : (c.act (.query via iq limit)).1 = .call n) :
    n = c.calls.length ∧ ∀ other, (c.act (.query via iq other)).2 =
      (c.addCall { sender := c.canSend via, work := .query iq other }).2 := by
  simp only [act, reaching] at called ⊢
  cases gone : c.unreachable? via with
  | some missing =>
    rw [gone] at called
    cases called
  | none =>
    rw [gone] at called
    exact ⟨(Answer.call.inj called).symm, fun _ => rfl⟩

/-- A call changes in its own turns only. -/
theorem stands?_of_stranger (known : n < c.calls.length) (other : ¬isTurnOf n move) :
    (c.move move).stands? n = c.stands? n := by
  have same : ∀ {after : Conversation}, after.calls = c.calls → after.stands? n = c.stands? n :=
    fun calls => by rw [stands?, stands?, calls]
  have turns : ∀ k, k ≠ n → isTurnOf k move → (c.move move).stands? n = c.stands? n := by
    intro k apart turn
    rcases Moment.still_or_turns turn with still | ⟨call, here, later, calls, -⟩
    · rw [still]
    · exact (stands?_modify here calls n).trans (if_neg apart.symm)
  cases move with
  | outside action =>
    by_cases drops : ∃ k, action = .drop k
    · obtain ⟨k, rfl⟩ := drops
      exact turns k (fun mine => other (mine ▸ .inr (.inr rfl))) (.inr (.inr rfl))
    · exact (standsOrBegins_act (fun k drop => drops ⟨k, drop⟩) n).resolve_right
        fun begun => by simp [stands?, known] at begun
  | step agent =>
    cases agent with
    | reader => exact same (Moment.move_reader c).2
    | writer =>
      refine same ?_
      rw [Conversation.move, step?, writerStep?]
      cases c.outflow.step? c.faults c.trace c.producing <;> rfl
    | call k => exact turns k (fun mine => other (mine ▸ .inl rfl)) (.inl rfl)
    | timer k => exact turns k (fun mine => other (mine ▸ .inr (.inl rfl))) (.inr (.inl rfl))

theorem exists_stands? (known : n < c.calls.length) :
    ∃ sender work, c.stands? n = some (sender, work) :=
  ⟨c.calls[n].sender, c.calls[n].work, by simp [stands?, known]⟩

theorem lt_of_stands? {standing : Bool × Work} (stands : c.stands? n = some standing) :
    n < c.calls.length := by
  obtain ⟨call, here, -⟩ := Option.map_eq_some_iff.mp stands
  exact (List.getElem?_eq_some_iff.mp here).1

theorem lt_length_move (known : n < c.calls.length) (move : Move) :
    n < (c.move move).calls.length := by
  obtain ⟨sender, work, stands⟩ := exists_stands? known
  rcases Moment.stands_or_turned ⟨c, move⟩ stands with same | ⟨_, _, _, _, _, _, _, _, _, _, after⟩
  · exact lt_of_stands? same
  · exact lt_of_stands? after

theorem queued_of_waits (waits : c.callStep? n = none) :
    Moment.queued ⟨c, .step (.call n)⟩ = [] := by
  have still : c.move (.step (.call n)) = c := by rw [Conversation.move, step?, waits]; rfl
  rw [Moment.queued, Moment.after, still, gained_self]

end Conversation

/-- The stanza put on the outbound channel in this step, with its call. -/
def Moment.puts (m : Moment) : List (Nat × Stanza) :=
  match m.move with
  | .step (.call n) => m.queued.map (n, ·)
  | _ => []

/-- All stanzas put on the outbound channel, with their calls. -/
def History.puts (h : History) : List (Nat × Stanza) := h.flatMap Moment.puts

@[simp] theorem History.puts_concat (past : History) (m : Moment) :
    History.puts (past ++ [m]) = past.puts ++ m.puts := by
  simp [puts]

theorem Moment.mem_puts {m : Moment} {put : Nat × Stanza} :
    put ∈ m.puts ↔ m.move = .step (.call put.1) ∧ put.2 ∈ m.queued := by
  obtain ⟨n, stanza⟩ := put
  unfold puts
  split
  next k move => simp [move, and_comm, eq_comm]
  next other => exact iff_of_false (nomatch ·) fun puts => other n puts.1

/-- Only calls put stanzas on the outbound channel. -/
theorem Moment.map_puts (m : Moment) : m.puts.map Prod.snd = m.queued := by
  by_cases calls : ∃ n, m.move = .step (.call n)
  · obtain ⟨c, move⟩ := m
    obtain ⟨n, rfl⟩ := calls
    simp [puts, Function.comp_def]
  · have unput : m.queued = [] := by
      rcases m.stirs_or_writes with ⟨touch, stirs⟩ | ⟨events, writes⟩
      · rw [stirs.queued]
        exact Classical.byContradiction fun puts => calls (stirs.puts puts)
      · exact writes.queued
    have none : m.puts = [] := by
      unfold puts
      split
      next n move => exact absurd ⟨n, move⟩ calls
      · rfl
    rw [none, unput]
    rfl

theorem History.map_puts (h : History) : h.puts.map Prod.snd = h.queued := by
  rw [puts, List.map_flatMap, queued]
  exact congrArg (h.flatMap ·) (funext Moment.map_puts)

namespace Course

/-- The written stanzas are a prefix of those put on the channel. -/
theorem written_eq_puts (k : Course) :
    k.past.written = (k.past.puts.take k.past.written.length).map Prod.snd := by
  obtain ⟨lost, left, conveyed⟩ := k.conveyed
  rw [List.map_take, History.map_puts, conveyed.queued, List.append_assoc, List.append_assoc,
    List.take_left]

/-- Only calls that exist have put stanzas on the outbound channel. -/
theorem puts_lt (k : Course) : ∀ put ∈ k.past.puts, put.1 < k.now.calls.length := by
  refine k.induction (P := fun past now => ∀ put ∈ past.puts, put.1 < now.calls.length)
    (fun put member => nomatch member) fun moves move before put member => ?_
  rw [History.puts_concat] at member
  rcases List.mem_append.mp member with earlier | now
  · exact Conversation.lt_length_move (before put earlier) move
  · obtain ⟨turn, stanza⟩ := Moment.mem_puts.mp now
    obtain rfl : move = .step (.call put.1) := turn
    refine Conversation.lt_length_move (Nat.lt_of_not_le fun beyond => ?_) _
    have absent := List.getElem?_eq_none beyond
    rw [Conversation.queued_of_waits (by simp [Conversation.callStep?, absent])] at stanza
    cases stanza

end Course

/-- Only the timer ends a query with a timeout. -/
theorem Outcome.ofReply_ne_timeout (found : Option Stanza) (name : String) :
    Outcome.ofReply found ≠ .failed (.timeout name) := by
  unfold ofReply
  split
  · nofun
  · split <;> nofun
  · nofun

theorem Conversation.WorkStep.running {c after : Conversation} {n : Nat} {sender : Bool}
    {work : Work} (step : WorkStep c n sender work after) : work.isRunning = true := by
  cases step with
  | refused unsent => rcases unsent with rfl | rfl <;> rfl
  | _ => rfl

/-- The first poll of a query registers its filter. -/
theorem Conversation.WorkStep.eq_startQuery {c after : Conversation} {n : Nat} {sender : Bool}
    {iq : Iq} {limit : Option Nat} (step : WorkStep c n sender (.query iq limit) after) :
    after = c.startQuery n iq limit := by
  cases step with
  | registers => rfl
  | refused unsent => rcases unsent with asked | asked <;> cases asked

/-- What a query in this state has put on the outbound channel. -/
def Work.put : Work → List Stanza
  | .queryAwaiting asked => [.iq asked.iq]
  | _ => []

/-- A poll of a query carries it on or ends it, never with a timeout. -/
theorem Conversation.WorkStep.carries_on {c after : Conversation} {n : Nat} {sender : Bool}
    {work : Work} {query : Query} (step : WorkStep c n sender work after)
    (has : work.query? = some query) :
    ∃ later, after.calls = c.calls.modify n (fun call => { call with work := later }) ∧
      ((later.query? = some query ∧ ∃ put, later.put = work.put ++ put ∧
          after.outflow.outbound.queue = c.outflow.outbound.queue ++ put) ∨
        ∃ outcome, later = .done outcome ∧ ∀ name, outcome ≠ .failed (.timeout name)) := by
  cases step with
  | queues | queuesLate =>
    obtain rfl := Option.some.inj has
    exact ⟨_, rfl, .inl ⟨rfl, _, rfl, rfl⟩⟩
  | queryWaits =>
    obtain rfl := Option.some.inj has
    exact ⟨_, rfl, .inl ⟨rfl, [], rfl, (List.append_nil _).symm⟩⟩
  | refused => exact ⟨_, calls_endQuery _ _, .inr ⟨_, rfl, nofun⟩⟩
  | answered read => exact ⟨_, calls_endQuery _ _, .inr ⟨_, rfl, Outcome.ofReply_ne_timeout _⟩⟩
  | deserted => exact ⟨_, calls_endQuery _ _, .inr ⟨_, rfl, Outcome.ofReply_ne_timeout _⟩⟩
  | fails | sends | sendWaits | failsLate | sendsLate | registers | finishes | leaves | joins =>
    cases has

namespace Course

variable {a : Course} {n : Nat} {iq : Iq} {limit : Option Nat} {query : Query} {work : Work}
  {more : List Move} {move : Move}

/-- The step in which a query begins; its deadline counts from here. -/
structure Begins (j : Course) (n : Nat) (limit : Option Nat) (query : Query) : Prop where
  asks : ∃ sender, j.now.stands? n = some (sender, .query query.iq limit)
  filter : query.filter = j.now.inflow.registry.nextId
  deadline : query.deadline = limit.map (j.now.clock + ·)

/-- The query began within these moves. -/
def Began (a : Course) (n : Nat) (limit : Option Nat) (query : Query) (more : List Move) : Prop :=
  ∃ early between, more = early ++ .step (.call n) :: between ∧
    (a.andThen early).Begins n limit query

/-- The deadline of the query is reached while its call is not ready. -/
structure Expires (j : Course) (n : Nat) (query : Query) (work : Work) : Prop where
  waits : ∃ sender, j.now.stands? n = some (sender, work)
  asks : work = .queryWaiting query ∨ work = .queryAwaiting query
  late : ∃ deadline, query.deadline = some deadline ∧ deadline ≤ j.now.clock
  stuck : j.now.callStep? n = none ∧ j.now.Stuck n work

/-- What a call has put on the outbound channel. -/
def putBy (j : Course) (n : Nat) : List Stanza :=
  (j.past.puts.filter fun put => put.1 == n).map Prod.snd

/-- The states of a limited query after a sequence of moves, and what it has done so far. -/
inductive Timed (a : Course) (n : Nat) (iq : Iq) (limit : Option Nat) (more : List Move) :
    Work → Prop
  | asked (put : (a.andThen more).putBy n = []) : Timed a n iq limit more (.query iq limit)
  | runs {query : Query} {work : Work} (has : work.query? = some query)
      (began : a.Began n limit query more) (asks : query.iq = iq)
      (put : (a.andThen more).putBy n = work.put) :
      Timed a n iq limit more work
  | expired {query : Query} {work : Work} {earlier later : List Move}
      (split : more = earlier ++ .step (.timer n) :: later)
      (began : a.Began n limit query earlier) (asks : query.iq = iq)
      (expires : (a.andThen earlier).Expires n query work)
      (put : (a.andThen more).putBy n = work.put) :
      Timed a n iq limit more (.done (.failed (.timeout iq.id)))
  | ended {outcome : Outcome} (inTime : ∀ name, outcome ≠ .failed (.timeout name)) :
      Timed a n iq limit more (.done outcome)
  | cancelled : Timed a n iq limit more .cancelled

theorem andThen_nil (k : Course) : k.andThen [] = k := by
  simp [andThen]

theorem Began.mono (began : a.Began n limit query more) (later : List Move) :
    a.Began n limit query (more ++ later) := by
  obtain ⟨early, between, rfl, begins⟩ := began
  exact ⟨early, between ++ later, by simp, begins⟩

theorem putBy_of_other (j : Course) (other : move ≠ .step (.call n)) :
    (j.andThen [move]).putBy n = j.putBy n := by
  have unput : (Moment.puts ⟨j.now, move⟩).filter (fun put => put.1 == n) = [] := by
    rw [List.filter_eq_nil_iff]
    intro put member mine
    exact other ((beq_iff_eq.mp mine) ▸ (Moment.mem_puts.mp member).1)
  rw [putBy, past_move, History.puts_concat, List.filter_append, unput, List.append_nil, putBy]

theorem putBy_call (j : Course) {put : List Stanza}
    (queue : (j.now.move (.step (.call n))).outflow.outbound.queue =
      j.now.outflow.outbound.queue ++ put) :
    (j.andThen [.step (.call n)]).putBy n = j.putBy n ++ put := by
  have queued : Moment.queued ⟨j.now, .step (.call n)⟩ = put := by
    rw [Moment.queued, Moment.after, queue, gained_append]
  simp [putBy, past_move, Moment.puts, queued, List.filter_map, Function.comp_def]

theorem putBy_of_queue (j : Course)
    (queue : (j.now.move move).outflow.outbound.queue = j.now.outflow.outbound.queue) :
    (j.andThen [move]).putBy n = j.putBy n := by
  by_cases turn : move = .step (.call n)
  · subst turn
    exact (j.putBy_call (queue.trans (List.append_nil _).symm)).trans (List.append_nil _)
  · exact j.putBy_of_other turn

/-- `Timed` is preserved by moves that leave the call and its stanzas as they are. -/
theorem Timed.still (timed : a.Timed n iq limit more work)
    (unput : ((a.andThen more).andThen [move]).putBy n = (a.andThen more).putBy n) :
    a.Timed n iq limit (more ++ [move]) work := by
  rw [← andThen_concat] at unput
  cases timed with
  | asked put => exact .asked (unput.trans put)
  | runs has began asks put => exact .runs has (began.mono _) asks (unput.trans put)
  | expired split began asks expires put =>
    exact .expired (by rw [split, List.append_assoc]; rfl) began asks expires (unput.trans put)
  | ended inTime => exact .ended inTime
  | cancelled => exact .cancelled

/-- A poll carries the query on or ends it without a timeout. -/
private theorem Timed.callStep {sender : Bool} (timed : a.Timed n iq limit more work)
    (stands : (a.andThen more).now.stands? n = some (sender, work)) :
    ∃ later, ((a.andThen more).now.move (.step (.call n))).stands? n = some (sender, later) ∧
      a.Timed n iq limit (more ++ [.step (.call n)]) later := by
  have moved : (a.andThen more).now.move (.step (.call n)) =
      ((a.andThen more).now.callStep? n).getD (a.andThen more).now := rfl
  cases step : (a.andThen more).now.callStep? n with
  | none =>
    rw [step] at moved
    exact ⟨work, by rw [moved]; exact stands, timed.still (putBy_of_queue _ (by rw [moved]; rfl))⟩
  | some after =>
    rw [step, Option.getD_some] at moved
    obtain ⟨call, here, moves⟩ := Conversation.callStep?_spec step
    obtain ⟨rfl, rfl⟩ : call.sender = sender ∧ call.work = work := by
      simpa [Conversation.stands?, here] using stands
    rcases moves with ⟨given, rfl⟩ | ⟨-, further⟩
    · obtain ⟨touch, turned⟩ := Conversation.abandon_turned (c := (a.andThen more).now) (n := n)
        (Bool.and_eq_true_iff.mp given).2
      refine ⟨.cancelled, ?_, .cancelled⟩
      rw [moved]
      exact (Conversation.stands?_modify here turned.calls n).trans (if_pos rfl)
    · -- `cases` needs the work as a variable
      generalize asked : call.work = before at further timed stands
      cases timed with
      | asked put =>
        -- the first poll registers the filter and fixes the deadline
        obtain rfl := further.eq_startQuery
        let query : Query := ⟨iq, (a.andThen more).now.inflow.registry.nextId,
          limit.map ((a.andThen more).now.clock + ·)⟩
        have began : a.Began n limit query (more ++ [.step (.call n)]) :=
          ⟨more, [], rfl, ⟨_, stands⟩, rfl, rfl⟩
        refine ⟨.queryOffering query, ?_, .runs rfl began rfl ?_⟩
        · rw [moved]
          exact (Conversation.stands?_modify here rfl n).trans (if_pos rfl)
        · rw [andThen_concat, putBy_of_queue _ (by rw [moved]; rfl)]
          exact put
      | runs has began asks put =>
        obtain ⟨later, calls, goes⟩ := further.carries_on has
        refine ⟨later, ?_, ?_⟩
        · rw [moved]
          exact (Conversation.stands?_modify here calls n).trans (if_pos rfl)
        · rcases goes with ⟨carried, added, grown, queue⟩ | ⟨outcome, rfl, inTime⟩
          · refine .runs carried (began.mono _) asks ?_
            rw [andThen_concat, putBy_call _ (by rw [moved]; exact queue), put, grown]
          · exact .ended inTime
      | expired | ended | cancelled => cases further.running

/-- The timer ends a query only after the deadline, while it is not ready. -/
private theorem Timed.timerStep {sender : Bool} (timed : a.Timed n iq limit more work)
    (stands : (a.andThen more).now.stands? n = some (sender, work)) :
    ∃ later, ((a.andThen more).now.move (.step (.timer n))).stands? n = some (sender, later) ∧
      a.Timed n iq limit (more ++ [.step (.timer n)]) later := by
  have moved : (a.andThen more).now.move (.step (.timer n)) =
      ((a.andThen more).now.timerStep? n).getD (a.andThen more).now := rfl
  cases step : (a.andThen more).now.timerStep? n with
  | none =>
    rw [step] at moved
    exact ⟨work, by rw [moved]; exact stands, timed.still (putBy_of_queue _ (by rw [moved]; rfl))⟩
  | some after =>
    rw [step, Option.getD_some] at moved
    obtain ⟨call, query, deadline, here, waits, limited, late, stuck, rfl⟩ :=
      Conversation.timerStep?_spec step
    obtain ⟨rfl, rfl⟩ : call.sender = sender ∧ call.work = work := by
      simpa [Conversation.stands?, here] using stands
    have running : call.work.isRunning = true := by
      rcases waits with asked | asked <;> rw [asked] <;> rfl
    have expires : (a.andThen more).Expires n query call.work :=
      ⟨⟨_, stands⟩, waits, ⟨deadline, limited, late⟩, stuck,
        (Conversation.callStep?_eq_none stuck here running).2⟩
    refine ⟨.done (.failed (.timeout query.iq.id)), ?_, ?_⟩
    · rw [moved]
      exact (Conversation.stands?_modify here (Conversation.calls_endQuery _ _) n).trans
        (if_pos rfl)
    · have unput : (a.andThen (more ++ [.step (.timer n)])).putBy n = (a.andThen more).putBy n := by
        rw [andThen_concat, putBy_of_queue _ ((congrArg (·.outflow.outbound.queue) moved).trans
          (Conversation.queue_endQuery _ _))]
      generalize asked : call.work = before at timed running waits expires
      cases timed with
      | asked => rcases waits with asked | asked <;> cases asked
      | @runs query' _ has began asks put =>
        obtain rfl : query' = query := by
          rcases waits with asked | asked <;> simpa [asked, Work.query?] using has.symm
        rw [asks]
        exact .expired rfl began asks expires (unput.trans put)
      | expired | ended | cancelled => cases running

/-- Dropping the call cancels it, unless it has completed. -/
private theorem Timed.drop {sender : Bool} (timed : a.Timed n iq limit more work)
    (stands : (a.andThen more).now.stands? n = some (sender, work)) :
    ∃ later, ((a.andThen more).now.move (.outside (.drop n))).stands? n = some (sender, later) ∧
      a.Timed n iq limit (more ++ [.outside (.drop n)]) later := by
  obtain ⟨call, here, same⟩ := Option.map_eq_some_iff.mp stands
  obtain ⟨rfl, rfl⟩ : call.sender = sender ∧ call.work = work := by simpa using same
  have moved : (a.andThen more).now.move (.outside (.drop n)) =
      (a.andThen more).now.abandon n call.work := by
    simp only [Conversation.move, Conversation.act, here]
  cases running : call.work.isRunning with
  | true =>
    obtain ⟨touch, turned⟩ := Conversation.abandon_turned (c := (a.andThen more).now) (n := n)
      running
    refine ⟨.cancelled, ?_, .cancelled⟩
    rw [moved]
    exact (Conversation.stands?_modify here turned.calls n).trans (if_pos rfl)
  | false =>
    rw [Conversation.abandon_of_ended running] at moved
    exact ⟨call.work, by rw [moved]; exact stands, timed.still (putBy_of_queue _ (by rw [moved]))⟩

/-- Every move preserves `Timed`. -/
theorem Timed.step {sender : Bool} (timed : a.Timed n iq limit more work)
    (stands : (a.andThen more).now.stands? n = some (sender, work)) (move : Move) :
    ∃ later, (a.andThen (more ++ [move])).now.stands? n = some (sender, later) ∧
      a.Timed n iq limit (more ++ [move]) later := by
  rw [andThen_concat, now_move]
  by_cases turn : isTurnOf n move
  · rcases turn with rfl | rfl | rfl
    · exact timed.callStep stands
    · exact timed.timerStep stands
    · exact timed.drop stands
  · refine ⟨work, ?_, timed.still (putBy_of_other _ fun mine => turn (.inl mine))⟩
    exact (Conversation.stands?_of_stranger (Conversation.lt_of_stands? stands) turn).trans stands

/-- A limited query is in one of these states after any moves. -/
theorem exists_timed (k : Course) {via : Via}
    (called : (k.now.act (.query via iq limit)).1 = .call n) (more : List Move) :
    let a := k.andThen [.outside (.query via iq limit)]
    ∃ sender work, (a.andThen more).now.stands? n = some (sender, work) ∧
      a.Timed n iq limit more work := by
  intro a
  obtain ⟨rfl, asks⟩ := Conversation.act_query_of_called called
  have begun : a.now = (k.now.addCall { sender := k.now.canSend via, work := .query iq limit }).2 :=
    (k.now_move _).trans (asks limit)
  have unput : a.putBy k.now.calls.length = [] := by
    have asks : Move.outside (.query via iq limit) ≠ .step (.call k.now.calls.length) := nofun
    rw [k.putBy_of_other asks, putBy, List.map_eq_nil_iff, List.filter_eq_nil_iff]
    intro put earlier mine
    exact Nat.ne_of_lt (k.puts_lt put earlier) (beq_iff_eq.mp mine)
  suffices timed : ∃ work, (a.andThen more).now.stands? k.now.calls.length =
      some (k.now.canSend via, work) ∧ a.Timed k.now.calls.length iq limit more work from
    ⟨_, timed⟩
  induction more using List.reverseRecOn with
  | nil =>
    rw [andThen_nil]
    refine ⟨.query iq limit, ?_, .asked ?_⟩
    · rw [begun]
      simp [Conversation.addCall, Conversation.stands?]
    · rwa [andThen_nil]
  | append_singleton moves move ih =>
    obtain ⟨work, stands, timed⟩ := ih
    exact timed.step stands move

/-- A completed call stays completed. -/
theorem done_move {c : Conversation} {sender : Bool} {outcome : Outcome}
    (done : c.stands? n = some (sender, .done outcome)) (move : Move) :
    (c.move move).stands? n = some (sender, .done outcome) := by
  rcases Moment.stands_or_turned ⟨c, move⟩ done with
    same | ⟨call, _, _, _, _, here, -, ended, -, turned, -⟩
  · exact same
  · have running := turned.turn.running
    rw [ended] at running
    cases running

/-- Unless the timer has ended the query, the execution without the limit is in the same state up to
the limit. -/
theorem now_eq_unlimited (k : Course) {via : Via}
    (called : (k.now.act (.query via iq limit)).1 = .call n) (more : List Move) :
    (∃ sender name, (k.andThen (.outside (.query via iq limit) :: more)).now.stands? n =
        some (sender, .done (.failed (.timeout name)))) ∨
      (k.andThen (.outside (.query via iq none) :: more)).now =
        (k.andThen (.outside (.query via iq limit) :: more)).now.unlimited n := by
  obtain ⟨rfl, asks⟩ := Conversation.act_query_of_called called
  rw [andThen_cons, andThen_cons k (.outside (.query via iq none))]
  let a := k.andThen [.outside (.query via iq limit)]
  induction more using List.reverseRecOn with
  | nil =>
    refine .inr ?_
    rw [andThen_nil, andThen_nil, now_move, now_move]
    refine (asks none).trans (Eq.trans ?_
      (congrArg (Conversation.unlimited · k.now.calls.length) (asks limit)).symm)
    exact (Conversation.unlimited_addCall_self (c := k.now)
      { sender := k.now.canSend via, work := .query iq limit }).symm
  | append_singleton moves move ih =>
    rw [andThen_concat, andThen_concat, now_move, now_move]
    rcases ih with ⟨sender, name, up⟩ | same
    · exact .inl ⟨sender, name, done_move up move⟩
    · obtain ⟨_, _, stands, -⟩ := k.exists_timed called moves
      -- the executions differ only in a step of the timer of this call
      by_cases untimed : move = .step (.timer k.now.calls.length) →
          (a.andThen moves).now.timerStep? k.now.calls.length = none
      · rw [same]
        exact .inr (Conversation.move_unlimited (Conversation.lt_of_stands? stands) move untimed)
      · obtain ⟨rfl, up⟩ := Classical.not_imp.mp untimed
        obtain ⟨after, step⟩ := Option.ne_none_iff_exists'.mp up
        obtain ⟨call, query, _, here, -, -, -, -, rfl⟩ := Conversation.timerStep?_spec step
        refine .inl ⟨call.sender, query.iq.id, ?_⟩
        rw [Conversation.move, Conversation.step?, step, Option.getD_some]
        exact (Conversation.stands?_modify here (Conversation.calls_endQuery _ _) _).trans
          (if_pos rfl)

/-- The timer of an expired query ends it with a timeout. -/
theorem Expires.ends {j : Course} (expires : j.Expires n query work) :
    j.now.move (.step (.timer n)) =
      j.now.endQuery n query (.done (.failed (.timeout query.iq.id))) := by
  obtain ⟨⟨sender, stands⟩, asks, ⟨deadline, limited, late⟩, stuck, -⟩ := expires
  obtain ⟨call, here, same⟩ := Option.map_eq_some_iff.mp stands
  obtain ⟨-, rfl⟩ : call.sender = sender ∧ call.work = work := by simpa using same
  have waiting : Conversation.waitingQuery? call = some (query, deadline) := by
    rcases asks with asks | asks <;> simp [Conversation.waitingQuery?, asks, limited]
  simp [Conversation.move, Conversation.step?, Conversation.timerStep?, here, waiting, stuck, late]

theorem Expires.query? {j : Course} (expires : j.Expires n query work) :
    j.now.query? n = some query := by
  obtain ⟨sender, stands⟩ := expires.waits
  rw [Conversation.query?_eq stands]
  rcases expires.asks with rfl | rfl <;> rfl

/-- The state after a timeout. The filter is removed, and never active again; a query that was not
accepted never is, an accepted one stays on the outbound channel; later stanzas go to the other
filters or to the inbound channel. -/
structure LeavesBehind (last now : Course) (n : Nat) (query : Query) (work : Work) : Prop where
  removed : (last.now.move (.step (.timer n))).inflow.registry.active =
    last.now.inflow.registry.active.erase query.filter
  inactive : query.filter ∉ now.now.inflow.registry.active
  unsent : work = .queryWaiting query → now.putBy n = []
  sent : work = .queryAwaiting query → now.putBy n = [.iq query.iq] ∧
    (last.now.move (.step (.timer n))).outflow = last.now.outflow
  written : now.past.written = (now.past.puts.take now.past.written.length).map Prod.snd
  passedBy : ∀ stanza during, now.Routes stanza during →
    query.filter ∉ History.takers (now.begun.moments during)
  others : ∀ stanza during, now.Routes stanza during → ∀ id ∈ now.now.inflow.registry.active,
    now.now.inflow.registry.accepts id stanza = true →
      id ∈ History.takers (now.begun.moments during) ∨
        id ∈ (now.begun.run during).inflow.reader.toCome ∨
        (now.begun.run during).inflow.registry.Gone id
  surfaced : ∀ stanza during, now.Routes stanza during →
    History.surfaced (now.begun.moments during) =
      if (now.begun.run during).inflow.reader = .reading ∧
          History.takers (now.begun.moments during) = [] ∧
          (now.begun.run during).inflow.inbound.receiving = true then
        [stanza]
      else []

/-- The timer of an accepted query leaves the outbound half unchanged. -/
theorem Expires.outflow {j : Course} (expires : j.Expires n query (.queryAwaiting query)) :
    (j.now.move (.step (.timer n))).outflow = j.now.outflow := by
  obtain ⟨sender, stands⟩ := expires.waits
  have absent : n ∉ j.now.outflow.outbound.waiting := by
    rw [j.queueing.mem_iff, Conversation.waits, stands]
    exact Bool.false_ne_true
  have row : j.now.outflow.outbound.withdraw n = j.now.outflow.outbound := by
    rw [Channel.withdraw, List.erase_of_not_mem absent]
  rw [expires.ends]
  refine (Conversation.outflow_leaveFilter query.filter).trans ?_
  change { j.now.outflow with outbound := j.now.outflow.outbound.withdraw n } = j.now.outflow
  rw [row]

/-- The state after a timeout, from the laws of routing and of the outbound order. -/
theorem Expires.leavesBehind {last : Course} (expires : last.Expires n query work)
    (later : List Move)
    (put : (last.andThen (.step (.timer n) :: later)).putBy n = work.put) :
    last.LeavesBehind (last.andThen (.step (.timer n) :: later)) n query work := by
  have ended : ∀ moves, (last.andThen (.step (.timer n) :: moves)).now.query? n = none := by
    intro moves
    obtain ⟨sender, stands⟩ := expires.waits
    obtain ⟨call, here, -⟩ := Option.map_eq_some_iff.mp stands
    have done : (last.andThen (.step (.timer n) :: moves)).now.stands? n =
        some (call.sender, .done (.failed (.timeout query.iq.id))) := by
      rw [andThen_cons]
      induction moves using List.reverseRecOn with
      | nil =>
        rw [andThen_nil, now_move, expires.ends]
        exact (Conversation.stands?_modify here (Conversation.calls_endQuery _ _) n).trans
          (if_pos rfl)
      | append_singleton moves move ih =>
        rw [andThen_concat, now_move]
        exact done_move ih move
    exact Conversation.query?_eq done
  have inactive := inactive_of_ended expires.query? (ended later)
  refine ⟨?_, inactive, ?_, ?_, written_eq_puts _,
    fun stanza during routes member => inactive ?_, fun _ _ routes _ => routes.misses,
    fun _ _ routes => routes.surfaced⟩
  · have now := ended []
    rw [now_move] at now
    exact (last.counts (.step (.timer n))).ended expires.query? now
  · rintro rfl
    exact put
  · rintro rfl
    exact ⟨put, expires.outflow⟩
  · exact routes.routed.offered.sublist.subset member

/-- The deadline was reached at a step at which the query without the limit was not ready either. -/
structure RunsOut (k : Course) (n : Nat) (via : Via) (iq : Iq) (limit : Nat) (query : Query)
    (work : Work) (earlier : List Move) : Prop where
  asks : query.iq = iq
  began : (k.andThen [.outside (.query via iq (some limit))]).Began n (some limit) query earlier
  expires : (k.andThen (.outside (.query via iq (some limit)) :: earlier)).Expires n query work
  blocked : (k.andThen (.outside (.query via iq none) :: earlier)).now.callStep? n = none

/-- Every timeout has such a step. -/
theorem exists_runsOut (k : Course) {via : Via} {limit : Nat} {sender : Bool} {name : String}
    (called : (k.now.act (.query via iq (some limit))).1 = .call n)
    (up : (k.andThen (.outside (.query via iq (some limit)) :: more)).now.stands? n =
      some (sender, .done (.failed (.timeout name)))) :
    name = iq.id ∧ ∃ query work earlier later, more = earlier ++ .step (.timer n) :: later ∧
      k.RunsOut n via iq limit query work earlier ∧
      LeavesBehind (k.andThen (.outside (.query via iq (some limit)) :: earlier))
        (k.andThen (.outside (.query via iq (some limit)) :: more)) n query work := by
  obtain ⟨_, _, stands, timed⟩ := k.exists_timed called more
  rw [← andThen_cons, up] at stands
  obtain ⟨rfl, rfl⟩ := Prod.mk.inj (Option.some.inj stands)
  cases timed with
  | runs has => cases has
  | ended inTime => exact absurd rfl (inTime _)
  | @expired query work earlier later split began asks expires put =>
    rw [← andThen_cons] at expires put
    refine ⟨rfl, query, work, earlier, later, split, ⟨asks, began, expires, ?_⟩, ?_⟩
    · rcases k.now_eq_unlimited called earlier with ⟨_, _, ended⟩ | same
      · obtain ⟨_, waits⟩ := expires.waits
        obtain ⟨-, rfl⟩ := Prod.mk.inj (Option.some.inj (ended.symm.trans waits))
        rcases expires.asks with asks | asks <;> cases asks
      · rw [same, Conversation.unlimited_callStep?, expires.stuck.1]
        rfl
    · have reached : k.andThen (.outside (.query via iq (some limit)) :: more) =
          (k.andThen (.outside (.query via iq (some limit)) :: earlier)).andThen
            (.step (.timer n) :: later) := by
        simp [andThen, split]
      rw [reached] at put ⊢
      exact expires.leavesBehind later put

/-- A query with a time limit refines the one without it, after any execution and under the same
moves. Unless the timer ends it both end alike. A reply in its filter queue wins over the timer. A
timeout carries the id of the query and happens at or after the deadline, at a step at which the
query without the limit was not ready. -/
theorem time_limit_refines (k : Course) {via : Via} {iq : Iq} {limit n : Nat}
    (called : (k.now.act (.query via iq (some limit))).1 = .call n) (more : List Move) :
    let timed := k.andThen (.outside (.query via iq (some limit)) :: more)
    let plain := k.andThen (.outside (.query via iq none) :: more)
    ((∀ sender name, timed.now.stands? n ≠ some (sender, .done (.failed (.timeout name)))) →
      plain.now = timed.now.unlimited n ∧ ∀ sender outcome,
        plain.now.stands? n = some (sender, .done outcome) ↔
          timed.now.stands? n = some (sender, .done outcome)) ∧
    (∀ sender query first rest, timed.now.stands? n = some (sender, .queryAwaiting query) →
      timed.past.handedTo query.filter = first :: rest →
        timed.now.step? (.timer n) = none ∧ (timed.now.awaits n query.filter = true →
          (timed.now.move (.step (.call n))).stands? n =
            some (sender, .done (.ofReply (some first))))) ∧
    ∀ sender name, timed.now.stands? n = some (sender, .done (.failed (.timeout name))) →
      name = iq.id ∧ ∃ query work earlier later, more = earlier ++ .step (.timer n) :: later ∧
        k.RunsOut n via iq limit query work earlier ∧
        LeavesBehind (k.andThen (.outside (.query via iq (some limit)) :: earlier)) timed n
          query work := by
  intro timed plain
  refine ⟨fun inTime => ?_, fun _ _ _ _ stands handed => timed.decides_next stands handed,
    fun _ _ up => k.exists_runsOut called up⟩
  have same := (k.now_eq_unlimited called more).resolve_left
    fun ⟨sender, name, up⟩ => inTime sender name up
  refine ⟨same, fun sender outcome => ?_⟩
  obtain ⟨_, work, stands, -⟩ := k.exists_timed called more
  rw [← andThen_cons] at stands
  rw [same, Conversation.stands?_unlimited, stands]
  simp [Work.limitedIf_eq_done_iff]

def fresh : Course where
  jid := ⟨none, "example", none⟩
  settings := { filterCapacity := 2 }
  moves := []

/-- The query is sent, the deadline passes, and then the reply is fed. -/
def tardy : List Move :=
  [.step (.call 0), .step (.call 0), .outside (.advance 60), .step (.timer 0),
    .outside (.push (.element (.build "iq" [.attr "id" "first", .attr "type" "result"])))]

/-- The query is sent, the reply is delivered, and then the deadline passes. -/
def hasty : List Move :=
  [.step (.call 0), .step (.call 0),
    .outside (.push (.element (.build "iq" [.attr "id" "first", .attr "type" "result"]))),
    .step .reader, .step .reader, .step .reader, .outside (.advance 60)]

theorem time_limit_refines_fresh :
    let iq : Iq := .get "first" (.named "ping")
    let reply : Iq := { id := "first", type := .result }
    let timed := fresh.andThen (.outside (.query .own iq (some 50)) :: tardy)
    let other := fresh.andThen (.outside (.query .own iq (some 50)) :: hasty)
    (fresh.now.act (.query .own iq (some 50))).1 = .call 0 ∧
      timed.now.stands? 0 = some (true, .done (.failed (.timeout "first"))) ∧
      timed.putBy 0 = [.iq iq] ∧
      timed.Routes (.iq reply) [.step .reader, .step .reader] ∧
      History.surfaced (timed.begun.moments [.step .reader, .step .reader]) = [.iq reply] ∧
      (fresh.andThen (.outside (.query .own iq none) :: hasty)).now = other.now.unlimited 0 ∧
      other.now.clock = 60 ∧ other.now.step? (.timer 0) = none ∧
      (other.now.move (.step (.call 0))).stands? 0 = some (true, .done (.replied reply)) := by
  intro iq reply timed other
  have called : (fresh.now.act (.query .own iq (some 50))).1 = .call 0 := by decide +kernel
  have up : timed.now.stands? 0 = some (true, .done (.failed (.timeout "first"))) := by
    decide +kernel
  obtain ⟨-, -, ends⟩ := fresh.time_limit_refines called tardy
  obtain ⟨-, _, _, _, _, -, -, behind⟩ := ends true "first" up
  have routes : timed.Routes (.iq reply) [.step .reader, .step .reader] :=
    ⟨by decide +kernel, by decide +kernel, by decide +kernel⟩
  have surfaced := (behind.surfaced _ _ routes).trans
    (if_pos ⟨by decide +kernel, by decide +kernel, by decide +kernel⟩)
  have waits : other.now.stands? 0 =
      some (true, .queryAwaiting ⟨iq, 0, some 50⟩) := by decide +kernel
  obtain ⟨inTime, wins, -⟩ := fresh.time_limit_refines called hasty
  obtain ⟨same, -⟩ := inTime fun sender name up => by rw [waits] at up; cases up
  obtain ⟨still, next⟩ := wins true _ (.iq reply) [] waits (by decide +kernel)
  exact ⟨called, up, by decide +kernel, routes, surfaced, same, by decide +kernel, still,
    next (by decide +kernel)⟩

end Course

end StanzaExchange
