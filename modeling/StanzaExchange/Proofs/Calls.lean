import StanzaExchange.Conversation.Tasks
import StanzaExchange.Proofs.Inflow

/-!
Inversion of the polls of calls. `WorkStep` lists the polls by suspension point, each with the state
after it; every other fact about a poll is read off it. `Turn` is its projection to the call: the
next suspension point, the operation on the inbound half, and the stanza put on the outbound
channel. A query registers its correlation filter in its first poll and removes it in the poll in
which it ends.
-/
namespace StanzaExchange

open Inflow (Touch)

namespace Work

/-- A `send_recv` that has not ended. -/
def isQuery : Work → Bool
  | .query _ _ | .queryOffering _ | .queryWaiting _ | .queryAwaiting _ => true
  | _ => false

def isJoin : Work → Bool
  | .join => true
  | _ => false

/-- Not polled yet. -/
def isFresh : Work → Bool
  | .send _ | .query _ _ | .join => true
  | _ => false

/-- Waits for a slot of the outbound channel. -/
def isWaiting : Work → Bool
  | .sendWaiting _ | .queryWaiting _ => true
  | _ => false

theorem isWaiting_of_isFresh {work : Work} (fresh : work.isFresh = true) :
    work.isWaiting = false := by
  cases work <;> first | rfl | cases fresh

theorem isRunning_of_isWaiting {work : Work} (waits : work.isWaiting = true) :
    work.isRunning = true := by
  cases work <;> first | rfl | cases waits

/-- The stanza that the outbound channel accepts between two suspension points. -/
def accepts : Work → Work → List Stanza
  | .send stanza, .done .sent | .sendWaiting stanza, .done .sent => [stanza]
  | .queryOffering asked, .queryAwaiting _ | .queryWaiting asked, .queryAwaiting _ =>
    [.iq asked.iq]
  | _, _ => []

theorem accepts_self (work : Work) : work.accepts work = [] := by
  cases work <;> rfl

def awaited? : Work → Option FilterId
  | .queryAwaiting asked => some asked.filter
  | _ => none

theorem awaited?_eq_some {work : Work} {id : FilterId} (awaits : work.awaited? = some id) :
    ∃ query, work = .queryAwaiting query ∧ query.filter = id := by
  cases work <;> simp_all [awaited?]

theorem isQuery_of_query? {work : Work} {query : Query} (has : work.query? = some query) :
    work.isQuery = true := by
  cases work <;> simp_all [query?, isQuery]

theorem query?_of_isFresh {work : Work} (fresh : work.isFresh = true) : work.query? = none := by
  cases work <;> first | rfl | cases fresh

end Work

namespace Conversation

variable {c after : Conversation} {n : Nat} {call : Call}

/-- The state of a call: whether it has an outbound sender, and its suspension point. -/
def stands? (c : Conversation) (n : Nat) : Option (Bool × Work) :=
  (c.calls[n]?).map fun call => (call.sender, call.work)

/-- The query of a running call that holds its correlation filter. -/
def query? (c : Conversation) (n : Nat) : Option Query :=
  (c.stands? n).bind fun standing => standing.2.query?

def putting (c : Conversation) (stanza : Stanza) : Conversation :=
  c.setOutbound { c.outflow.outbound with queue := c.outflow.outbound.queue ++ [stanza] }

/-- The polls of a call with their effects. A stanza is put on the outbound channel only with a
receiver and a free slot; a waiting sender has the earlier ones ahead, any other sender has all
waiting ones ahead. -/
inductive WorkStep (c : Conversation) (n : Nat) (sender : Bool) : Work → Conversation → Prop
  | fails {stanza : Stanza} (shut : sender = false ∨ c.outflow.outbound.receiving = false) :
      WorkStep c n sender (.send stanza) (c.setWork n (.done (.failed .closed)))
  | sends {stanza : Stanza} (access : sender = true)
      (reads : c.outflow.outbound.receiving = true)
      (room : c.outflow.outbound.queue.length + c.outflow.outbound.waiting.length <
        c.outflow.outbound.capacity) :
      WorkStep c n sender (.send stanza) ((c.putting stanza).setWork n (.done .sent))
  | sendWaits {stanza : Stanza} (access : sender = true)
      (reads : c.outflow.outbound.receiving = true) :
      WorkStep c n sender (.send stanza)
        ((c.setOutbound (c.outflow.outbound.await n)).setWork n (.sendWaiting stanza))
  | failsLate {stanza : Stanza} (shut : c.outflow.outbound.receiving = false) :
      WorkStep c n sender (.sendWaiting stanza)
        ((c.withdraw n).setWork n (.done (.failed .closed)))
  | sendsLate {stanza : Stanza} (reads : c.outflow.outbound.receiving = true)
      (room : c.outflow.outbound.queue.length + c.outflow.outbound.waiting.idxOf n <
        c.outflow.outbound.capacity) :
      WorkStep c n sender (.sendWaiting stanza)
        (((c.putting stanza).withdraw n).setWork n (.done .sent))
  | registers {iq : Iq} {limit : Option Nat} :
      WorkStep c n sender (.query iq limit) (c.startQuery n iq limit)
  | queues {query : Query} (access : sender = true)
      (reads : c.outflow.outbound.receiving = true)
      (room : c.outflow.outbound.queue.length + c.outflow.outbound.waiting.length <
        c.outflow.outbound.capacity) :
      WorkStep c n sender (.queryOffering query)
        ((c.putting (.iq query.iq)).setWork n (.queryAwaiting query))
  | queryWaits {query : Query} (access : sender = true)
      (reads : c.outflow.outbound.receiving = true) :
      WorkStep c n sender (.queryOffering query)
        ((c.setOutbound (c.outflow.outbound.await n)).setWork n (.queryWaiting query))
  | queuesLate {query : Query} (reads : c.outflow.outbound.receiving = true)
      (room : c.outflow.outbound.queue.length + c.outflow.outbound.waiting.idxOf n <
        c.outflow.outbound.capacity) :
      WorkStep c n sender (.queryWaiting query)
        (((c.putting (.iq query.iq)).withdraw n).setWork n (.queryAwaiting query))
  | refused {work : Work} {query : Query}
      (unsent : work = .queryOffering query ∨ work = .queryWaiting query)
      (shut : sender = false ∨ c.outflow.outbound.receiving = false) :
      WorkStep c n sender work (c.endQuery n query (.done (.failed .closed)))
  | answered {query : Query} {stanza : Stanza} {registry : Registry}
      (read : c.inflow.registry.read query.filter = .taken stanza registry) :
      WorkStep c n sender (.queryAwaiting query)
        ((c.setRegistry registry).endQuery n query (.done (.ofReply (some stanza))))
  | deserted {query : Query} (empty : c.inflow.registry.queueOf query.filter = [])
      (removed : c.inflow.registry.isRemoved query.filter = true) :
      WorkStep c n sender (.queryAwaiting query) (c.endQuery n query (.done (.ofReply none)))
  | finishes : WorkStep c n sender .join (c.finishOwn.setWork n .leaving)
  | leaves : WorkStep c n sender .leaving (c.shutInbound.setWork n .joining)
  | joins (stopped : c.inflow.reader = .closed ∧ c.outflow.writer = .closed) :
      WorkStep c n sender .joining
        ((c.report .application [.joined c.jid]).setWork n (.done .joined))

/-- `WorkStep` is complete: it covers every poll of a call. -/
theorem workStep?_spec {sender : Bool} {work : Work}
    (step : c.workStep? n sender work = some after) : WorkStep c n sender work after := by
  cases work with
  | send stanza =>
    simp only [workStep?] at step
    split at step
    next barred =>
      cases step
      exact .fails (.inl (by simpa using barred))
    next access =>
      split at step
      next outbound put =>
        cases step
        obtain ⟨reads, room, rfl⟩ := Channel.offerBehind_accepted put
        exact .sends (by simpa using access) reads room
      next shut =>
        cases step
        exact .fails (.inr (Channel.offerBehind_refused shut))
      next full =>
        cases step
        exact .sendWaits (by simpa using access) (Channel.offerBehind_full full).1
  | sendWaiting stanza =>
    simp only [workStep?] at step
    split at step
    next outbound put =>
      cases step
      obtain ⟨reads, room, rfl⟩ := Channel.offerAs_accepted put
      exact .sendsLate reads room
    next shut =>
      cases step
      exact .failsLate (Channel.offerAs_refused shut)
    · cases step
  | query iq limit =>
    cases step
    exact .registers
  | queryOffering query =>
    simp only [workStep?] at step
    split at step
    next barred =>
      cases step
      exact .refused (.inl rfl) (.inl (by simpa using barred))
    next access =>
      split at step
      next outbound put =>
        cases step
        obtain ⟨reads, room, rfl⟩ := Channel.offerBehind_accepted put
        exact .queues (by simpa using access) reads room
      next shut =>
        cases step
        exact .refused (.inl rfl) (.inr (Channel.offerBehind_refused shut))
      next full =>
        cases step
        exact .queryWaits (by simpa using access) (Channel.offerBehind_full full).1
  | queryWaiting query =>
    simp only [workStep?] at step
    split at step
    next outbound put =>
      cases step
      obtain ⟨reads, room, rfl⟩ := Channel.offerAs_accepted put
      exact .queuesLate reads room
    next shut =>
      cases step
      exact .refused (.inr rfl) (.inr (Channel.offerAs_refused shut))
    · cases step
  | queryAwaiting query =>
    simp only [workStep?] at step
    split at step
    next stanza registry read =>
      cases step
      exact .answered read
    next read =>
      cases step
      exact .deserted (Registry.read_not_taken (by simp [read])) (Registry.read_ended read)
    · cases step
  | join =>
    cases step
    exact .finishes
  | leaving =>
    cases step
    exact .leaves
  | joining =>
    simp only [workStep?] at step
    split at step
    next stopped =>
      cases step
      exact .joins stopped
    · cases step
  | done | cancelled => cases step

/-- An aborted call is dropped at its next poll. -/
theorem callStep?_spec (step : c.callStep? n = some after) : ∃ call, c.calls[n]? = some call ∧
    ((call.aborted && call.work.isRunning) = true ∧ after = c.abandon n call.work ∨
      (call.aborted && call.work.isRunning) = false ∧
        WorkStep c n call.sender call.work after) := by
  unfold callStep? at step
  split at step
  · cases step
  next call here =>
    refine ⟨call, here, ?_⟩
    split at step
    next given => exact .inl ⟨given, (Option.some.inj step).symm⟩
    next kept => exact .inr ⟨Bool.eq_false_iff.mpr kept, workStep?_spec step⟩

/-- A timer ends a query whose deadline is reached and whose poll is pending. -/
theorem timerStep?_spec (step : c.timerStep? n = some after) : ∃ call query deadline,
    c.calls[n]? = some call ∧
      (call.work = .queryWaiting query ∨ call.work = .queryAwaiting query) ∧
      query.deadline = some deadline ∧ deadline ≤ c.clock ∧ c.callStep? n = none ∧
      after = c.endQuery n query (.done (.failed (.timeout query.iq.id))) := by
  unfold timerStep? at step
  split at step
  next query deadline waiting stuck =>
    split at step
    next late =>
      obtain ⟨call, here, limit⟩ := Option.bind_eq_some_iff.mp waiting
      have has : (call.work = .queryWaiting query ∨ call.work = .queryAwaiting query) ∧
          query.deadline = some deadline := by
        unfold waitingQuery? at limit
        split at limit
        all_goals first | cases limit | skip
        all_goals
          next asked work =>
            obtain ⟨_, limited, pair⟩ := Option.map_eq_some_iff.mp limit
            cases pair
            simp [work, limited]
      exact ⟨call, query, deadline, here, has.1, has.2, late, stuck, (Option.some.inj step).symm⟩
    · cases step
  · cases step

/-- The conditions under which a call other than `send_recv` gets to a suspension point. -/
def Grounds (c : Conversation) (call : Call) : Work → Prop
  | .sendWaiting _ => call.sender = true
  | .done .joined => c.inflow.reader = .closed ∧ c.outflow.writer = .closed
  | _ => True

/-- The turns of a call, by a poll, a timer or a drop: the operation on the inbound half, the
stanzas put on the outbound channel, and the next suspension point. -/
inductive Turn (c : Conversation) (call : Call) : Bool → Touch → List Stanza → Work → Prop
  /-- A call other than `send_recv`. -/
  | plain {givenUp : Bool} {touch : Touch} {put : List Stanza} {work : Work}
      (running : call.work.isRunning = true) (before : call.work.isQuery = false)
      (after : work.isQuery = false ∧ work.isJoin = false)
      (mild : touch = .nothing ∨ touch = .shut) (puts : put = call.work.accepts work)
      (grounds : c.Grounds call work) : Turn c call givenUp touch put work
  | registers {iq : Iq} {limit : Option Nat} (asked : call.work = .query iq limit) :
      Turn c call false (.add (.replyTo iq.id)) []
        (.queryOffering ⟨iq, c.inflow.registry.nextId, limit.map (c.clock + ·)⟩)
  | waits {query : Query} (offering : call.work = .queryOffering query)
      (sends : call.sender = true) : Turn c call false .nothing [] (.queryWaiting query)
  | queues {query : Query}
      (unsent : call.work = .queryOffering query ∨ call.work = .queryWaiting query) :
      Turn c call false .nothing [.iq query.iq] (.queryAwaiting query)
  | refused {query : Query}
      (unsent : call.work = .queryOffering query ∨ call.work = .queryWaiting query)
      (shut : call.sender = false ∨ c.outflow.outbound.receiving = false) :
      Turn c call false (.leave query.filter false) [] (.done (.failed .closed))
  | answered {query : Query} {stanza : Stanza} (awaiting : call.work = .queryAwaiting query)
      (first : (c.inflow.registry.queueOf query.filter).head? = some stanza) :
      Turn c call false (.leave query.filter true) [] (.done (.ofReply (some stanza)))
  | deserted {query : Query} (awaiting : call.work = .queryAwaiting query)
      (empty : c.inflow.registry.queueOf query.filter = [])
      (removed : c.inflow.registry.isRemoved query.filter = true) :
      Turn c call false (.leave query.filter false) [] (.done (.ofReply none))
  | expires {query : Query} (has : call.work.query? = some query) (limited : query.deadline ≠ none)
      (empty : call.work = .queryAwaiting query → c.inflow.registry.queueOf query.filter = []) :
      Turn c call false (.leave query.filter false) [] (.done (.failed (.timeout query.iq.id)))
  | forgets {iq : Iq} {limit : Option Nat} (asked : call.work = .query iq limit) :
      Turn c call true .nothing [] .cancelled
  | abandons {query : Query} (has : call.work.query? = some query) :
      Turn c call true (.leave query.filter false) [] .cancelled

/-- The state after a turn. -/
structure Turned (c : Conversation) (n : Nat) (call : Call) (givenUp : Bool) (touch : Touch)
    (put : List Stanza) (work : Work) (after : Conversation) : Prop where
  turn : Turn c call givenUp touch put work
  calls : after.calls = c.calls.modify n fun call => { call with work }
  inflow : after.inflow = c.inflow.touch touch
  queue : after.outflow.outbound.queue = c.outflow.outbound.queue ++ put

theorem inflow_leaveFilter (id : FilterId) (reads : Bool) :
    (c.leaveFilter id).inflow = c.inflow.touch (.leave id reads) := by
  unfold leaveFilter removeFilter?
  cases removed : c.inflow.registry.remove? id with
  | none => simp [setRegistry, Inflow.touch, Registry.leave, removed]
  | some registry => simp [setRegistry, report, Inflow.touch, Registry.leave, removed]

theorem outflow_leaveFilter (id : FilterId) : (c.leaveFilter id).outflow = c.outflow := by
  unfold leaveFilter removeFilter?
  cases c.inflow.registry.remove? id <;> rfl

theorem calls_leaveFilter (id : FilterId) : (c.leaveFilter id).calls = c.calls := by
  unfold leaveFilter removeFilter?
  cases c.inflow.registry.remove? id <;> rfl

theorem inflow_endQuery (query : Query) (work : Work) (reads : Bool) :
    (c.endQuery n query work).inflow = c.inflow.touch (.leave query.filter reads) :=
  inflow_leaveFilter query.filter reads

theorem calls_endQuery (query : Query) (work : Work) :
    (c.endQuery n query work).calls = c.calls.modify n fun call => { call with work } := by
  change ((c.withdraw n).leaveFilter query.filter).calls.modify n _ = _
  rw [calls_leaveFilter]
  rfl

theorem queue_endQuery (query : Query) (work : Work) :
    (c.endQuery n query work).outflow.outbound.queue = c.outflow.outbound.queue := by
  change ((c.withdraw n).leaveFilter query.filter).outflow.outbound.queue = _
  rw [outflow_leaveFilter]
  rfl

theorem Turned.endQuery {query : Query} {work : Work} {givenUp reads : Bool}
    (turn : Turn c call givenUp (.leave query.filter reads) [] work) :
    Turned c n call givenUp (.leave query.filter reads) [] work (c.endQuery n query work) where
  turn := turn
  calls := calls_endQuery query work
  inflow := inflow_endQuery query work reads
  queue := by rw [queue_endQuery, List.append_nil]

private theorem turned_silent {givenUp : Bool} {touch : Touch} {work : Work}
    (turn : Turn c call givenUp touch [] work)
    (calls : after.calls = c.calls.modify n fun call => { call with work })
    (inflow : after.inflow = c.inflow.touch touch)
    (queue : after.outflow.outbound.queue = c.outflow.outbound.queue) :
    Turned c n call givenUp touch [] work after :=
  ⟨turn, calls, inflow, by simp [queue]⟩

private theorem turn_plain {put : List Stanza} {before : Work} (work : Work)
    (asked : call.work = before)
    (running : before.isRunning = true) (plain : before.isQuery = false)
    (after : work.isQuery = false ∧ work.isJoin = false) (puts : put = before.accepts work)
    (grounds : c.Grounds call work) : Turn c call false .nothing put work :=
  .plain (by rw [asked]; exact running) (by rw [asked]; exact plain) after (.inl rfl)
    (by rw [asked]; exact puts) grounds

/-- Every poll of a call is a turn. -/
theorem WorkStep.turned (step : WorkStep c n call.sender call.work after) :
    ∃ touch put work, Turned c n call false touch put work after := by
  generalize asked : call.work = before at step
  cases step with
  | fails | failsLate =>
    have turn := turn_plain (c := c) (.done (.failed .closed)) asked rfl rfl ⟨rfl, rfl⟩ rfl trivial
    exact ⟨_, _, _, turned_silent turn rfl rfl rfl⟩
  | sends | sendsLate =>
    have turn := turn_plain (c := c) (.done .sent) asked rfl rfl ⟨rfl, rfl⟩ rfl trivial
    exact ⟨.nothing, _, _, turn, rfl, rfl, rfl⟩
  | @sendWaits stanza access reads =>
    have turn := turn_plain (c := c) (.sendWaiting stanza) asked rfl rfl ⟨rfl, rfl⟩ rfl access
    exact ⟨_, _, _, turned_silent turn rfl rfl rfl⟩
  | registers => exact ⟨_, _, _, turned_silent (.registers asked) rfl rfl rfl⟩
  | queues => exact ⟨.nothing, _, _, .queues (.inl asked), rfl, rfl, rfl⟩
  | queuesLate => exact ⟨.nothing, _, _, .queues (.inr asked), rfl, rfl, rfl⟩
  | queryWaits access => exact ⟨_, _, _, turned_silent (.waits asked access) rfl rfl rfl⟩
  | refused unsent shut => exact ⟨_, [], _, .endQuery (.refused (asked ▸ unsent) shut)⟩
  | @answered query stanza registry read =>
    obtain ⟨first, rfl⟩ := Registry.read_taken read
    refine ⟨_, [], _, .answered asked first, calls_endQuery query _, ?_, ?_⟩
    · rw [inflow_endQuery query _ true]
      simp only [Inflow.touch, setRegistry, Registry.leave_tail]
    · rw [queue_endQuery, List.append_nil]
      rfl
  | deserted empty removed => exact ⟨_, [], _, .endQuery (.deserted asked empty removed)⟩
  | finishes =>
    have turn : Turn c call false .nothing [] .leaving :=
      turn_plain .leaving asked rfl rfl ⟨rfl, rfl⟩ rfl trivial
    unfold finishOwn
    split <;> exact ⟨_, _, _, turned_silent turn rfl rfl rfl⟩
  | leaves =>
    have turn : Turn c call false .shut [] .joining :=
      .plain (by simp [asked, Work.isRunning]) (by simp [asked, Work.isQuery]) ⟨rfl, rfl⟩ (.inr rfl)
        (by simp [asked, Work.accepts]) trivial
    exact ⟨_, _, _, turned_silent turn rfl rfl rfl⟩
  | joins stopped =>
    have turn := turn_plain (.done .joined) asked rfl rfl ⟨rfl, rfl⟩ rfl stopped
    exact ⟨_, _, _, turned_silent turn rfl rfl rfl⟩

theorem abandon_of_ended {work : Work} (ended : work.isRunning = false) :
    c.abandon n work = c := by
  cases work <;> first | rfl | cases ended

/-- A call that is dropped puts nothing and takes nothing back. -/
theorem abandon_turned (running : call.work.isRunning = true) :
    ∃ touch, Turned c n call true touch [] .cancelled (c.abandon n call.work) := by
  have plain : ∀ touch, call.work.isQuery = false → touch = .nothing ∨ touch = .shut →
      Turn c call true touch [] .cancelled := by
    intro touch before mild
    have puts : [] = call.work.accepts .cancelled := by cases call.work <;> rfl
    exact .plain running before ⟨rfl, rfl⟩ mild puts trivial
  cases asked : call.work with
  | send stanza | sendWaiting stanza | joining =>
    exact ⟨_, turned_silent (plain _ (by simp [asked, Work.isQuery]) (.inl rfl)) rfl rfl rfl⟩
  | leaving | join =>
    exact ⟨_, turned_silent (plain _ (by simp [asked, Work.isQuery]) (.inr rfl)) rfl rfl rfl⟩
  | query iq limit => exact ⟨_, turned_silent (.forgets asked) rfl rfl rfl⟩
  | queryOffering query | queryWaiting query | queryAwaiting query =>
    exact ⟨_, .endQuery (.abandons (by simp [asked, Work.query?]))⟩
  | done outcome => simp [asked, Work.isRunning] at running
  | cancelled => simp [asked, Work.isRunning] at running

theorem callStep?_turned (step : c.callStep? n = some after) :
    ∃ call touch put work, c.calls[n]? = some call ∧
      Turned c n call (call.aborted && call.work.isRunning) touch put work after := by
  obtain ⟨call, here, ⟨given, rfl⟩ | ⟨kept, further⟩⟩ := callStep?_spec step
  · obtain ⟨touch, turned⟩ := abandon_turned (c := c) (n := n) (Bool.and_eq_true_iff.mp given).2
    exact ⟨call, touch, [], _, here, by rw [given]; exact turned⟩
  · obtain ⟨touch, put, work, turned⟩ := further.turned
    exact ⟨call, touch, put, work, here, by rw [kept]; exact turned⟩

/-- A query that is pending on its correlation filter finds it empty. -/
theorem queueOf_of_stuck {id : FilterId} (stuck : c.callStep? n = none)
    (here : c.calls[n]? = some call) (awaiting : call.work.awaited? = some id) :
    c.inflow.registry.queueOf id = [] := by
  obtain ⟨query, asked, rfl⟩ := Work.awaited?_eq_some awaiting
  apply Registry.read_not_taken
  intro stanza registry read
  simp only [callStep?, here, asked, workStep?, read] at stuck
  split at stuck <;> cases stuck

/-- A timer that fires is a turn. -/
theorem timerStep?_turned (step : c.timerStep? n = some after) :
    ∃ call query work, c.calls[n]? = some call ∧
      Turned c n call false (.leave query false) [] work after := by
  obtain ⟨call, query, deadline, here, waits, limited, -, stuck, rfl⟩ := timerStep?_spec step
  have has : call.work.query? = some query := by
    rcases waits with asked | asked <;> simp [asked, Work.query?]
  have empty : call.work = .queryAwaiting query →
      c.inflow.registry.queueOf query.filter = [] :=
    fun awaiting => queueOf_of_stuck stuck here (by simp [awaiting, Work.awaited?])
  exact ⟨call, query.filter, _, here, .endQuery (.expires has (by simp [limited]) empty)⟩

/-- A running query that puts a stanza on the outbound channel awaits its reply afterwards. -/
theorem Turn.awaits {givenUp : Bool} {touch : Touch} {stanza : Stanza} {work : Work} {query : Query}
    (turn : Turn c call givenUp touch [stanza] work) (runs : call.work.query? = some query) :
    work = .queryAwaiting query := by
  cases turn with
  | plain running before after mild =>
    rw [Work.isQuery_of_query? runs] at before
    cases before
  | queues unsent =>
    rcases unsent with asked | asked <;>
    · rw [asked] at runs
      rw [Option.some.inj runs]

/-- A turn puts on the outbound channel what the change of state tells. -/
theorem Turn.accepts {givenUp : Bool} {touch : Touch} {put : List Stanza} {work : Work}
    (turn : Turn c call givenUp touch put work) : put = call.work.accepts work := by
  cases turn with
  | plain running before after mild puts => exact puts
  | registers asked | waits asked | answered asked | deserted asked | forgets asked =>
    rw [asked]
    rfl
  | queues unsent | refused unsent =>
    rcases unsent with asked | asked <;>
    · rw [asked]
      rfl
  | expires | abandons => cases call.work <;> rfl

theorem Turn.running {givenUp : Bool} {touch : Touch} {put : List Stanza} {work : Work}
    (turn : Turn c call givenUp touch put work) : call.work.isRunning = true := by
  cases turn with
  | plain running before after mild => exact running
  | registers asked | waits asked | answered asked | deserted asked | forgets asked =>
    simp [asked, Work.isRunning]
  | queues unsent | refused unsent =>
    rcases unsent with asked | asked <;> simp [asked, Work.isRunning]
  | expires has | abandons has =>
    cases asked : call.work <;> simp_all [Work.query?, Work.isRunning]

/-- A turn takes from a filter channel only the reply of a query, its oldest stanza. -/
theorem Turn.returned {touch : Touch} {put : List Stanza} {work : Work} (id : FilterId)
    (turn : Turn c call false touch put work) :
    touch.returned c.inflow id =
      if call.work.awaited? = some id then (c.inflow.registry.queueOf id).head?.toList else [] := by
  have unread : ∀ {work : Work}, work.isQuery = false → work.awaited? = none := by
    intro work plain
    cases work <;> simp_all [Work.isQuery, Work.awaited?]
  cases turn with
  | plain running before after mild =>
    rcases mild with rfl | rfl <;> simp [Touch.returned, unread before]
  | registers asked | waits asked => simp [Touch.returned, asked, Work.awaited?]
  | queues unsent | refused unsent shut =>
    rcases unsent with asked | asked <;> simp [Touch.returned, asked, Work.awaited?]
  | answered awaiting first =>
    simp only [Touch.returned, awaiting, Work.awaited?, Option.some.injEq, eq_comm]
  | deserted awaiting empty removed =>
    simp only [Touch.returned, awaiting, Work.awaited?, Option.some.injEq]
    split
    next same => simp [← same, empty]
    · rfl
  | @expires query has limited empty =>
    simp only [Touch.returned]
    split
    next awaiting =>
      obtain ⟨asked, work, rfl⟩ := Work.awaited?_eq_some awaiting
      have same : asked = query := by simpa [work, Work.query?] using has
      simp [same, empty (same ▸ work)]
    · rfl

theorem Turn.silent_of_givenUp {touch : Touch} {put : List Stanza} {work : Work}
    (turn : Turn c call true touch put work) : touch.isSilent = true := by
  cases turn with
  | plain running before after mild => rcases mild with rfl | rfl <;> rfl
  | forgets asked => rfl
  | abandons has => rfl

/-- Calls neither feed nor receive from the inbound channel, and remove no filter but their own. -/
theorem Turn.keeps {givenUp : Bool} {touch : Touch} {put : List Stanza} {work : Work}
    (turn : Turn c call givenUp touch put work) :
    touch.fed = [] ∧ touch.received c.inflow = [] ∧ touch.isRemoval = false := by
  cases turn with
  | plain running before after mild => rcases mild with rfl | rfl <;> exact ⟨rfl, rfl, rfl⟩
  | _ => exact ⟨rfl, rfl, rfl⟩

end Conversation

end StanzaExchange
