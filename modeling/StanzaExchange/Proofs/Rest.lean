import StanzaExchange.Conversation.Settle
import StanzaExchange.Proofs.OutboundOrder
import StanzaExchange.Proofs.Queries

/-!
States at rest: no task, no call and no timer can make a step (`AtRest`). `Stuck` lists what a
pending call can wait for in such a state; with the in-process transport a slot of the outbound
channel is not among it, since the sender task drains the channel. That no caller blocks for ever on
a conversation that has ended is the concern of the last note in section 9 of the specification.
-/
namespace StanzaExchange

open Outflow (Touch)

namespace Conversation

variable {c : Conversation} {n : Nat} {call : Call}

/-- What a pending call waits for. -/
inductive Stuck (c : Conversation) (n : Nat) : Work → Prop
  /-- For a slot of the outbound channel. -/
  | room {work : Work} (waits : work.isWaiting = true)
      (reads : c.outflow.outbound.receiving = true)
      (full : c.outflow.outbound.capacity ≤
        c.outflow.outbound.queue.length + c.outflow.outbound.waiting.idxOf n) : Stuck c n work
  /-- For the reply to a query. -/
  | reply {query : Query} (empty : c.inflow.registry.queueOf query.filter = [])
      (kept : c.inflow.registry.isRemoved query.filter = false) : Stuck c n (.queryAwaiting query)
  /-- For the end of both tasks. -/
  | tasks (goOn : c.inflow.reader ≠ .closed ∨ c.outflow.writer ≠ .closed) : Stuck c n .joining

/-- A pending call without a step is stuck and not aborted. -/
theorem callStep?_eq_none (waits : c.callStep? n = none) (here : c.calls[n]? = some call)
    (running : call.work.isRunning = true) : call.aborted = false ∧ c.Stuck n call.work := by
  simp only [callStep?, here] at waits
  split at waits
  · cases waits
  next kept =>
    refine ⟨by simpa [running] using kept, ?_⟩
    cases asked : call.work with
    | sendWaiting stanza =>
      simp only [asked, workStep?] at waits
      split at waits
      · cases waits
      · cases waits
      next crowded =>
        obtain ⟨reads, full⟩ := Channel.offerAs_full crowded
        exact .room rfl reads full
    | queryWaiting query =>
      simp only [asked, workStep?] at waits
      split at waits
      · cases waits
      · cases waits
      next crowded =>
        obtain ⟨reads, full⟩ := Channel.offerAs_full crowded
        exact .room rfl reads full
    | queryAwaiting query =>
      simp only [asked, workStep?] at waits
      split at waits
      · cases waits
      · cases waits
      next read =>
        obtain ⟨empty, active⟩ := Registry.read_empty read
        exact .reply empty active
    | joining =>
      simp only [asked, workStep?] at waits
      split at waits
      · cases waits
      next goOn => exact .tasks (Decidable.not_and_iff_not_or_not.mp goOn)
    | send | queryOffering =>
      simp only [asked, workStep?] at waits
      split at waits
      · cases waits
      · split at waits <;> cases waits
    | query | join | leaving => simp [asked, workStep?] at waits
    | done | cancelled => simp [asked, Work.isRunning] at running

/-- The agents that can make a step are the tasks, the calls, and their timers. -/
theorem atRest_iff : c.AtRest ↔ c.canStep .writer = false ∧ c.canStep .reader = false ∧
    ∀ n ∈ c.callNumbers, c.canStep (.call n) = false ∧ c.canStep (.timer n) = false := by
  have waits : ∀ agent, c.canStep agent = false ↔ c.step? agent = none := fun agent =>
    Option.isSome_eq_false_iff.trans Option.isNone_iff_eq_none
  simp only [waits]
  refine ⟨fun rest => ⟨rest .writer, rest .reader, fun n _ => ⟨rest _, rest _⟩⟩, ?_⟩
  rintro ⟨writer, reader, calls⟩ agent
  have beyond : ∀ n, n ∉ c.callNumbers → c.calls[n]? = none := by
    intro n absent
    exact List.getElem?_eq_none (Nat.le_of_not_lt fun known => absent (List.mem_range.mpr known))
  cases agent with
  | writer => exact writer
  | reader => exact reader
  | call n =>
    by_cases known : n ∈ c.callNumbers
    · exact (calls n known).1
    · simp [step?, callStep?, beyond n known]
  | timer n =>
    by_cases known : n ∈ c.callNumbers
    · exact (calls n known).2
    · simp [step?, timerStep?, beyond n known]

instance (c : Conversation) : Decidable c.AtRest := decidable_of_iff _ atRest_iff.symm

/-- The invariant of the waiters of the outbound channel: exactly the calls that wait for a slot,
each once. -/
structure Queueing (c : Conversation) : Prop where
  distinct : c.outflow.outbound.waiting.Nodup
  mem_iff : ∀ n, n ∈ c.outflow.outbound.waiting ↔ c.waits n = true

/-- The waiters after an update of the outbound half. -/
theorem Queueing.row (queueing : c.Queueing) (faults : Faults) (touch : Touch)
    (fresh : ∀ n, touch = .await n → c.waits n = false) :
    let row := (c.outflow.touch faults touch).outbound.waiting
    row.Nodup ∧ ∀ n, n ∈ row ↔ touch.row c.waits n = true := by
  cases touch with
  | await ticket =>
    have apart : ∀ n ∈ c.outflow.outbound.waiting, ∀ m ∈ [ticket], n ≠ m := by
      rintro n member m new rfl
      rw [List.mem_singleton.mp new, queueing.mem_iff, fresh ticket rfl] at member
      cases member
    have alone : [ticket].Nodup := List.pairwise_singleton _ _
    refine ⟨List.nodup_append.mpr ⟨queueing.distinct, alone, apart⟩, fun n => ?_⟩
    simp [Outflow.touch, Channel.await, Touch.row, queueing.mem_iff, or_comm]
  | redeem ticket stanza | withdraw ticket =>
    refine ⟨queueing.distinct.erase ticket, fun n => ?_⟩
    simp [Outflow.touch, Channel.withdraw, Touch.row, queueing.distinct.mem_erase_iff,
      queueing.mem_iff]
  | close origin =>
    simp only [Outflow.touch, Outflow.outbound_close]
    exact ⟨queueing.distinct, queueing.mem_iff⟩
  | _ => exact ⟨queueing.distinct, queueing.mem_iff⟩

/-- `Queueing` is preserved by every move. -/
theorem Queueing.move (queueing : c.Queueing) (move : Move) : (c.move move).Queueing := by
  rcases Moment.stirs_or_writes ⟨c, move⟩ with ⟨touch, stirs⟩ | ⟨events, writes⟩
  · have outflow : (c.move move).outflow = _ := stirs.stirred.outflow
    obtain ⟨distinct, mem_iff⟩ := queueing.row c.faults touch stirs.stirred.fresh
    rw [← outflow] at distinct mem_iff
    exact ⟨distinct, fun n => (mem_iff n).trans (by rw [← stirs.stirred.row n]; rfl)⟩
  · have row : (c.move move).outflow.outbound.waiting = _ := writes.advance.waiting
    have same : ∀ n, (c.move move).waits n = c.waits n := writes.row
    refine ⟨by rw [row]; exact queueing.distinct, fun n => ?_⟩
    rw [row, same]
    exact queueing.mem_iff n

end Conversation

namespace Course

theorem queueing (k : Course) : k.now.Queueing :=
  k.induction (P := fun _ now => now.Queueing)
    ⟨List.nodup_nil, fun n => by simp [origin, Conversation.start, Channel.ofCapacity,
      Conversation.waits, Conversation.stands?]⟩
    fun _ move queueing => queueing.move move

variable {k : Course}

/-- The state of the sender task at rest. -/
theorem writer_at_rest (rest : k.now.AtRest) (flowing : k.now.outflow.stalled = false) :
    k.now.outflow.writer = .closed ∨ k.now.outflow.writer = .taking ∧
      k.now.outflow.terminated = false ∧ k.now.outflow.outbound.queue = [] := by
  have waits : k.now.outflow.step? k.now.faults k.now.trace k.now.producing = none :=
    Option.map_eq_none_iff.mp (rest .writer)
  cases Outflow.step?_eq_none waits with
  | finished closed => exact .inl closed
  | unasked idle goes empty more => exact .inr ⟨idle, goes, empty⟩
  | held busy stalls => cases flowing.symm.trans stalls

/-- No call waits for a slot at rest: the first waiter could take one. -/
theorem nobody_waits (rest : k.now.AtRest) (flowing : k.now.outflow.stalled = false) :
    k.now.outflow.outbound.waiting = [] := by
  cases row : k.now.outflow.outbound.waiting with
  | nil => rfl
  | cons n others =>
    exfalso
    have waits : k.now.waits n = true := (k.queueing.mem_iff n).mp (by simp [row])
    obtain ⟨standing, stands, waiting⟩ := (Option.any_eq_true _ _).mp waits
    obtain ⟨call, here, rfl⟩ := Option.map_eq_some_iff.mp stands
    have running := Work.isRunning_of_isWaiting waiting
    have stuck := (Conversation.callStep?_eq_none (rest (.call n)) here running).2
    generalize call.work = work at stuck waiting
    cases stuck with
    | room waits reads full =>
      -- it is the first waiter, and the queue of a channel with a receiver is empty
      obtain ⟨-, -, empty⟩ := (writer_at_rest rest flowing).resolve_left (k.sound.goes reads)
      have room := k.sound.room
      simp only [row, empty, List.length_nil, List.idxOf_cons_self] at full
      omega
    | reply | tasks => cases waiting

/-- At rest a query waits for a reply that can still come, and `join` for a task that goes on. -/
theorem stuck_at_rest (rest : k.now.AtRest) (flowing : k.now.outflow.stalled = false) {n : Nat}
    {sender : Bool} {work : Work} (stands : k.now.stands? n = some (sender, work))
    (running : work.isRunning = true) :
    (∃ query, work = .queryAwaiting query ∧ query.filter ∈ k.now.inflow.registry.active ∧
      k.now.inflow.registry.queueOf query.filter = [] ∧ k.now.inflow.reader ≠ .closed) ∨
    (work = .joining ∧
      (k.now.inflow.reader ≠ .closed ∨ k.now.outflow.writer ≠ .closed)) := by
  obtain ⟨call, here, same⟩ := Option.map_eq_some_iff.mp stands
  obtain ⟨rfl, rfl⟩ : call.sender = sender ∧ call.work = work := by simpa using same
  have stuck := (Conversation.callStep?_eq_none (rest (.call n)) here running).2
  have waiting := Conversation.waits_eq here
  generalize call.work = work at stuck waiting
  cases stuck with
  | room waits reads full =>
    have member := (k.queueing.mem_iff n).mpr (waiting.trans waits)
    rw [nobody_waits rest flowing] at member
    cases member
  | @reply query empty kept =>
    have active := (k.wellFormed.active_iff query.filter).mpr kept
    refine .inl ⟨query, rfl, active, empty, fun closed => ?_⟩
    rw [k.wellFormed.closed (k.closed_iff.mpr closed)] at active
    cases active
  | tasks goOn => exact .inr ⟨rfl, goOn⟩

end Course

namespace Conversation

variable {c : Conversation} {id : FilterId}

/-- `recv` on a filter is pending only while its queue is empty and the filter active. -/
theorem of_receiveFrom_pending (waits : (c.act (.receiveFrom id)).1 = .pending) :
    c.inflow.registry.queueOf id = [] ∧ c.inflow.registry.isRemoved id = false := by
  simp only [act, ofReceiver] at waits
  split at waits
  · unfold receiveFrom at waits
    cases read : c.inflow.registry.read id with
    | empty => exact Registry.read_empty read
    | taken | ended => simp [read, Finding.map, found] at waits
  · cases waits

/-- `recv` on the inbound channel is pending only while it is empty and the receiver task goes on.
-/
theorem of_receive_pending (waits : (c.act .receive).1 = .pending) :
    c.inflow.inbound.queue = [] ∧ c.inflow.reader ≠ .closed := by
  rw [answer_receive] at waits
  split at waits
  · split at waits
    · cases waits
    next empty =>
      split at waits
      · cases waits
      next goesOn => exact ⟨empty, goesOn⟩
  · cases waits

end Conversation

namespace Course

/-- No call is stranded. At rest with the in-process transport no call waits for a slot, a pending
query has an active filter with an empty queue, and `recv` and `join` wait for a task that goes on;
once the receiver task has ended no call is pending. -/
theorem no_call_stranded (k : Course) (rest : k.now.AtRest)
    (flowing : k.now.outflow.stalled = false) :
    (∀ n sender work, k.now.stands? n = some (sender, work) → work.isRunning = true →
      (∃ query, work = .queryAwaiting query ∧ query.filter ∈ k.now.inflow.registry.active ∧
        k.now.inflow.registry.queueOf query.filter = [] ∧ k.now.inflow.reader ≠ .closed) ∨
      (work = .joining ∧
        (k.now.inflow.reader ≠ .closed ∨ k.now.outflow.writer ≠ .closed))) ∧
    (∀ id, (k.now.act (.receiveFrom id)).1 = .pending →
      id ∈ k.now.inflow.registry.active ∧ k.now.inflow.registry.queueOf id = []) ∧
    ((k.now.act .receive).1 = .pending →
      k.now.inflow.inbound.queue = [] ∧ k.now.inflow.reader ≠ .closed) ∧
    (k.now.inflow.reader = .closed →
      (∀ n sender work, k.now.stands? n = some (sender, work) → work.isRunning = false) ∧
      (∀ id, (k.now.act (.receiveFrom id)).1 ≠ .pending) ∧
      (k.now.act .receive).1 ≠ .pending) := by
  have filters : ∀ id, (k.now.act (.receiveFrom id)).1 = .pending →
      id ∈ k.now.inflow.registry.active ∧ k.now.inflow.registry.queueOf id = [] := by
    intro id waits
    obtain ⟨empty, kept⟩ := Conversation.of_receiveFrom_pending waits
    exact ⟨(k.wellFormed.active_iff id).mpr kept, empty⟩
  refine ⟨fun n sender work => stuck_at_rest rest flowing, filters,
    Conversation.of_receive_pending, fun ended => ⟨fun n sender work stands => ?_,
    fun id waits => ?_, fun waits => (Conversation.of_receive_pending waits).2 ended⟩⟩
  · have closed := k.closed_iff.mpr ended
    have stopped : k.now.outflow.writer = .closed := by
      have terminated := k.terminated_of_closed closed
      exact (writer_at_rest rest flowing).resolve_right fun busy =>
        Bool.false_ne_true (busy.2.1.symm.trans terminated)
    refine Bool.eq_false_iff.mpr fun running => ?_
    rcases stuck_at_rest rest flowing stands running with ⟨query, -, -, -, goes⟩ | ⟨-, goes⟩
    · exact goes ended
    · exact goes.elim (· ended) (· stopped)
  · have active := (filters id waits).1
    rw [k.wellFormed.closed (k.closed_iff.mpr ended)] at active
    cases active

/-- A query is sent, and the application joins the conversation. -/
def waiting : Course where
  jid := ⟨none, "example", none⟩
  settings := {}
  moves :=
    [.outside (.query .own (.get "first" (.named "ping")) none), .step (.call 0), .step (.call 0),
      .step .writer, .step .writer, .outside .join, .step (.call 1), .step (.call 1)]

/-- Then the peer hangs up. -/
def hungUp : Course := waiting.andThen
  [.outside .hangUp, .step .reader, .step .reader, .step .reader, .step .writer, .step (.call 0),
    .step (.call 1)]

theorem no_call_stranded_waiting :
    waiting.now.AtRest ∧
      waiting.now.stands? 0 =
        some (true, .queryAwaiting ⟨.get "first" (.named "ping"), 0, none⟩) ∧
      waiting.now.stands? 1 = some (false, .joining) ∧
      0 ∈ waiting.now.inflow.registry.active ∧ waiting.now.inflow.reader ≠ .closed ∧
      hungUp.now.AtRest ∧
      (∀ n sender work, hungUp.now.stands? n = some (sender, work) → work.isRunning = false) ∧
      hungUp.now.stands? 0 = some (true, .done (.failed .closed)) := by
  have rests : waiting.now.AtRest := by decide +kernel
  have ended : hungUp.now.AtRest := by decide +kernel
  have asked : waiting.now.stands? 0 =
      some (true, .queryAwaiting ⟨.get "first" (.named "ping"), 0, none⟩) := by decide +kernel
  obtain ⟨calls, -⟩ := waiting.no_call_stranded rests (by decide +kernel)
  obtain ⟨-, -, -, none⟩ := hungUp.no_call_stranded ended (by decide +kernel)
  rcases calls 0 true _ asked rfl with ⟨query, same, active, -, goes⟩ | ⟨other, -⟩
  · cases same
    exact ⟨rests, asked, by decide +kernel, active, goes, ended, (none (by decide +kernel)).1,
      by decide +kernel⟩
  · cases other

end Course

end StanzaExchange
