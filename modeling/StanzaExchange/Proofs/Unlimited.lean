import StanzaExchange.Proofs.Run

/-!
Erasure of the time limit of one call. Only the timer of the call reads its limit, so erasing it
commutes with every move other than a step of that timer (`move_unlimited`).
-/
namespace StanzaExchange

/-- Erases the limit, unless it is to be kept. -/
def Query.limitedIf (keeps : Bool) (query : Query) : Query :=
  { query with deadline := if keeps then query.deadline else none }

def Work.limitedIf (keeps : Bool) : Work → Work
  | .query iq limit => .query iq (if keeps then limit else none)
  | .queryOffering asked => .queryOffering (asked.limitedIf keeps)
  | .queryWaiting asked => .queryWaiting (asked.limitedIf keeps)
  | .queryAwaiting asked => .queryAwaiting (asked.limitedIf keeps)
  | work => work

def Call.limitedIf (keeps : Bool) (call : Call) : Call :=
  { call with work := call.work.limitedIf keeps }

theorem Query.limitedIf_true (query : Query) : query.limitedIf true = query := by
  simp [limitedIf]

theorem Work.limitedIf_true (work : Work) : work.limitedIf true = work := by
  cases work <;> simp [limitedIf, Query.limitedIf_true]

theorem Call.limitedIf_true (call : Call) : call.limitedIf true = call := by
  simp [limitedIf, Work.limitedIf_true]

@[simp] theorem Work.isRunning_limitedIf (keeps : Bool) (work : Work) :
    (work.limitedIf keeps).isRunning = work.isRunning := by
  cases work <;> rfl

@[simp] theorem Work.query?_limitedIf (keeps : Bool) (work : Work) :
    (work.limitedIf keeps).query? = work.query?.map (Query.limitedIf keeps) := by
  cases work <;> rfl

theorem Work.limitedIf_eq_done_iff {keeps : Bool} {work : Work} {outcome : Outcome} :
    work.limitedIf keeps = .done outcome ↔ work = .done outcome := by
  cases work <;> simp [limitedIf]

namespace Conversation

variable {c : Conversation} {n k : Nat}

/-- The state with the limit of one call erased. -/
def unlimited (c : Conversation) (n : Nat) : Conversation :=
  { c with calls := c.calls.mapIdx fun k call => call.limitedIf (k != n) }

theorem getElem?_calls_unlimited (c : Conversation) (n k : Nat) :
    (c.unlimited n).calls[k]? = (c.calls[k]?).map (Call.limitedIf (k != n)) := by
  simp [unlimited, List.getElem?_mapIdx]

@[simp] theorem length_calls_unlimited : (c.unlimited n).calls.length = c.calls.length := by
  simp [unlimited]

/-- Erasing the limit of a call that does not exist changes nothing. -/
theorem unlimited_of_length_le (beyond : c.calls.length ≤ n) : c.unlimited n = c := by
  have calls : (c.unlimited n).calls = c.calls := by
    apply List.ext_getElem?
    intro k
    rw [getElem?_calls_unlimited]
    cases here : c.calls[k]? with
    | none => rfl
    | some call =>
      have below : k < c.calls.length := (List.getElem?_eq_some_iff.mp here).1
      have other : (k != n) = true := by simp; omega
      simp [other, Call.limitedIf_true]
  have same : c.unlimited n = { c with calls := (c.unlimited n).calls } := rfl
  rw [same, calls]

/-- Tests of calls that do not read the limit. -/
theorem any_calls_unlimited {p : Call → Bool}
    (blind : ∀ keeps (call : Call), p (call.limitedIf keeps) = p call) :
    (c.unlimited n).calls.any p = c.calls.any p := by
  have told : (c.unlimited n).calls.map p = c.calls.map p := by
    apply List.ext_getElem?
    intro k
    simp [getElem?_calls_unlimited, Function.comp_def, blind]
  have any : ∀ calls : List Call, calls.any p = (calls.map p).any id := fun calls => by
    simp [List.any_map]
  rw [any, told, ← any]

@[simp] theorem producing_unlimited : (c.unlimited n).producing = c.producing := by
  have calls := c.any_calls_unlimited (n := n) (p := fun call => call.work.isRunning && call.sender)
    fun keeps call => by simp [Call.limitedIf]
  rw [producing, producing, calls]
  rfl

@[simp] theorem linked_unlimited : (c.unlimited n).linked = c.linked := by
  have calls := c.any_calls_unlimited (n := n) (p := fun call => call.work.isRunning)
    fun keeps call => by simp [Call.limitedIf]
  rw [linked, linked, calls]
  rfl

@[simp] theorem isQueryFilter_unlimited (id : FilterId) :
    (c.unlimited n).isQueryFilter id = c.isQueryFilter id := by
  refine any_calls_unlimited fun keeps call => ?_
  cases asked : call.work.query? <;> simp [Call.limitedIf, asked, Query.limitedIf]

@[simp] theorem inflow_unlimited : (c.unlimited n).inflow = c.inflow := rfl

@[simp] theorem outflow_unlimited : (c.unlimited n).outflow = c.outflow := rfl

@[simp] theorem unlimited_setWork (work : Work) :
    (c.setWork k work).unlimited n = (c.unlimited n).setWork k (work.limitedIf (k != n)) := by
  have calls : ((c.setWork k work).unlimited n).calls =
      ((c.unlimited n).setWork k (work.limitedIf (k != n))).calls := by
    apply List.ext_getElem?
    intro j
    simp only [getElem?_calls_unlimited, setWork, List.getElem?_modify]
    by_cases same : k = j
    · subst same
      simp [Function.comp_def, Call.limitedIf]
    · simp [same]
  have rest : (c.setWork k work).unlimited n =
      { c with calls := ((c.setWork k work).unlimited n).calls } := rfl
  rw [rest, calls]
  rfl

theorem unlimited_abort :
    { c with calls := c.calls.modify k fun call => { call with aborted := true } }.unlimited n =
      { c.unlimited n with
        calls := (c.unlimited n).calls.modify k fun call => { call with aborted := true } } := by
  have calls : (c.calls.modify k fun call => { call with aborted := true }).mapIdx
      (fun k call => call.limitedIf (k != n)) =
        (c.unlimited n).calls.modify k fun call => { call with aborted := true } := by
    apply List.ext_getElem?
    intro j
    simp only [List.getElem?_mapIdx, List.getElem?_modify, getElem?_calls_unlimited]
    by_cases same : k = j
    · simp [same, Function.comp_def, Call.limitedIf]
    · simp [same]
  rw [unlimited, calls]
  rfl

theorem unlimited_removeFilter? (id : FilterId) :
    (c.unlimited n).removeFilter? id = (c.removeFilter? id).map (·.unlimited n) := by
  rw [removeFilter?, removeFilter?, Option.map_map]
  rfl

theorem unlimited_leaveFilter (id : FilterId) :
    (c.leaveFilter id).unlimited n = (c.unlimited n).leaveFilter id := by
  rw [leaveFilter, leaveFilter, unlimited_removeFilter?, Option.getD_map]
  rfl

@[simp] theorem unlimited_endQuery (query : Query) (work : Work) :
    (c.endQuery k query work).unlimited n =
      (c.unlimited n).endQuery k (query.limitedIf (k != n)) (work.limitedIf (k != n)) := by
  rw [endQuery, unlimited_setWork, unlimited_leaveFilter]
  rfl

@[simp] theorem unlimited_startQuery (iq : Iq) (limit : Option Nat) :
    (c.startQuery k iq limit).unlimited n =
      (c.unlimited n).startQuery k iq (if k != n then limit else none) := by
  rw [startQuery, unlimited_setWork]
  cases keeps : k != n <;> rfl

@[simp] theorem unlimited_finishOwn : c.finishOwn.unlimited n = (c.unlimited n).finishOwn := by
  unfold finishOwn
  cases sends : c.ownSender <;> simp [unlimited, sends]
  rfl

theorem unlimited_abandon (work : Work) :
    (c.abandon k work).unlimited n = (c.unlimited n).abandon k (work.limitedIf (k != n)) := by
  cases work with
  | send | query | joining | leaving | sendWaiting | join => exact unlimited_setWork .cancelled
  | queryOffering query | queryWaiting query | queryAwaiting query =>
    exact unlimited_endQuery query .cancelled
  | done | cancelled => rfl

/-- Polls of calls do not read limits. The cases follow the suspension points. -/
theorem unlimited_workStep? (sender : Bool) (work : Work) :
    (c.unlimited n).workStep? k sender (work.limitedIf (k != n)) =
      (c.workStep? k sender work).map (·.unlimited n) := by
  cases work with
  | send stanza =>
    cases sender with
    | false => simp [workStep?, Work.limitedIf]
    | true =>
      cases offer : c.outflow.outbound.offer stanza <;>
        simp [workStep?, Work.limitedIf, offer] <;> rfl
  | sendWaiting stanza =>
    cases offer : c.outflow.outbound.offerAs k stanza <;>
      simp [workStep?, Work.limitedIf, offer] <;> rfl
  | query iq limit => simp [workStep?, Work.limitedIf]
  | queryOffering query =>
    have iq : (query.limitedIf (k != n)).iq = query.iq := rfl
    cases sender with
    | false => simp [workStep?, Work.limitedIf]
    | true =>
      cases offer : c.outflow.outbound.offer (.iq query.iq) <;>
        simp [workStep?, Work.limitedIf, iq, offer] <;> rfl
  | queryWaiting query =>
    have iq : (query.limitedIf (k != n)).iq = query.iq := rfl
    cases offer : c.outflow.outbound.offerAs k (.iq query.iq) with
    | accepted =>
      simp [workStep?, Work.limitedIf, iq, offer]
      rfl
    | full | refused => simp [workStep?, Work.limitedIf, iq, offer]
  | queryAwaiting query =>
    have filter : (query.limitedIf (k != n)).filter = query.filter := rfl
    cases read : c.inflow.registry.read query.filter with
    | taken =>
      simp [workStep?, Work.limitedIf, filter, read]
      rfl
    | empty | ended => simp [workStep?, Work.limitedIf, filter, read]
  | join => simp [workStep?, Work.limitedIf]
  | leaving =>
    simp [workStep?, Work.limitedIf]
    rfl
  | joining =>
    have told : (c.report .application [.joined c.jid]).unlimited n =
        (c.unlimited n).report .application [.joined c.jid] := rfl
    by_cases stopped : c.inflow.reader = .closed ∧ c.outflow.writer = .closed <;>
      simp [workStep?, Work.limitedIf, stopped, told]
    rfl
  | done | cancelled => rfl

/-- Polls commute with the erasure. -/
theorem unlimited_callStep? :
    (c.unlimited n).callStep? k = (c.callStep? k).map (·.unlimited n) := by
  simp only [callStep?, getElem?_calls_unlimited]
  cases c.calls[k]? with
  | none => rfl
  | some call =>
    have work : (call.limitedIf (k != n)).work = call.work.limitedIf (k != n) := rfl
    have aborted : (call.limitedIf (k != n)).aborted = call.aborted := rfl
    have sender : (call.limitedIf (k != n)).sender = call.sender := rfl
    simp only [Option.map_some, work, aborted, sender, Work.isRunning_limitedIf]
    split
    · rw [← unlimited_abandon]
      rfl
    · exact unlimited_workStep? call.sender call.work

theorem waitingQuery?_limitedIf (keeps : Bool) (call : Call) :
    waitingQuery? (call.limitedIf keeps) = if keeps then waitingQuery? call else none := by
  cases keeps with
  | true => simp [Call.limitedIf_true]
  | false =>
    unfold waitingQuery? Call.limitedIf
    cases call.work <;> rfl

/-- Other timers are unaffected; the timer of the call has no step. -/
theorem unlimited_timerStep? : (c.unlimited n).timerStep? k =
    if k = n then none else (c.timerStep? k).map (·.unlimited n) := by
  have waiting : ((c.unlimited n).calls[k]?).bind waitingQuery? =
      if k = n then none else (c.calls[k]?).bind waitingQuery? := by
    rw [getElem?_calls_unlimited]
    cases c.calls[k]? with
    | none => simp
    | some call => by_cases mine : k = n <;> simp [waitingQuery?_limitedIf, mine]
  unfold timerStep?
  rw [waiting, unlimited_callStep?]
  by_cases mine : k = n
  · simp [mine]
  · have keeps : (k != n) = true := by simpa using mine
    simp only [if_neg mine]
    cases (c.calls[k]?).bind waitingQuery? with
    | none => rfl
    | some found =>
      obtain ⟨query, deadline⟩ := found
      cases c.callStep? k with
      | some after => rfl
      | none =>
        have clock : (c.unlimited n).clock = c.clock := rfl
        simp only [Option.map_none, clock]
        split
        · simp [keeps, Query.limitedIf_true, Work.limitedIf]
        · rfl

theorem stands?_unlimited (c : Conversation) (n k : Nat) : (c.unlimited n).stands? k =
    (c.stands? k).map fun standing => (standing.1, standing.2.limitedIf (k != n)) := by
  rw [stands?, getElem?_calls_unlimited, stands?]
  cases c.calls[k]? <;> rfl

theorem unlimited_addCall_self (call : Call) : (c.addCall call).2.unlimited c.calls.length =
    (c.addCall (call.limitedIf false)).2 := by
  have earlier : c.calls.mapIdx (fun k call => call.limitedIf (k != c.calls.length)) = c.calls :=
    congrArg calls (c.unlimited_of_length_le (Nat.le_refl _))
  simp only [addCall, unlimited, List.mapIdx_concat, earlier, bne_self_eq_false]

theorem unlimited_readerStep? :
    (c.unlimited n).readerStep? = c.readerStep?.map (·.unlimited n) := by
  unfold readerStep?
  rw [inflow_unlimited]
  split
  · rfl
  · rw [Option.map_map]
    rfl

theorem unlimited_writerStep? :
    (c.unlimited n).writerStep? = c.writerStep?.map (·.unlimited n) := by
  rw [writerStep?, writerStep?, producing_unlimited, Option.map_map]
  rfl

def unlimitedAfter (n : Nat) (result : Answer × Conversation) : Answer × Conversation :=
  (result.1, result.2.unlimited n)

/-- New calls commute with the erasure. -/
theorem unlimited_addCall (known : n < c.calls.length) (call : Call) :
    (c.unlimited n).addCall call = unlimitedAfter n (c.addCall call) := by
  have other : (c.calls.length != n) = true := by simp; omega
  have calls : (c.calls ++ [call]).mapIdx (fun k call => call.limitedIf (k != n)) =
      (c.unlimited n).calls ++ [call] := by
    rw [List.mapIdx_concat, other, Call.limitedIf_true]
    rfl
  have after : (c.addCall call).2.unlimited n =
      { c with calls := (c.unlimited n).calls ++ [call] } := by
    rw [addCall, unlimited, calls]
  rw [unlimitedAfter, after, addCall, length_calls_unlimited]
  rfl

theorem unlimited_reaching (via : Via) {result result' : Answer × Conversation}
    (same : result' = unlimitedAfter n result) :
    (c.unlimited n).reaching via result' = unlimitedAfter n (c.reaching via result) := by
  have gone : (c.unlimited n).unreachable? via = c.unreachable? via := by cases via <;> rfl
  rw [same, reaching, reaching, gone]
  cases c.unreachable? via <;> rfl

theorem unlimited_ofPeer {result result' : Answer × Conversation}
    (same : result' = unlimitedAfter n result) :
    (c.unlimited n).ofPeer result' = unlimitedAfter n (c.ofPeer result) := by
  rw [same, ofPeer, ofPeer, outflow_unlimited]
  split <;> rfl

theorem unlimited_ofReceiver (id : FilterId) {result result' : Answer × Conversation}
    (same : result' = unlimitedAfter n result) :
    (c.unlimited n).ofReceiver id result' = unlimitedAfter n (c.ofReceiver id result) := by
  rw [same, ofReceiver, ofReceiver, isQueryFilter_unlimited, inflow_unlimited]
  split <;> rfl

/-- Actions do not read the limits of existing calls. -/
theorem unlimited_act (known : n < c.calls.length) (action : Action) :
    (c.unlimited n).act action = unlimitedAfter n (c.act action) := by
  cases action with
  | push arrival =>
    refine unlimited_ofPeer ?_
    rw [push, push, linked_unlimited, inflow_unlimited]
    split <;> rfl
  | hangUp | dropPeer | takeWrites => exact unlimited_ofPeer rfl
  | takeWrite =>
    refine unlimited_ofPeer ?_
    rw [takeWrite, takeWrite, linked_unlimited, outflow_unlimited]
    split <;> rfl
  | stall | advance => rfl
  | receive =>
    refine unlimited_reaching .own ?_
    rw [receive, receive, inflow_unlimited]
    cases c.inflow.inbound.read (c.inflow.reader = .closed) <;> rfl
  | receiveFrom id =>
    refine unlimited_ofReceiver id ?_
    rw [receiveFrom, receiveFrom, inflow_unlimited]
    cases c.inflow.registry.read id <;> rfl
  | dropReceiver id => exact unlimited_ofReceiver id rfl
  | setJid | dropOwn => exact unlimited_reaching .own rfl
  | finish =>
    refine unlimited_reaching .own ?_
    rw [unlimitedAfter, unlimited_finishOwn]
  | handle =>
    refine unlimited_reaching .own ?_
    have sends : (c.unlimited n).ownSender = c.ownSender := rfl
    rw [sends]
    split <;> rfl
  | cloneHandle number | dropHandle number => exact unlimited_reaching (.handle number) rfl
  | send via stanza | query via iq limit =>
    have sends : (c.unlimited n).canSend via = c.canSend via := by cases via <;> rfl
    refine unlimited_reaching via ?_
    rw [sends]
    exact unlimited_addCall known _
  | join =>
    have left : { c.unlimited n with held := false } = { c with held := false }.unlimited n := rfl
    refine unlimited_reaching .own ?_
    rw [left]
    exact unlimited_addCall (c := { c with held := false }) known _
  | abort call => exact congrArg (Prod.mk _) unlimited_abort.symm
  | drop k =>
    rw [act, act, getElem?_calls_unlimited]
    cases c.calls[k]? with
    | none => rfl
    | some call => exact congrArg (Prod.mk _) (unlimited_abandon call.work).symm
  | addFilter via matcher => exact unlimited_reaching via rfl
  | removeFilter via id =>
    refine unlimited_reaching via ?_
    rw [unlimited_removeFilter?]
    cases c.removeFilter? id <;> rfl
  | close via => exact unlimited_reaching via rfl

/-- Erasure commutes with every move, except a step of the timer in question. -/
theorem move_unlimited (known : n < c.calls.length) (move : Move)
    (untimed : move = .step (.timer n) → c.timerStep? n = none) :
    (c.unlimited n).move move = (c.move move).unlimited n := by
  cases move with
  | outside action => exact congrArg Prod.snd (unlimited_act known action)
  | step agent =>
    have stepped : (c.unlimited n).step? agent = (c.step? agent).map (·.unlimited n) := by
      cases agent with
      | writer => exact unlimited_writerStep?
      | reader => exact unlimited_readerStep?
      | call k => exact unlimited_callStep?
      | timer k =>
        refine unlimited_timerStep?.trans ?_
        by_cases mine : k = n
        · subst mine
          have waits : c.step? (.timer k) = none := untimed rfl
          rw [if_pos rfl, waits]
          rfl
        · exact if_neg mine
    rw [Conversation.move, stepped, Option.getD_map]
    rfl

end Conversation

end StanzaExchange
