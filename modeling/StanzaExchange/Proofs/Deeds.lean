import StanzaExchange.Proofs.Ending
import StanzaExchange.Proofs.OutboundMoves

/-!
The effect of every move on the inbound half, as a function of the move (`Moment.deed?`). The half
changes by a step of the receiver task, by an action of the peer or the application that succeeds,
and by the beginning and the end of queries and of `join`; every other move leaves it unchanged
(`inflow_after`). The inbound half is a fold over these deeds.
-/
namespace StanzaExchange

open Inflow (Touch)

def Answer.isDone : Answer → Bool
  | .ok | .flag true | .stanza _ | .filterId _ => true
  | _ => false

/-- The update of the inbound half by an action that succeeds. -/
def Action.touch? : Action → Option Touch
  | .push arrival => some (.push arrival)
  | .hangUp | .dropPeer => some .hangUp
  | .receive => some .take
  | .receiveFrom id => some (.takeFrom id)
  | .dropReceiver id => some (.drop id)
  | .dropOwn => some .shut
  | .addFilter _ matcher => some (.add matcher)
  | .removeFilter _ id => some (.remove id)
  | _ => none

namespace Work

/-- The call owns the inbound channel. -/
def holdsInbound : Work → Bool
  | .join | .leaving => true
  | _ => false

/-- The update of the inbound half by a call between two states: the correlation filter is
registered at the beginning of a query and removed at its end, and the owned inbound channel is
dropped once. -/
def touch? (before after : Work) : Option Touch :=
  match before.query?, after.query? with
  | none, some asked => some (.add (.replyTo asked.iq.id))
  | some asked, none => some (.leave asked.filter false)
  | _, _ => if before.holdsInbound && !after.holdsInbound then some .shut else none

theorem touch?_self (work : Work) : work.touch? work = none := by
  cases work <;> rfl

end Work

namespace Inflow

/-- A change of the inbound half: a step of the receiver task, or an update. -/
inductive Deed where
  | advance
  | touch (t : Touch)

def perform (faults : Faults) (i : Inflow) : Deed → Inflow
  | .advance => i.advance faults
  | .touch t => i.touch t

end Inflow

namespace Conversation

variable {c after : Conversation} {n : Nat} {action : Action} {answer : Answer}

def touch? (c : Conversation) (action : Action) : Option Touch :=
  if (c.act action).1.isDone then action.touch? else none

def touched (c : Conversation) (touch : Option Touch) : Inflow :=
  touch.elim c.inflow c.inflow.touch

/-- The call is in this state afterwards, and the inbound half is updated accordingly. -/
def Turns (c : Conversation) (n : Nat) (work : Work) (after : Conversation) : Prop :=
  ∃ later, after.calls = c.calls.modify n (fun call => { call with work := later }) ∧
    after.inflow = c.touched (work.touch? later)

private theorem turns_endQuery {work later : Work} {query : Query}
    (has : work.query? = some query) (ended : later.query? = none) :
    c.Turns n work (c.endQuery n query later) := by
  refine ⟨later, calls_endQuery query later, ?_⟩
  rw [inflow_endQuery query later false, Work.touch?, has, ended]
  rfl

/-- Every poll of a call changes the inbound half by `Work.touch?` alone. -/
theorem WorkStep.turns {sender : Bool} {work : Work} (step : WorkStep c n sender work after) :
    c.Turns n work after := by
  cases step with
  | refused unsent => rcases unsent with rfl | rfl <;> exact turns_endQuery rfl rfl
  | @answered query stanza registry read =>
    obtain ⟨-, rfl⟩ := Registry.read_taken read
    refine ⟨_, calls_endQuery query _, ?_⟩
    rw [inflow_endQuery query _ false]
    simp only [Inflow.touch, setRegistry, Registry.leave_tail]
    rfl
  | deserted => exact turns_endQuery rfl rfl
  | finishes =>
    obtain ⟨-, inflow, calls, -⟩ := c.finishOwn_keeps
    exact ⟨.leaving, by rw [setWork, calls], inflow⟩
  | _ => exact ⟨_, rfl, rfl⟩

theorem turns_abandon {work : Work} (running : work.isRunning = true) :
    c.Turns n work (c.abandon n work) := by
  cases work with
  | queryOffering | queryWaiting | queryAwaiting => exact turns_endQuery rfl rfl
  | done | cancelled => cases running
  | _ => exact ⟨.cancelled, rfl, rfl⟩

theorem turns_callStep? (step : c.callStep? n = some after) :
    ∃ call, c.calls[n]? = some call ∧ c.Turns n call.work after := by
  obtain ⟨call, here, ⟨given, rfl⟩ | ⟨-, further⟩⟩ := callStep?_spec step
  · exact ⟨call, here, turns_abandon (Bool.and_eq_true_iff.mp given).2⟩
  · exact ⟨call, here, further.turns⟩

theorem turns_timerStep? (step : c.timerStep? n = some after) :
    ∃ call, c.calls[n]? = some call ∧ c.Turns n call.work after := by
  obtain ⟨call, query, deadline, here, waits, -, -, -, rfl⟩ := timerStep?_spec step
  refine ⟨call, here, ?_⟩
  rcases waits with asked | asked <;> exact turns_endQuery (by rw [asked]; rfl) rfl

private theorem inflow_gone {missing : Missing} (gone : c.act action = (.gone missing, c)) :
    (c.act action).2.inflow = c.touched (c.touch? action) := by
  rw [touch?, gone]
  rfl

private theorem inflow_acted (acted : c.act action = (answer, after))
    (inflow : after.inflow = c.touched (if answer.isDone then action.touch? else none)) :
    (c.act action).2.inflow = c.touched (c.touch? action) := by
  rw [touch?, acted]
  exact inflow

private theorem inflow_apart (apart : action.touch? = none)
    (same : (c.act action).2.inflow = c.inflow) :
    (c.act action).2.inflow = c.touched (c.touch? action) := by
  rw [touch?, apart, ite_self]
  exact same

private theorem inflow_reaching {via : Via} {result : Answer × Conversation}
    (acts : c.act action = c.reaching via result)
    (inflow : result.2.inflow = c.touched (if result.1.isDone then action.touch? else none)) :
    (c.act action).2.inflow = c.touched (c.touch? action) := by
  rcases reaching_or c via result with ⟨-, same⟩ | ⟨missing, gone⟩
  · exact inflow_acted (acts.trans same) inflow
  · exact inflow_gone (acts.trans gone)

private theorem inflow_ofPeer {result : Answer × Conversation}
    (acts : c.act action = c.ofPeer result)
    (inflow : result.2.inflow = c.touched (if result.1.isDone then action.touch? else none)) :
    (c.act action).2.inflow = c.touched (c.touch? action) := by
  rcases ofPeer_or c result with same | ⟨missing, gone⟩
  · exact inflow_acted (acts.trans same) inflow
  · exact inflow_gone (acts.trans gone)

private theorem inflow_ofReceiver {id : FilterId} {result : Answer × Conversation}
    (acts : c.act action = c.ofReceiver id result)
    (inflow : result.2.inflow = c.touched (if result.1.isDone then action.touch? else none)) :
    (c.act action).2.inflow = c.touched (c.touch? action) := by
  rcases ofReceiver_or c id result with ⟨same, -⟩ | ⟨missing, gone⟩
  · exact inflow_acted (acts.trans same) inflow
  · exact inflow_gone (acts.trans gone)

/-- The effect of an action other than dropping a call. -/
theorem inflow_act (other : ∀ n, action ≠ .drop n) :
    (c.act action).2.inflow = c.touched (c.touch? action) := by
  cases action with
  | push arrival =>
    apply inflow_ofPeer rfl
    unfold push Feed.push?
    cases c.linked <;> cases feeding : c.inflow.feed.feeding <;>
      simp [setFeed, touched, Answer.isDone, Action.touch?, Inflow.touch, feeding]
  | takeWrite =>
    apply inflow_ofPeer rfl
    unfold takeWrite
    split <;> split <;> rfl
  | hangUp | dropPeer | takeWrites => exact inflow_ofPeer rfl rfl
  | receive =>
    apply inflow_reaching rfl
    unfold receive Channel.read Channel.take?
    cases queue : c.inflow.inbound.queue with
    | nil => cases decide (c.inflow.reader = .closed) <;> rfl
    | cons stanza rest =>
      simp [Finding.map, found, setInbound, touched, Answer.isDone, Action.touch?, Inflow.touch,
        queue]
  | receiveFrom id =>
    apply inflow_ofReceiver rfl
    unfold receiveFrom
    cases read : c.inflow.registry.read id with
    | taken stanza registry =>
      obtain ⟨-, rfl⟩ := Registry.read_taken read
      rfl
    | empty | ended => rfl
  | dropReceiver id => exact inflow_ofReceiver rfl rfl
  | finish => exact inflow_reaching rfl c.finishOwn_keeps.2.1
  | handle =>
    apply inflow_reaching rfl
    split <;> rfl
  | removeFilter via id =>
    apply inflow_reaching rfl
    unfold removeFilter?
    cases removed : c.inflow.registry.remove? id with
    | none => rfl
    | some registry =>
      simp [Answer.isDone, Action.touch?, touched, Inflow.touch, removed, setRegistry, report]
  | close via => exact inflow_reaching rfl (by simp [Action.touch?, touched, report])
  | setJid | cloneHandle | dropHandle | send | query | join | dropOwn | addFilter =>
    exact inflow_reaching rfl rfl
  | drop n => exact absurd rfl (other n)
  | stall | abort | advance => exact inflow_apart rfl rfl

end Conversation

open Inflow (Deed)

namespace Moment

variable {m : Moment} {n : Nat}

/-- The update by what becomes of a call. -/
def turnOf (m : Moment) (n : Nat) : Option Touch :=
  match m.before.stands? n, m.after.stands? n with
  | some before, some after => before.2.touch? after.2
  | _, _ => none

/-- The deed of a move, if any. -/
def deed? (m : Moment) : Option Deed :=
  match m.move with
  | .step .reader => some .advance
  | .step .writer => none
  | .step (.call n) | .step (.timer n) | .outside (.drop n) => (m.turnOf n).map .touch
  | .outside action => (m.before.touch? action).map .touch

theorem turnOf_of_same (same : m.after.stands? n = m.before.stands? n) : m.turnOf n = none := by
  unfold turnOf
  rw [same]
  cases m.before.stands? n with
  | none => rfl
  | some standing => exact standing.2.touch?_self

/-- The moves that change a call: its poll, its timer, its cancellation. -/
def isTurnOf (n : Nat) (move : Move) : Prop :=
  move = .step (.call n) ∨ move = .step (.timer n) ∨ move = .outside (.drop n)

/-- Such a move leaves the state unchanged or is a turn of the call. -/
theorem still_or_turns {c : Conversation} {move : Move} (turn : isTurnOf n move) :
    c.move move = c ∨ ∃ call, c.calls[n]? = some call ∧ c.Turns n call.work (c.move move) := by
  rcases turn with rfl | rfl | rfl
  · rw [Conversation.move, Conversation.step?]
    cases step : c.callStep? n with
    | none => exact .inl rfl
    | some later => exact .inr (Conversation.turns_callStep? step)
  · rw [Conversation.move, Conversation.step?]
    cases step : c.timerStep? n with
    | none => exact .inl rfl
    | some later => exact .inr (Conversation.turns_timerStep? step)
  · rw [Conversation.move, Conversation.act]
    cases here : c.calls[n]? with
    | none => exact .inl rfl
    | some call =>
      cases running : call.work.isRunning with
      | true => exact .inr ⟨call, rfl, Conversation.turns_abandon running⟩
      | false => exact .inl (Conversation.abandon_of_ended running)

/-- The inbound half after a turn is determined by the states of the call. -/
private theorem inflow_turn {c : Conversation} {move : Move} (turn : isTurnOf n move) :
    (c.move move).inflow = c.touched (turnOf ⟨c, move⟩ n) := by
  rcases still_or_turns turn with still | ⟨call, here, later, calls, inflow⟩
  · have same : (after ⟨c, move⟩).stands? n = c.stands? n := by rw [after, still]
    rw [turnOf_of_same same, still]
    rfl
  · have before : c.stands? n = some (call.sender, call.work) := by
      simp [Conversation.stands?, here]
    have after := Conversation.stands?_modify here calls n
    rw [if_pos rfl] at after
    rw [turnOf, Moment.after, before, after]
    exact inflow

private theorem elim_map (i : Inflow) (faults : Faults) (touch : Option Touch) :
    (touch.map Deed.touch).elim i (i.perform faults) = touch.elim i i.touch := by
  cases touch <;> rfl

/-- The inbound half after a move is determined by the deed of the move. -/
theorem inflow_after (m : Moment) : m.after.inflow =
    m.deed?.elim m.before.inflow (m.before.inflow.perform m.before.faults) := by
  obtain ⟨c, move⟩ := m
  cases move with
  | outside action =>
    cases action with
    | drop n => exact (inflow_turn (.inr (.inr rfl))).trans (elim_map _ _ _).symm
    | _ => exact (Conversation.inflow_act fun _ same => by cases same).trans (elim_map _ _ _).symm
  | step agent =>
    cases agent with
    | reader => exact (move_reader c).1
    | writer =>
      rw [after, Conversation.move, Conversation.step?, Conversation.writerStep?]
      cases c.outflow.step? c.faults c.trace c.producing <;> rfl
    | call n => exact (inflow_turn (.inl rfl)).trans (elim_map _ _ _).symm
    | timer n => exact (inflow_turn (.inr (.inl rfl))).trans (elim_map _ _ _).symm

end Moment

/-- The faults relevant to the inbound half. -/
def Faults.inbound (faults : Faults) : Faults := { faults with send := false, sendEnd := false }

theorem Inflow.perform_inbound (faults : Faults) (i : Inflow) (deed : Deed) :
    i.perform faults.inbound deed = i.perform faults deed := by
  cases deed <;> rfl

/-- What is seen during a sequence of deeds, for a function of the state before and after each. -/
def Inflow.watch {α : Type} (see : Inflow → Inflow → List α) (faults : Faults) (i : Inflow) :
    List Deed → List α
  | [] => []
  | deed :: rest =>
    see i (i.perform faults deed) ++ watch see faults (i.perform faults deed) rest

theorem Inflow.watch_concat {α : Type} (see : Inflow → Inflow → List α) (faults : Faults)
    (i : Inflow) (deeds : List Deed) (deed : Deed) :
    i.watch see faults (deeds ++ [deed]) = i.watch see faults deeds ++
      see (deeds.foldl (perform faults) i)
        ((deeds.foldl (perform faults) i).perform faults deed) := by
  induction deeds generalizing i with
  | nil => simp [watch]
  | cons first rest ih => simp [watch, ih]

def History.deeds (h : History) : List Deed := h.filterMap Moment.deed?

theorem History.deeds_concat (past : History) (m : Moment) :
    deeds (past ++ [m]) = past.deeds ++ m.deed?.toList :=
  filterMap_concat

namespace Course

/-- The inbound half, and anything seen of it, is a function of the deeds. -/
theorem told_by_deeds {α : Type} (see : Inflow → Inflow → List α) (still : ∀ i, see i i = [])
    (k : Course) :
    k.now.inflow = k.past.deeds.foldl (Inflow.perform k.faults.inbound) k.origin.inflow ∧
      k.past.flatMap (fun m => see m.before.inflow m.after.inflow) =
        k.origin.inflow.watch see k.faults.inbound k.past.deeds := by
  refine k.induction (P := fun past now =>
    now.inflow = past.deeds.foldl (Inflow.perform k.faults.inbound) k.origin.inflow ∧
      past.flatMap (fun m => see m.before.inflow m.after.inflow) =
        k.origin.inflow.watch see k.faults.inbound past.deeds) ⟨rfl, rfl⟩ ?_
  rintro moves move j ⟨inflow, seen⟩
  have after := Moment.inflow_after ⟨j.now, move⟩
  have faults : j.now.faults = k.faults := j.faults_now
  rw [History.deeds_concat, List.flatMap_append, seen, List.flatMap_singleton, after]
  change (Moment.after ⟨j.now, move⟩).inflow = _ ∧ _
  rw [after]
  cases deed : Moment.deed? ⟨j.now, move⟩ with
  | none => simp [inflow, still]
  | some deed =>
    simp only [Option.elim_some, Option.toList_some, List.foldl_append, List.foldl_cons,
      List.foldl_nil, Inflow.watch_concat, Inflow.perform_inbound, inflow, faults]
    exact ⟨trivial, trivial⟩

end Course

end StanzaExchange
