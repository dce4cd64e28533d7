import StanzaExchange.Proofs.Deeds
import StanzaExchange.Proofs.Framing

/-!
The two flags of the in-process transport that belong to the peer (`feeding`, `listening`) as
functions of the history. The peer goes away by `dropPeer` alone, and closes the feed by `hangUp` or
`dropPeer`; no task, no call and no other action does either. Hence the feed is open exactly as long
as the history contains neither move (`Course.feeding_eq`).
-/
namespace StanzaExchange

open Inflow (Touch)

variable {c after : Conversation} {n : Nat}

namespace Conversation

theorem wire_endQuery (query : Query) (work : Work) :
    (c.endQuery n query work).outflow.wire = c.outflow.wire := by
  change ((c.withdraw n).leaveFilter query.filter).outflow.wire = _
  rw [outflow_leaveFilter]
  rfl

theorem wire_abandon (work : Work) : (c.abandon n work).outflow.wire = c.outflow.wire := by
  cases work with
  | queryOffering query | queryWaiting query | queryAwaiting query => exact wire_endQuery query _
  | _ => rfl

/-- Calls do not write. -/
theorem WorkStep.wire {sender : Bool} {work : Work} (step : WorkStep c n sender work after) :
    after.outflow.wire = c.outflow.wire := by
  cases step with
  | refused | answered | deserted => exact wire_endQuery _ _
  | finishes => exact congrArg Outflow.wire c.finishOwn_keeps.1
  | _ => rfl

/-- Only `dropPeer` ends the observation of the wire. The cases follow the actions. -/
theorem listening_act {action : Action} (other : action ≠ .dropPeer) :
    (c.act action).2.outflow.wire.listening = c.outflow.wire.listening := by
  let P : Conversation → Prop := fun after =>
    after.outflow.wire.listening = c.outflow.wire.listening
  have reaching : ∀ {via result}, P result.2 → P (c.reaching via result).2 :=
    fun done => reaching_keeps rfl fun _ => done
  have ofPeer : ∀ {result}, P result.2 → P (c.ofPeer result).2 := ofPeer_keeps rfl
  have ofReceiver : ∀ {id result}, P result.2 → P (c.ofReceiver id result).2 := ofReceiver_keeps rfl
  cases action with
  | push arrival =>
    apply ofPeer
    unfold push
    split <;> rfl
  | takeWrite =>
    apply ofPeer
    unfold takeWrite Wire.take?
    cases c.outflow.wire.writes <;> rfl
  | hangUp | takeWrites => exact ofPeer rfl
  | dropPeer => exact absurd rfl other
  | receive =>
    apply reaching
    unfold receive
    cases c.inflow.inbound.read (c.inflow.reader = .closed) <;> rfl
  | receiveFrom id =>
    apply ofReceiver
    unfold receiveFrom
    cases c.inflow.registry.read id <;> rfl
  | dropReceiver id => exact ofReceiver rfl
  | finish => exact reaching (congrArg (·.wire.listening) c.finishOwn_keeps.1)
  | handle =>
    apply reaching
    split <;> rfl
  | close via => exact reaching (Outflow.listening_close)
  | removeFilter via id =>
    apply reaching
    unfold removeFilter?
    cases c.inflow.registry.remove? id <;> rfl
  | drop n =>
    rw [act]
    split
    · exact congrArg Wire.listening (wire_abandon _)
    · rfl
  | setJid | cloneHandle | dropHandle | send | query | join | dropOwn | addFilter =>
    exact reaching rfl
  | stall | abort | advance => rfl

/-- The same for every move. -/
theorem listening_move {move : Move} (other : move ≠ .outside .dropPeer) :
    (c.move move).outflow.wire.listening = c.outflow.wire.listening := by
  cases move with
  | outside action => exact listening_act fun same => other (congrArg Move.outside same)
  | step agent =>
    rw [Conversation.move]
    cases step : c.step? agent with
    | none => rfl
    | some after =>
      rw [Option.getD_some]
      cases agent with
      | reader =>
        rw [step?, readerStep?] at step
        split at step
        · cases step
          exact Outflow.listening_close
        · obtain ⟨moved, -, rfl⟩ := Option.map_eq_some_iff.mp step
          rfl
      | writer =>
        obtain ⟨moved, wrote, rfl⟩ := Option.map_eq_some_iff.mp step
        exact (Outflow.step?_advance wrote).listening
      | call n =>
        obtain ⟨call, -, ⟨-, rfl⟩ | ⟨-, further⟩⟩ := callStep?_spec step
        · exact congrArg Wire.listening (wire_abandon _)
        · exact congrArg Wire.listening further.wire
      | timer n =>
        obtain ⟨call, query, deadline, -, -, -, -, -, rfl⟩ := timerStep?_spec step
        exact congrArg Wire.listening (wire_endQuery query _)

end Conversation

def Move.hangsUp : Move → Bool
  | .outside .hangUp | .outside .dropPeer => true
  | _ => false

def History.hungUp (h : History) : Bool := h.any fun m => m.move.hangsUp

theorem History.hungUp_concat (past : History) (m : Moment) :
    hungUp (past ++ [m]) = (past.hungUp || m.move.hangsUp) := by
  simp [hungUp]

theorem Action.hangsUp_touch? (action : Action) :
    action.touch?.any Touch.hangsUp = (Move.outside action).hangsUp := by
  cases action <;> rfl

theorem Work.hangsUp_touch? (before after : Work) :
    (before.touch? after).any Touch.hangsUp = false := by
  unfold touch?
  split
  · rfl
  · rfl
  · split <;> rfl

namespace Conversation

theorem feeding_touched (touch : Option Touch) :
    (c.touched touch).feed.feeding = (c.inflow.feed.feeding && !touch.any Touch.hangsUp) := by
  cases touch with
  | none => exact (Bool.and_true _).symm
  | some touch => exact Inflow.feeding_touch touch

/-- An action closes the feed exactly if the peer is there and hangs up by it. -/
theorem hangsUp_touch? (c : Conversation) (action : Action) :
    (c.touch? action).any Touch.hangsUp =
      (c.outflow.wire.listening && (Move.outside action).hangsUp) := by
  cases hangs : (Move.outside action).hangsUp with
  | false =>
    rw [Bool.and_false, touch?]
    split
    · exact action.hangsUp_touch?.trans hangs
    · rfl
  | true =>
    cases action with
    | hangUp | dropPeer =>
      rw [touch?, act, ofPeer]
      cases c.outflow.wire.listening <;> rfl
    | _ => cases hangs

theorem feeding_turn {move : Move} (turn : Moment.isTurnOf n move) :
    (c.move move).inflow.feed.feeding = c.inflow.feed.feeding := by
  rcases Moment.still_or_turns turn with still | ⟨call, -, later, -, inflow⟩
  · rw [still]
  · rw [inflow, feeding_touched, Work.hangsUp_touch?, Bool.not_false, Bool.and_true]

/-- Only a peer that is there closes the feed, by hanging up. -/
theorem feeding_move (c : Conversation) (move : Move) : (c.move move).inflow.feed.feeding =
    (c.inflow.feed.feeding && !(c.outflow.wire.listening && move.hangsUp)) := by
  cases move with
  | outside action =>
    by_cases drops : ∃ n, action = .drop n
    · obtain ⟨n, rfl⟩ := drops
      rw [feeding_turn (.inr (.inr rfl))]
      simp [Move.hangsUp]
    · have inflow : (c.move (.outside action)).inflow = c.touched (c.touch? action) :=
        inflow_act fun n same => drops ⟨n, same⟩
      rw [inflow, feeding_touched, hangsUp_touch?]
  | step agent =>
    have stays : (Move.step agent).hangsUp = false := rfl
    rw [stays, Bool.and_false, Bool.not_false, Bool.and_true]
    cases agent with
    | reader =>
      obtain ⟨flow, advances⟩ := Moment.reader_advances c
      exact advances.step.feeding
    | writer =>
      rw [Conversation.move, step?, writerStep?]
      cases c.outflow.step? c.faults c.trace c.producing <;> rfl
    | call n => exact feeding_turn (.inl rfl)
    | timer n => exact feeding_turn (.inr (.inl rfl))

end Conversation

namespace Course

variable {k : Course}

/-- The two facts are inductive together: a peer that is gone cannot hang up, but then it has done
so before. -/
theorem feeding_and_listening (k : Course) :
    k.now.inflow.feed.feeding = !k.past.hungUp ∧
      (k.past.hungUp = false → k.now.outflow.wire.listening = true) := by
  refine k.induction (P := fun past now => now.inflow.feed.feeding = !past.hungUp ∧
    (past.hungUp = false → now.outflow.wire.listening = true)) ⟨rfl, fun _ => rfl⟩ ?_
  rintro moves move j ⟨feeding, listening⟩
  rw [j.now.feeding_move move, feeding, History.hungUp_concat]
  refine ⟨?_, fun calm => ?_⟩
  · cases before : j.past.hungUp with
    | true => rfl
    | false => simp [listening before]
  · obtain ⟨before, stays⟩ := Bool.or_eq_false_iff.mp calm
    have other : move ≠ .outside .dropPeer := by
      rintro rfl
      cases stays
    rw [Conversation.listening_move other, listening before]

/-- The feed is open exactly as long as the peer has not hung up. -/
theorem feeding_eq (k : Course) : k.now.inflow.feed.feeding = !k.past.hungUp :=
  k.feeding_and_listening.1

theorem listening_of_feeding (k : Course) (feeding : k.now.inflow.feed.feeding = true) :
    k.now.outflow.wire.listening = true :=
  k.feeding_and_listening.2 (by simpa [k.feeding_eq] using feeding)

/-- Until the receiver task exits a peer that has not hung up can feed. -/
theorem answer_push (goesOn : k.now.inflow.reader ≠ .closed)
    (feeding : k.now.inflow.feed.feeding = true) (arrival : Arrival) :
    (k.now.act (.push arrival)).1 = .flag true := by
  have listens := k.listening_of_feeding feeding
  have linked : k.now.linked = true := by simp [Conversation.linked, goesOn]
  simp [Conversation.act, Conversation.ofPeer, listens, Conversation.push, linked, Feed.push?,
    feeding]

end Course

end StanzaExchange
