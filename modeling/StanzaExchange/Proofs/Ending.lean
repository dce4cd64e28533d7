import StanzaExchange.Proofs.Moves
import StanzaExchange.Proofs.Outflow

/-!
What no move reverts: the faults of the transport, termination, the exit of a task, the release of
the conversation. Termination comes before the outbound receiver is dropped and before the registry
is closed, so either of the latter implies it (`terminated_of_shut`, `terminated_of_closed`). The
causes of the losses, `finish`, `join` and drop, are found in the history.
-/
namespace StanzaExchange

namespace Conversation

variable {c after : Conversation} {n : Nat} {excuse leave : Prop}

/-- The components of the state on which `Proceeds` depends. -/
def ends (c : Conversation) : Faults × Bool × Bool × List Bool × Bool × Bool × Bool :=
  (c.faults, c.held, c.ownSender, c.handles, c.outflow.terminated, c.outflow.outbound.receiving,
    c.inflow.registry.closed)

/-- Monotonicity of a move. The loss of the own sender while the conversation exists needs an
`excuse`, the release of the conversation needs `leave`. -/
structure Proceeds (excuse leave : Prop) (c after : Conversation) : Prop where
  faults : after.faults = c.faults
  terminated : c.outflow.terminated = true → after.outflow.terminated = true
  outbound : after.outflow.outbound.receiving = false →
    c.outflow.outbound.receiving = false ∨ after.outflow.terminated = true
  filters : after.inflow.registry.closed = true →
    c.inflow.registry.closed = true ∨ after.outflow.terminated = true
  held : c.held = false → after.held = false
  released : after.held = false → c.held = false ∨ leave
  own : after.ownSender = false → c.ownSender = false ∨ after.held = false ∨ excuse
  opens : after.opens = true → c.opens = true

namespace Proceeds

theorem refl (c : Conversation) : c.Proceeds excuse leave c :=
  ⟨rfl, id, .inl, .inl, id, .inl, .inl, id⟩

/-- Progress towards the end composes. -/
theorem trans {later : Conversation} (first : c.Proceeds excuse leave after)
    (second : after.Proceeds excuse leave later) : c.Proceeds excuse leave later where
  faults := second.faults.trans first.faults
  terminated := second.terminated ∘ first.terminated
  outbound shut := by
    rcases second.outbound shut with before | terminated
    · exact (first.outbound before).imp_right second.terminated
    · exact .inr terminated
  filters closed := by
    rcases second.filters closed with before | terminated
    · exact (first.filters before).imp_right second.terminated
    · exact .inr terminated
  held := second.held ∘ first.held
  released gone := (second.released gone).elim first.released .inr
  own barred := by
    rcases second.own barred with before | reason
    · rcases first.own before with earlier | released | excused
      · exact .inl earlier
      · exact .inr (.inl (second.held released))
      · exact .inr (.inr excused)
    · exact .inr reason
  opens := first.opens ∘ second.opens

theorem of_same (same : after.ends = c.ends) : c.Proceeds excuse leave after := by
  simp only [ends, Prod.mk.injEq] at same
  obtain ⟨faults, held, own, handles, terminated, outbound, filters⟩ := same
  have opens : after.opens = c.opens := by rw [Conversation.opens, own, handles, Conversation.opens]
  exact ⟨faults, (terminated ▸ ·), fun shut => .inl (outbound ▸ shut),
    fun closed => .inl (filters ▸ closed), (held ▸ ·), fun gone => .inl (held ▸ gone),
    fun barred => .inl (own ▸ barred), (opens ▸ ·)⟩

theorem of_terminated (hold : (after.faults, after.held, after.ownSender, after.handles) =
    (c.faults, c.held, c.ownSender, c.handles))
    (terminated : after.outflow.terminated = true) : c.Proceeds excuse leave after := by
  simp only [Prod.mk.injEq] at hold
  obtain ⟨faults, held, own, handles⟩ := hold
  have opens : after.opens = c.opens := by rw [Conversation.opens, own, handles, Conversation.opens]
  exact ⟨faults, fun _ => terminated, fun _ => .inr terminated, fun _ => .inr terminated,
    (held ▸ ·), fun gone => .inl (held ▸ gone), fun barred => .inl (own ▸ barred), (opens ▸ ·)⟩

theorem of_excuse (faults : after.faults = c.faults) (outflow : after.outflow = c.outflow)
    (filters : after.inflow.registry.closed = c.inflow.registry.closed)
    (held : after.held = c.held) (opens : after.opens = true → c.opens = true)
    (excused : excuse) : c.Proceeds excuse leave after :=
  ⟨faults, (outflow ▸ ·), fun shut => .inl (outflow ▸ shut), fun closed => .inl (filters ▸ closed),
    (held ▸ ·), fun gone => .inl (held ▸ gone), fun _ => .inr (.inr excused), opens⟩

theorem of_released (faults : after.faults = c.faults) (outflow : after.outflow = c.outflow)
    (filters : after.inflow.registry.closed = c.inflow.registry.closed)
    (held : after.held = false) (opens : after.opens = true → c.opens = true)
    (leaves : leave) : c.Proceeds excuse leave after :=
  ⟨faults, (outflow ▸ ·), fun shut => .inl (outflow ▸ shut), fun closed => .inl (filters ▸ closed),
    fun _ => held, fun _ => .inr leaves, fun _ => .inr (.inl held), opens⟩

theorem of_handles (handles : List Bool) (ways : c.opens = true) :
    c.Proceeds excuse leave { c with handles } :=
  ⟨rfl, id, .inl, .inl, id, .inl, .inl, fun _ => ways⟩

theorem weaken {other leaveOther : Prop} (step : c.Proceeds excuse leave after)
    (weaker : excuse → other) (freer : leave → leaveOther) : c.Proceeds other leaveOther after :=
  { step with
    own := fun barred => (step.own barred).imp_right (Or.imp_right weaker)
    released := fun gone => (step.released gone).imp_right freer }

end Proceeds

theorem opens_of_silent (silent : after.ownSender = false) (handles : after.handles = c.handles)
    (opens : after.opens = true) : c.opens = true := by
  rw [Conversation.opens, silent, handles] at opens
  exact Bool.or_eq_true_iff.mpr (.inr opens)

theorem proceeds_modifyChannel (id : FilterId) (change : Channel Stanza → Channel Stanza) :
    c.Proceeds excuse leave (c.setRegistry (c.inflow.registry.modifyChannel id change)) :=
  .of_same rfl

theorem proceeds_removeFilter? {id : FilterId} (removed : c.removeFilter? id = some after) :
    c.Proceeds excuse leave after := by
  obtain ⟨registry, found, rfl⟩ := Option.map_eq_some_iff.mp removed
  have closed : registry.closed = c.inflow.registry.closed := by rw [Registry.eq_of_remove? found]
  exact .of_same (by simp [ends, setRegistry, report, closed])

theorem proceeds_leaveFilter (id : FilterId) : c.Proceeds excuse leave (c.leaveFilter id) := by
  unfold leaveFilter
  cases removed : c.removeFilter? id with
  | none => exact proceeds_modifyChannel id .shut
  | some after => exact (proceeds_removeFilter? removed).trans (proceeds_modifyChannel id .shut)

theorem proceeds_endQuery (query : Query) (work : Work) :
    c.Proceeds excuse leave (c.endQuery n query work) := by
  have withdrawn : c.Proceeds excuse leave (c.withdraw n) := .of_same rfl
  exact (withdrawn.trans (proceeds_leaveFilter query.filter)).trans (.of_same rfl)

theorem proceeds_abandon (work : Work) (excused : work = .join → excuse) :
    c.Proceeds excuse leave (c.abandon n work) := by
  cases work with
  | queryOffering query | queryWaiting query | queryAwaiting query =>
    exact proceeds_endQuery query _
  | join => exact .of_excuse rfl rfl rfl rfl (opens_of_silent rfl rfl) (excused rfl)
  | _ => exact .of_same rfl

theorem proceeds_finishOwn (excused : excuse) : c.Proceeds excuse leave c.finishOwn := by
  unfold finishOwn
  split
  · exact .of_excuse rfl rfl rfl rfl (opens_of_silent rfl rfl) excused
  · exact .refl c

/-- A poll of a call drops the conversation's sender only as part of `join`. -/
theorem WorkStep.proceeds {sender : Bool} {work : Work} (excused : work = .join → excuse)
    (step : WorkStep c n sender work after) : c.Proceeds excuse leave after := by
  cases step with
  | refused | deserted => exact proceeds_endQuery _ _
  | answered read =>
    obtain ⟨-, rfl⟩ := Registry.read_taken read
    exact (proceeds_modifyChannel _ _).trans (proceeds_endQuery _ _)
  | finishes => exact (proceeds_finishOwn (excused rfl)).trans (.of_same rfl)
  | _ => exact .of_same rfl

/-- A call of `join` has been added and has not dropped the inbound receiver. -/
def Joining (c : Conversation) : Prop := ∃ n sender, c.stands? n = some (sender, .join)

private theorem joining_of_call {call : Call} (here : c.calls[n]? = some call)
    (joins : call.work = .join) : c.Joining :=
  ⟨n, call.sender, by rw [stands?, here, Option.map_some, joins]⟩

theorem proceeds_callStep? (step : c.callStep? n = some after) :
    c.Proceeds c.Joining leave after := by
  obtain ⟨call, here, ⟨-, rfl⟩ | ⟨-, further⟩⟩ := callStep?_spec step
  · exact proceeds_abandon _ (joining_of_call here)
  · exact further.proceeds (joining_of_call here)

theorem proceeds_timerStep? (step : c.timerStep? n = some after) :
    c.Proceeds excuse leave after := by
  obtain ⟨call, query, deadline, -, -, -, -, -, rfl⟩ := timerStep?_spec step
  exact proceeds_endQuery query _

theorem proceeds_close (origin : Reporter) : c.Proceeds excuse leave (c.close origin).2 :=
  .of_terminated rfl Outflow.terminated_close

theorem proceeds_writerStep? (step : c.writerStep? = some after) :
    c.Proceeds excuse leave after := by
  obtain ⟨⟨outflow, events⟩, wrote, rfl⟩ := Option.map_eq_some_iff.mp step
  cases Outflow.step?_advance wrote with
  | stops idle ended => exact .of_terminated rfl ended
  | ends => exact .of_terminated rfl Outflow.terminated_close
  | waits | takes | writes | loses => exact .of_same rfl

theorem proceeds_reader (c : Conversation) : c.Proceeds excuse leave (c.move (.step .reader)) := by
  obtain ⟨flow, advances⟩ := Moment.reader_advances c
  have step : Inflow.Advance c.faults c.inflow flow (c.move (.step .reader)).inflow := advances.step
  by_cases closing : c.inflow.reader = .closing
  · rw [move, step?, readerStep?, if_pos closing]
    exact .of_terminated rfl Outflow.terminated_close
  · have closed := step.closed closing
    rw [move, step?, readerStep?, if_neg closing] at closed ⊢
    cases moved : c.inflow.step? c.faults c.trace with
    | none => exact .refl c
    | some read =>
      rw [moved] at closed
      exact .of_same (by simpa [ends, report] using closed)

private theorem proceeds_reaching {via : Via} {result : Answer × Conversation}
    (step : c.unreachable? via = none → c.Proceeds excuse leave result.2) :
    c.Proceeds excuse leave (c.reaching via result).2 :=
  reaching_keeps (P := c.Proceeds excuse leave) (.refl c) step

private theorem proceeds_ofPeer {result : Answer × Conversation}
    (step : c.Proceeds excuse leave result.2) : c.Proceeds excuse leave (c.ofPeer result).2 :=
  ofPeer_keeps (P := c.Proceeds excuse leave) (.refl c) step

private theorem proceeds_ofReceiver {id : FilterId} {result : Answer × Conversation}
    (step : c.Proceeds excuse leave result.2) :
    c.Proceeds excuse leave (c.ofReceiver id result).2 :=
  ofReceiver_keeps (P := c.Proceeds excuse leave) (.refl c) step

/-- The own sender is lost, while the conversation exists, only by `finish` or within a call of
`join`; the conversation is released only by `join` or `dropOwn`. -/
theorem proceeds_act (action : Action) :
    c.Proceeds (action = .finish ∨ c.Joining) (action = .join ∨ action = .dropOwn)
      (c.act action).2 := by
  cases action with
  | push arrival =>
    apply proceeds_ofPeer
    unfold push
    split <;> exact .of_same rfl
  | takeWrite =>
    apply proceeds_ofPeer
    unfold takeWrite
    split <;> exact .of_same rfl
  | hangUp | dropPeer | takeWrites => exact proceeds_ofPeer (.of_same rfl)
  | receive =>
    refine proceeds_reaching fun _ => ?_
    unfold receive
    cases c.inflow.inbound.read (c.inflow.reader = .closed) <;> exact .of_same rfl
  | receiveFrom id =>
    apply proceeds_ofReceiver
    unfold receiveFrom
    cases read : c.inflow.registry.read id with
    | taken stanza registry =>
      obtain ⟨-, rfl⟩ := Registry.read_taken read
      exact proceeds_modifyChannel id _
    | empty | ended => exact .refl c
  | dropReceiver id => exact proceeds_ofReceiver (proceeds_modifyChannel id .shut)
  | finish => exact proceeds_reaching fun _ => proceeds_finishOwn (.inl rfl)
  | handle =>
    refine proceeds_reaching fun _ => ?_
    split
    next sends => exact .of_handles _ (Bool.or_eq_true_iff.mpr (.inl sends))
    · exact .refl c
  | cloneHandle | dropHandle =>
    exact proceeds_reaching fun reached => .of_handles _ (opens_of_canSend reached rfl)
  | setJid | send | query | addFilter => exact proceeds_reaching fun _ => .of_same rfl
  | join => exact proceeds_reaching fun _ => .of_released rfl rfl rfl rfl id (.inl rfl)
  | dropOwn =>
    exact proceeds_reaching fun _ =>
      .of_released rfl rfl rfl rfl (opens_of_silent rfl rfl) (.inr rfl)
  | drop n =>
    rw [act]
    split
    next call here => exact proceeds_abandon _ fun joins => .inr (joining_of_call here joins)
    · exact .refl c
  | removeFilter via id =>
    refine proceeds_reaching fun _ => ?_
    cases removed : c.removeFilter? id with
    | none => exact .refl c
    | some after => exact proceeds_removeFilter? removed
  | close via => exact proceeds_reaching fun _ => proceeds_close .application
  | stall | abort | advance => exact .of_same rfl

/-- Every move makes such progress; the cases follow the agents. -/
theorem proceeds_move (c : Conversation) (move : Move) :
    c.Proceeds (move = .outside .finish ∨ c.Joining)
      (move = .outside .join ∨ move = .outside .dropOwn) (c.move move) := by
  have steps : ∀ {step : Option Conversation},
      (∀ after, step = some after → c.Proceeds c.Joining False after) →
      c.Proceeds (move = .outside .finish ∨ c.Joining)
        (move = .outside .join ∨ move = .outside .dropOwn) (step.getD c) := by
    intro step each
    cases step with
    | none => exact .refl c
    | some after => exact (each after rfl).weaken .inr False.elim
  cases move with
  | outside action =>
    exact (proceeds_act action).weaken (Or.imp_left (congrArg Move.outside))
      (Or.imp (congrArg Move.outside) (congrArg Move.outside))
  | step agent =>
    cases agent with
    | reader => exact proceeds_reader c
    | writer => exact steps fun _ => proceeds_writerStep?
    | call n => exact steps fun _ => proceeds_callStep?
    | timer n => exact steps fun _ => proceeds_timerStep?

theorem proceeds_run (moves : List Move) : c.Proceeds True True (c.run moves) := by
  induction moves generalizing c with
  | nil => exact .refl c
  | cons move rest ih =>
    exact ((proceeds_move c move).weaken (fun _ => trivial) fun _ => trivial).trans ih

end Conversation

/-- The outbound channel has a sender if the application holds one or a running call does. -/
theorem Conversation.producing_iff {c : Conversation} : c.producing = true ↔
    c.opens = true ∨ ∃ n work, c.stands? n = some (true, work) ∧ work.isRunning = true := by
  rw [producing, Bool.or_eq_true_iff, opens, List.any_eq_true]
  refine or_congr_right ⟨?_, ?_⟩
  · rintro ⟨call, member, runs⟩
    obtain ⟨n, here⟩ := List.mem_iff_getElem?.mp member
    obtain ⟨running, sends⟩ := Bool.and_eq_true_iff.mp runs
    exact ⟨n, call.work, by simp [stands?, here, sends], running⟩
  · rintro ⟨n, work, stands, running⟩
    obtain ⟨call, here, same⟩ := Option.map_eq_some_iff.mp stands
    obtain ⟨sends, rfl⟩ : call.sender = true ∧ call.work = work := by simpa using same
    exact ⟨call, List.mem_of_getElem? here, by simp [sends, running]⟩

/-- Once the outbound channel has no sender it never has one again. -/
theorem Moment.producing_of_after (m : Moment) (sends : m.after.producing = true) :
    m.before.producing = true := by
  rw [Conversation.producing_iff] at sends ⊢
  rcases sends with opens | ⟨n, work, stands, running⟩
  · exact .inl ((Conversation.proceeds_move m.before m.move).opens opens)
  · rcases m.stood stands with stood | ⟨-, -, opens⟩ | ⟨call, _, _, _, here, sender, turned⟩
    · exact .inr ⟨n, work, stood, running⟩
    · exact .inl (opens rfl)
    · exact .inr ⟨n, call.work, by simp [Conversation.stands?, here, sender], turned.turn.running⟩

theorem Moment.faults_after (m : Moment) : m.after.faults = m.before.faults :=
  (Conversation.proceeds_move m.before m.move).faults

namespace Course

theorem faults_now (k : Course) : k.now.faults = k.faults :=
  (Conversation.proceeds_run k.moves).faults

/-- The outbound receiver is dropped only after termination. -/
theorem terminated_of_shut (k : Course) (shut : k.now.outflow.outbound.receiving = false) :
    k.now.outflow.terminated = true := by
  have run : k.origin.Proceeds True True k.now := Conversation.proceeds_run k.moves
  rcases run.outbound shut with before | ended
  · cases before
  · exact ended

/-- The registry is closed only after termination. -/
theorem terminated_of_closed (k : Course) (closed : k.now.inflow.registry.closed = true) :
    k.now.outflow.terminated = true := by
  have run : k.origin.Proceeds True True k.now := Conversation.proceeds_run k.moves
  rcases run.filters closed with before | ended
  · cases before
  · exact ended

/-- While a call of `join` is pending, the conversation value is gone. -/
theorem held_of_joining (k : Course) (joining : k.now.Joining) : k.now.held = false := by
  revert joining
  refine k.induction (P := fun _ now => now.Joining → now.held = false) ?_ ?_
  · rintro ⟨n, sender, stands⟩
    cases stands
  · rintro moves move j before ⟨n, sender, stands⟩
    rcases Moment.stood ⟨j.now, move⟩ stands with
      stood | ⟨-, leaves, -⟩ | ⟨_, _, _, _, -, -, turned⟩
    · exact (Conversation.proceeds_move j.now move).held (before ⟨n, sender, stood⟩)
    · exact leaves.resolve_left Bool.false_ne_true.symm
    · cases turned.turn with
      | plain running earlier later mild => cases later.2

/-- Without its own sender a conversation was moved or dropped, or `finish` was called. -/
theorem released_or_finished (k : Course) (barred : k.now.ownSender = false) :
    k.now.held = false ∨ ∃ m ∈ k.past, m.before.held = true ∧ m.move = .outside .finish := by
  revert barred
  refine k.induction (P := fun past now => now.ownSender = false → now.held = false ∨
    ∃ m ∈ past, m.before.held = true ∧ m.move = .outside .finish) ?_ ?_
  · exact fun barred => absurd barred Bool.false_ne_true.symm
  · intro moves move j before barred
    have step := Conversation.proceeds_move j.now move
    rcases step.own barred with earlier | released | finish | joining
    · refine (before earlier).imp step.held ?_
      rintro ⟨m, member, held, finish⟩
      exact ⟨m, List.mem_append_left _ member, held, finish⟩
    · exact .inl released
    · cases held : j.now.held with
      | false => exact .inl (step.held held)
      | true =>
        exact .inr ⟨_, List.mem_append_right _ (List.mem_singleton_self _), held, finish⟩
    · exact .inl (step.held (j.held_of_joining joining))

theorem finished_of_held (k : Course) (held : k.now.held = true)
    (barred : k.now.ownSender = false) : ∃ m ∈ k.past, m.move = .outside .finish := by
  rcases k.released_or_finished barred with released | ⟨m, member, -, finish⟩
  · cases released.symm.trans held
  · exact ⟨m, member, finish⟩

/-- A conversation value is gone only by `join` or by dropping it. -/
theorem joined_or_dropped (k : Course) (gone : k.now.held = false) :
    ∃ m ∈ k.past, m.before.held = true ∧
      (m.move = .outside .join ∨ m.move = .outside .dropOwn) := by
  revert gone
  refine k.induction (P := fun past now => now.held = false → ∃ m ∈ past, m.before.held = true ∧
    (m.move = .outside .join ∨ m.move = .outside .dropOwn)) ?_ ?_
  · exact fun gone => absurd gone Bool.false_ne_true.symm
  · intro moves move j before gone
    have step := Conversation.proceeds_move j.now move
    cases held : j.now.held with
    | false =>
      obtain ⟨m, member, left⟩ := before held
      exact ⟨m, List.mem_append_left _ member, left⟩
    | true =>
      have leave := (step.released gone).resolve_left fun earlier =>
        Bool.false_ne_true (earlier.symm.trans held)
      exact ⟨_, List.mem_append_right _ (List.mem_singleton_self _), held, leave⟩

/-- A conversation without its own sender was finished, joined or dropped. -/
theorem silenced (k : Course) (barred : k.now.ownSender = false) :
    ∃ m ∈ k.past, m.before.held = true ∧ (m.move = .outside .finish ∨
      m.move = .outside .join ∨ m.move = .outside .dropOwn) := by
  rcases k.released_or_finished barred with gone | ⟨m, member, held, finish⟩
  · obtain ⟨m, member, held, left⟩ := k.joined_or_dropped gone
    exact ⟨m, member, held, .inr left⟩
  · exact ⟨m, member, held, .inl finish⟩

end Course

end StanzaExchange
