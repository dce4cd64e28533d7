import StanzaExchange.Proofs.OutboundOrder
import StanzaExchange.Proofs.ReadingEnd

/-!
The order of teardown (sections 4.4 and 9 of the specification). The last poll of the receiver task
ends the stream, then closes the registry, and the inbound channel closes with the task. One poll is
one step of the model, so the states between these effects are listed as `points`, with
`Conversation.withoutFilters` and `Conversation.withoutInbound` for the second and the third effect;
the poll of a closing task ends in the last of them.

The guard and the write of the stream end are one transition here: with the in-process transport the
write does not suspend, so no other task is polled in between. Interleavings of two threads within
one poll are outside the model.
-/
namespace StanzaExchange

namespace Registry

variable {r : Registry}

/-- A closed registry: no filter is active, and all are marked removed. -/
structure Cleared (r : Registry) : Prop where
  closed : r.closed = true
  active : r.active = []
  removed : ∀ id, r.isRemoved id = true

theorem WellFormed.cleared (sound : r.WellFormed) (closed : r.closed = true) : r.Cleared where
  closed := closed
  active := sound.closed closed
  removed id := by
    have inactive : id ∉ r.active := by simp [sound.closed closed]
    simpa using mt (sound.active_iff id).mpr inactive

/-- A filter registered after close is removed from the start. -/
theorem Cleared.add (cleared : r.Cleared) (matcher : Matcher) :
    (r.add matcher).isRemoved r.nextId = true := by
  rw [isRemoved_add, if_pos rfl]
  exact cleared.closed

end Registry

theorem Outcome.ofReply_ne_joined (found : Option Stanza) : Outcome.ofReply found ≠ .joined := by
  unfold ofReply
  split
  · nofun
  · split <;> nofun
  · nofun

namespace Conversation

variable {c : Conversation}

/-- The receiver task has ended the stream and closed the registry. -/
def withoutFilters (c : Conversation) : Conversation :=
  let ended := (c.close .reader).2
  ended.setRegistry ended.inflow.registry.close

/-- The receiver task has ended, and the inbound channel with it. -/
def withoutInbound (c : Conversation) : Conversation :=
  let closed := c.withoutFilters
  { closed with inflow := { closed.inflow with reader := .closed } }.report .reader
    [.readerClosed c.inflow.registry.entries.length]

/-- The states passed within the next step, the current one first. Only the last poll of the
receiver task has further ones. -/
def points (c : Conversation) : List Conversation :=
  if c.inflow.reader = .closing then [c, (c.close .reader).2, c.withoutFilters] else [c]

/-- The last poll of the receiver task ends in the last of its points. -/
theorem readerStep?_closing (closing : c.inflow.reader = .closing) :
    c.readerStep? = some c.withoutInbound := by
  rw [readerStep?, if_pos closing]
  rfl

/-- The inbound channel has ended only if the receiver task has exited. -/
theorem closed_of_receive (ended : (c.act .receive).1 = .nothing) : c.inflow.reader = .closed := by
  rw [answer_receive] at ended
  split at ended
  · split at ended
    · cases ended
    · split at ended
      next closed => exact closed
      · cases ended
  · cases ended

theorem mem_points {point : Conversation} (passed : point ∈ c.points) : point = c ∨
    c.inflow.reader = .closing ∧ (point = (c.close .reader).2 ∨ point = c.withoutFilters) := by
  unfold points at passed
  split at passed
  next closing =>
    exact (List.mem_cons.mp passed).imp_right fun later => ⟨closing, by simpa using later⟩
  · exact .inl (List.mem_singleton.mp passed)

theorem self_mem_points (c : Conversation) : c ∈ c.points := by
  unfold points
  split <;> exact List.mem_cons_self

/-- At the intermediate points the receiver task has not ended. -/
theorem eq_of_closed_point {point : Conversation} (passed : point ∈ c.points)
    (closed : point.inflow.reader = .closed) : point = c := by
  rcases mem_points passed with same | ⟨closing, rfl | rfl⟩
  · exact same
  · cases closing.symm.trans closed
  · cases closing.symm.trans closed

/-- Both tasks have ended. -/
def Stopped (c : Conversation) : Prop :=
  c.inflow.reader = .closed ∧ c.outflow.writer = .closed

/-- Nothing goes on: both tasks have ended, the stream was ended once, and no filter is active. -/
structure Over (c : Conversation) : Prop where
  stopped : c.Stopped
  endWrites : c.outflow.wire.endWrites = 1
  filters : c.inflow.registry.Cleared
  closes : ∀ via, c.unreachable? via = none → (c.act (.close via)).1 = .flag false
  adds : ∀ via matcher, c.unreachable? via = none →
    (c.act (.addFilter via matcher)).1 = .filterId c.inflow.registry.nextId ∧
      (c.act (.addFilter via matcher)).2.inflow.registry.isRemoved c.inflow.registry.nextId = true

/-- `join` completes when both tasks have ended. -/
theorem Turn.stopped {call : Call} {givenUp : Bool} {touch : Inflow.Touch} {put : List Stanza}
    (turn : Turn c call givenUp touch put (.done .joined)) : c.Stopped := by
  generalize joined : Work.done .joined = work at turn
  cases turn with
  | plain running before after mild puts grounds =>
    subst joined
    exact grounds
  | answered | deserted => exact absurd (Work.done.inj joined).symm (Outcome.ofReply_ne_joined _)
  | registers | waits | queues | refused | expires | forgets | abandons => cases joined

end Conversation

theorem Moment.stopped_after (m : Moment) (sound : m.before.outflow.Sound)
    (stopped : m.before.Stopped) : m.after.Stopped :=
  ⟨m.closed_after stopped.1, (m.stopped sound stopped.2).2⟩

namespace Course

theorem cleared (k : Course) (closed : k.now.inflow.reader = .closed) :
    k.now.inflow.registry.Cleared :=
  k.wellFormed.cleared (k.closed_iff.mpr closed)

/-- A closed registry implies a stream end. -/
theorem endWrites_of_closed (k : Course) (faultless : k.faults.sendEnd = false)
    (closed : k.now.inflow.registry.closed = true) :
    k.now.outflow.terminated = true ∧ k.now.outflow.wire.endWrites = 1 := by
  have terminated := k.terminated_of_closed closed
  exact ⟨terminated, by rw [(k.endsOnce faultless).endWrites, if_pos terminated]⟩

/-- The same at every point of a step: the registry is closed after the end of the stream was
written, by whichever origin. -/
theorem endWrites_of_closed_point (k : Course) (faultless : k.faults.sendEnd = false)
    {point : Conversation} (passed : point ∈ k.now.points)
    (closed : point.inflow.registry.closed = true) :
    point.outflow.terminated = true ∧ point.outflow.wire.endWrites = 1 := by
  rcases Conversation.mem_points passed with rfl | ⟨closing, rfl | rfl⟩
  · exact k.endWrites_of_closed faultless closed
  · cases closing.symm.trans (k.closed_iff.mp closed)
  · have faults : k.now.faults.sendEnd = false := by rw [k.faults_now]; exact faultless
    have once : k.now.withoutFilters.outflow.EndsOnce :=
      (k.endsOnce faultless).close faults .reader
    have terminated : k.now.withoutFilters.outflow.terminated = true := Outflow.terminated_close
    exact ⟨terminated, once.endWrites.trans (if_pos terminated)⟩

/-- Both tasks have ended when a call of `join` has completed. -/
theorem stopped_of_joined (k : Course) {n : Nat} {sender : Bool}
    (joined : k.now.stands? n = some (sender, .done .joined)) : k.now.Stopped := by
  revert joined
  refine k.induction (P := fun _ now => now.stands? n = some (sender, .done .joined) →
    now.Stopped) (nomatch ·) ?_
  intro moves move j before joined
  refine Moment.stopped_after ⟨j.now, move⟩ j.sound ?_
  rcases Moment.stood ⟨j.now, move⟩ joined with stood | ⟨fresh, -⟩ | ⟨_, _, _, _, -, -, turned⟩
  · exact before stood
  · cases fresh
  · exact turned.turn.stopped

theorem stopped_andThen (k : Course) (stopped : k.now.Stopped) (more : List Move) :
    (k.andThen more).now.Stopped := by
  rw [k.now_andThen]
  refine (Conversation.run_keeps (P := fun now => now.Stopped ∧ now.outflow.Sound) ?_
    ⟨stopped, k.sound⟩ more).1
  rintro now move ⟨stopped, sound⟩
  exact ⟨Moment.stopped_after ⟨now, move⟩ sound stopped, Moment.sound_after ⟨now, move⟩ sound⟩

/-- When both tasks have ended nothing goes on. -/
theorem over_of_stopped (k : Course) (faultless : k.faults.sendEnd = false)
    (stopped : k.now.Stopped) : k.now.Over := by
  have filters := k.cleared stopped.1
  obtain ⟨terminated, endWrites⟩ := k.endWrites_of_closed faultless filters.closed
  refine ⟨stopped, endWrites, filters, fun via reached => ?_, fun via matcher reached => ?_⟩
  · simp [Conversation.act, Conversation.reaching, reached, Conversation.close, Outflow.close_fst,
      terminated]
  · simp only [Conversation.act, Conversation.reaching, reached]
    exact ⟨trivial, filters.add matcher⟩

/-- Teardown in order. The poll of a closing receiver task ends in `withoutInbound`, the last of its
points. At every point a closed inbound channel implies a closed and empty registry with all filters
removed, and a closed registry implies a terminated stream with one end write. Once a call of `join`
has completed nothing goes on, and this is stable under all further moves. -/
theorem torn_down_in_order (k : Course) (faultless : k.faults.sendEnd = false) :
    (k.now.inflow.reader = .closing → k.now.readerStep? = some k.now.withoutInbound) ∧
    (∀ point ∈ k.now.points,
      ((point.act .receive).1 = .nothing → point.inflow.registry.Cleared) ∧
      (point.inflow.registry.closed = true →
        point.outflow.terminated = true ∧ point.outflow.wire.endWrites = 1)) ∧
    (∀ n sender, k.now.stands? n = some (sender, .done .joined) →
      ∀ more, (k.andThen more).now.Over) := by
  refine ⟨Conversation.readerStep?_closing, fun point passed => ⟨fun ended => ?_,
    k.endWrites_of_closed_point faultless passed⟩, fun n sender joined more => ?_⟩
  · have closed := Conversation.closed_of_receive ended
    obtain rfl := Conversation.eq_of_closed_point passed closed
    exact k.cleared closed
  · exact (k.andThen more).over_of_stopped faultless
      (k.stopped_andThen (k.stopped_of_joined joined) more)

/-- The peer hangs up; a filter is registered before, another one while the receiver task closes. -/
def desolate : Course where
  jid := ⟨none, "example", none⟩
  settings := {}
  moves :=
    [.outside (.addFilter .own .failures), .outside .handle, .outside .hangUp, .step .reader,
      .step .reader, .outside (.addFilter (.handle 0) (.named "message")), .step .reader,
      .outside .receive]

/-- Right before the last poll of the receiver task. -/
def forsaken : Course := { desolate with moves := desolate.moves.take 6 }

/-- Then the application joins the conversation. -/
def concluded : Course := desolate.andThen
  [.outside .join, .step (.call 0), .step (.call 0), .step .writer, .step (.call 0)]

theorem torn_down_in_order_concluded :
    forsaken.now.inflow.reader = .closing ∧
      forsaken.now.readerStep? = some forsaken.now.withoutInbound ∧
      (desolate.now.act .receive).1 = .nothing ∧ desolate.now.inflow.registry.Cleared ∧
      desolate.now.outflow.wire.endWrites = 1 ∧
      concluded.now.stands? 0 = some (false, .done .joined) ∧
      (∀ more, (concluded.andThen more).now.Over) ∧
      (concluded.now.act (.close (.handle 0))).1 = .flag false ∧
      (concluded.now.act (.addFilter (.handle 0) .failures)).1 = .filterId 2 := by
  have ended : (desolate.now.act .receive).1 = .nothing := by decide +kernel
  have joined : concluded.now.stands? 0 = some (false, .done .joined) := by decide +kernel
  have closing : forsaken.now.inflow.reader = .closing := by decide +kernel
  obtain ⟨step, -⟩ := forsaken.torn_down_in_order rfl
  obtain ⟨-, points, -⟩ := desolate.torn_down_in_order rfl
  obtain ⟨-, -, rests⟩ := concluded.torn_down_in_order rfl
  obtain ⟨inbound, filters⟩ := points desolate.now (Conversation.self_mem_points _)
  have later := rests 0 false joined
  exact ⟨closing, step closing, ended, inbound ended, (filters (inbound ended).closed).2, joined,
    later, (later []).closes (.handle 0) (by decide +kernel), by decide +kernel⟩

end Course

end StanzaExchange
