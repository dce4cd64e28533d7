import StanzaExchange.Proofs.StreamEnd

/-!
Order on the outbound side (section 4.3 of the specification). The stanzas put on the outbound
channel are taken and written one by one, in that order. A stanza is lost only in two ways: its
write fails, or it is on the channel when the sender task exits. `Conveyed` is the account of all of
them.
-/
namespace StanzaExchange

open Outflow (Touch)

def Write.stanza? : Write → Option Stanza
  | .stanza found => some found
  | .streamEnd => none

/-- The stanzas written between two states of the wire. -/
def Wire.passed (before after : Wire) : List Stanza :=
  (gained before.writes after.writes).filterMap Write.stanza?

/-- The stanzas on the channel, after the one taken and not yet written. -/
def Outflow.inFlight (o : Outflow) : List Stanza := o.writer.inHand ++ o.outbound.queue

/-- The stanza taken from the channel between two states. -/
def Outflow.taken (o after : Outflow) : List Stanza :=
  if o.writer = .taking then after.writer.inHand else []

/-- The stanza whose write failed between two states. -/
def Outflow.refused (o after : Outflow) : List Stanza :=
  if after.writer = .taking ∧ o.wire.passed after.wire = [] then o.writer.inHand else []

namespace Moment

def written (m : Moment) : List Stanza := m.before.outflow.wire.passed m.after.outflow.wire

def taken (m : Moment) : List Stanza := m.before.outflow.taken m.after.outflow

def refused (m : Moment) : List Stanza := m.before.outflow.refused m.after.outflow

end Moment

namespace History

/-- The stanzas put on the outbound channel. -/
def queued (h : History) : List Stanza := h.flatMap Moment.queued

/-- The stanzas written. -/
def written (h : History) : List Stanza := h.flatMap Moment.written

/-- The stanzas taken from the outbound channel. -/
def taken (h : History) : List Stanza := h.flatMap Moment.taken

/-- The stanzas whose write failed. -/
def refused (h : History) : List Stanza := h.flatMap Moment.refused

variable {past : History} {m : Moment}

@[simp] theorem queued_concat : queued (past ++ [m]) = past.queued ++ m.queued := by simp [queued]

@[simp] theorem written_concat : written (past ++ [m]) = past.written ++ m.written := by
  simp [written]

@[simp] theorem taken_concat : taken (past ++ [m]) = past.taken ++ m.taken := by simp [taken]

@[simp] theorem refused_concat : refused (past ++ [m]) = past.refused ++ m.refused := by
  simp [refused]

theorem queued_append (more : History) : queued (past ++ more) = past.queued ++ more.queued :=
  List.flatMap_append

end History

namespace Outflow

variable {o after : Outflow} {faults : Faults} {producing : Bool} {events : List Event}

theorem passed_close (origin : Reporter) :
    o.wire.passed (o.close faults origin).2.1.wire = [] := by
  obtain ⟨marks, writes, none | one⟩ := writes_close faults o origin
  · simp [Wire.passed, writes, none]
  · simp [Wire.passed, writes, one, Write.stanza?]

theorem passed_touch (t : Touch) : o.wire.passed (o.touch faults t).wire = [] := by
  cases t with
  | close origin => exact passed_close origin
  | observe count =>
    have shorter : (o.wire.writes.drop count).length ≤ o.wire.writes.length := by simp
    simp [Wire.passed, touch, gained_of_le shorter]
  | abandon => simp [Wire.passed, touch, Wire.abandon, gained_of_le]
  | _ => simp [Wire.passed, touch]

theorem queue_touch (t : Touch) :
    (o.touch faults t).outbound.queue = o.outbound.queue ++ t.put? := by
  cases t <;> simp [touch, Touch.put?, Channel.withdraw, Channel.await]

theorem writer_touch (t : Touch) : (o.touch faults t).writer = o.writer := by
  cases t <;> simp [touch]

theorem hand_touch (t : Touch) :
    o.taken (o.touch faults t) = [] ∧ o.refused (o.touch faults t) = [] := by
  rw [taken, refused, writer_touch]
  constructor <;>
  · split
    next idle => simp [idle, Writer.inHand]
    · rfl

theorem hand_self (o : Outflow) : o.taken o = [] ∧ o.refused o = [] :=
  @hand_touch o .none .nothing

/-- Once writes are barred they stay so. -/
theorem Barred.close (barred : o.Barred faults) (origin : Reporter) :
    (o.close faults origin).2.1.Barred faults := by
  rw [close_eq]
  split
  · exact barred
  · rw [Barred, wire_writeEnd]
    split
    · exact barred
    · rw [sendEnd_snd]
      exact .inr (.inl rfl)

theorem Barred.touch (barred : o.Barred faults) (t : Touch) :
    (o.touch faults t).Barred faults := by
  cases t with
  | close origin => exact barred.close origin
  | abandon => exact .inr (.inr rfl)
  | _ => exact barred

/-- The account of one poll of the sender task: taken, written, failed and left. -/
structure Handles (faults : Faults) (o after : Outflow) (left : List Stanza) : Prop where
  queue : o.outbound.queue = o.taken after ++ after.outbound.queue ++ left
  inHand : o.writer.inHand ++ o.taken after =
    o.wire.passed after.wire ++ o.refused after ++ after.writer.inHand
  written : o.wire.passed after.wire ≠ [] → ¬o.Barred faults
  refused : o.refused after ≠ [] → o.Barred faults
  left : left ≠ [] → after.writer = .closed

/-- A poll of the sender task writes the stanza in hand, loses it to a failure, takes the next one,
or leaves everything. -/
theorem Advance.handles (step : Advance faults producing o events after) :
    ∃ left, Handles faults o after left := by
  cases step with
  | waits idle =>
    have still := o.hand_self
    exact ⟨[], by simp [still], by simp [still, Wire.passed], by simp [Wire.passed],
      by simp [still], by simp⟩
  | takes idle goes first =>
    refine ⟨[], ?_, ?_, by simp [Wire.passed], by simp [Outflow.refused], by simp⟩
    · simp [Outflow.taken, idle, first, Writer.inHand]
    · simp [Outflow.taken, Outflow.refused, idle, Writer.inHand, Wire.passed]
  | writes busy free =>
    refine ⟨[], by simp [Outflow.taken, busy], ?_, fun _ => free, ?_, by simp⟩ <;>
    · simp [Outflow.taken, Outflow.refused, busy, Writer.inHand, Wire.passed, Write.stanza?]
  | loses busy barred =>
    refine ⟨[], by simp [Outflow.taken, busy], ?_, by simp [Wire.passed], fun _ => barred, by simp⟩
    simp [Outflow.taken, Outflow.refused, busy, Writer.inHand, Wire.passed]
  | stops idle ended =>
    refine ⟨o.outbound.queue, ?_, ?_, by simp [stop, Wire.passed], ?_, fun _ => rfl⟩ <;>
    · simp [Outflow.taken, Outflow.refused, idle, Writer.inHand, stop, Channel.shut, Wire.passed]
  | ends idle goes empty alone =>
    have silent : o.wire.passed (o.close faults .writer).2.1.stop.wire = [] := passed_close .writer
    refine ⟨[], ?_, ?_, fun wrote => absurd silent wrote, ?_, by simp⟩
    · simp [Outflow.taken, idle, empty, Writer.inHand, stop, Channel.shut]
    · rw [silent]
      simp [Outflow.taken, Outflow.refused, idle, Writer.inHand, stop]
    · simp [Outflow.refused, stop]

theorem Advance.queue_le (step : Advance faults producing o events after) :
    after.outbound.queue.length ≤ o.outbound.queue.length := by
  cases step with
  | takes idle goes first => simp [first]
  | stops | ends => simp [stop, Channel.shut]
  | _ => exact Nat.le_refl _

theorem Barred.advance (barred : o.Barred faults) (step : Advance faults producing o events after) :
    after.Barred faults := by
  cases step with
  | ends => exact barred.close .writer
  | writes busy free => exact absurd barred free
  | _ => exact barred

theorem Advance.eq_of_closed (step : Advance faults producing o events after)
    (closed : o.writer = .closed) : after = o := by
  cases step with
  | waits => rfl
  | takes idle | stops idle | ends idle => cases closed.symm.trans idle
  | writes busy | loses busy => cases closed.symm.trans busy

end Outflow

namespace Moment

variable {m : Moment} {touch : Touch} {events : List Event}

theorem Stirs.queued (stirs : m.Stirs touch) : m.queued = touch.put? := by
  rw [Moment.queued, stirs.stirred.outflow, Outflow.queue_touch, gained_append]

theorem Stirs.written (stirs : m.Stirs touch) : m.written = [] := by
  rw [Moment.written, stirs.stirred.outflow, Outflow.passed_touch]

theorem Stirs.hand (stirs : m.Stirs touch) : m.taken = [] ∧ m.refused = [] := by
  rw [Moment.taken, Moment.refused, stirs.stirred.outflow]
  exact Outflow.hand_touch touch

theorem Writes.queued (writes : m.Writes events) : m.queued = [] :=
  gained_of_le writes.advance.queue_le

/-- Once writes of stanzas fail they fail for good. -/
theorem barred (m : Moment) (barred : m.before.outflow.Barred m.before.faults) :
    m.written = [] ∧ m.after.outflow.Barred m.after.faults := by
  rw [m.faults_after]
  rcases m.stirs_or_writes with ⟨touch, stirs⟩ | ⟨events, writes⟩
  · rw [stirs.stirred.outflow]
    exact ⟨stirs.written, barred.touch touch⟩
  · obtain ⟨left, handles⟩ := writes.advance.handles
    refine ⟨?_, barred.advance writes.advance⟩
    exact Classical.byContradiction fun wrote => handles.written wrote barred

/-- After the exit of the sender task nothing is put on the channel. -/
theorem stopped (m : Moment) (sound : m.before.outflow.Sound)
    (closed : m.before.outflow.writer = .closed) :
    m.queued = [] ∧ m.after.outflow.writer = .closed := by
  rcases m.stirs_or_writes with ⟨touch, stirs⟩ | ⟨events, writes⟩
  · rw [stirs.queued, stirs.stirred.outflow, Outflow.writer_touch]
    refine ⟨Classical.byContradiction fun puts => ?_, closed⟩
    exact sound.goes (stirs.stirred.fits.receiving puts) closed
  · rw [writes.queued, writes.advance.eq_of_closed closed]
    exact ⟨rfl, closed⟩

end Moment

/-- The stanza accepted in a step: of a `send` that ends, or of a query that gets to wait for its
reply. -/
def Moment.accepted (m : Moment) : List Stanza :=
  match m.move with
  | .step (.call n) =>
    match m.before.stands? n, m.after.stands? n with
    | some (_, before), some (_, after) => before.accepts after
    | _, _ => []
  | _ => []

/-- The stanzas accepted. -/
def History.accepted (h : History) : List Stanza := h.flatMap Moment.accepted

/-- The stanzas a call has accepted are those put on the outbound channel. -/
private theorem accepted_of_call (c : Conversation) (n : Nat) :
    Moment.accepted ⟨c, .step (.call n)⟩ = Moment.queued ⟨c, .step (.call n)⟩ := by
  have reached : Moment.after ⟨c, .step (.call n)⟩ = (c.callStep? n).getD c := rfl
  cases step : c.callStep? n with
  | none =>
    rw [step, Option.getD_none] at reached
    simp only [Moment.accepted, Moment.queued, reached, gained_self]
    cases c.stands? n with
    | none => rfl
    | some standing => exact standing.2.accepts_self
  | some after =>
    rw [step, Option.getD_some] at reached
    obtain ⟨call, touch, put, work, here, turned⟩ := Conversation.callStep?_turned step
    have before : c.stands? n = some (call.sender, call.work) := by
      simp [Conversation.stands?, here]
    have further : after.stands? n = some (call.sender, work) :=
      (Conversation.stands?_modify here turned.calls n).trans (if_pos rfl)
    simp only [Moment.accepted, Moment.queued, reached, turned.queue, gained_append, before,
      further]
    exact turned.turn.accepts.symm

theorem Moment.accepted_eq_queued (m : Moment) : m.accepted = m.queued := by
  by_cases calls : ∃ n, m.move = .step (.call n)
  · obtain ⟨c, move⟩ := m
    obtain ⟨n, rfl⟩ := calls
    exact accepted_of_call c n
  · have none : m.accepted = [] := by
      unfold accepted
      split
      next n move => exact absurd ⟨n, move⟩ calls
      · rfl
    rw [none]
    rcases m.stirs_or_writes with ⟨touch, stirs⟩ | ⟨events, writes⟩
    · rw [stirs.queued]
      exact (Classical.byContradiction fun puts => calls (stirs.puts puts)).symm
    · exact writes.queued.symm

theorem History.accepted_eq_queued (h : History) : h.accepted = h.queued :=
  congrArg (h.flatMap ·) (funext Moment.accepted_eq_queued)

/-- A query that is put on the channel and waits for its reply from then on. -/
structure Moment.Submits (m : Moment) (n : Nat) (query : Query) : Prop where
  queued : m.queued = [.iq query.iq]
  before : ∃ sender work, m.before.stands? n = some (sender, work) ∧
    (work = .queryOffering query ∨ work = .queryWaiting query)
  after : ∃ sender, m.after.stands? n = some (sender, .queryAwaiting query)

/-- A turn into the awaiting state has put the request on the outbound channel. -/
theorem Moment.Submits.of_turned {m : Moment} {n : Nat} {query : Query} {call : Call}
    {givenUp : Bool} {touch : Inflow.Touch} {put : List Stanza}
    (here : m.before.calls[n]? = some call)
    (turned : m.before.Turned n call givenUp touch put (.queryAwaiting query) m.after) :
    m.Submits n query := by
  have before : m.before.stands? n = some (call.sender, call.work) := by
    simp [Conversation.stands?, here]
  have after := Conversation.stands?_modify here turned.calls n
  cases turned.turn with
  | plain running earlier later mild => cases later.1
  | queues unsent =>
    refine ⟨?_, ⟨_, _, before, unsent⟩, _, after.trans (if_pos rfl)⟩
    rw [Moment.queued, turned.queue, gained_append]

/-- The account of the channel and of the task: put = taken ++ queued ++ left, taken = written or
failed ++ in hand. -/
structure Handled (past : History) (now : Conversation) (left : List Stanza) : Prop where
  queued : past.queued = past.taken ++ now.outflow.outbound.queue ++ left
  taken : past.taken = past.written ++ past.refused ++ now.outflow.writer.inHand
  refused : past.refused ≠ [] → now.outflow.Barred now.faults
  left : left ≠ [] → now.outflow.writer = .closed

namespace Handled

variable {past : History} {m : Moment} {touch : Touch} {events : List Event} {left : List Stanza}

/-- The account is preserved by all moves other than those of the sender task. -/
theorem of_stirs (before : Handled past m.before left) (sound : m.before.outflow.Sound)
    (stirs : m.Stirs touch) : Handled (past ++ [m]) m.after left := by
  have outflow := stirs.stirred.outflow
  obtain ⟨taken, refused⟩ := stirs.hand
  refine ⟨?_, ?_, fun any => ?_, fun any => ?_⟩
  · rw [History.queued_concat, History.taken_concat, stirs.queued, taken, outflow,
      Outflow.queue_touch, before.queued]
    by_cases puts : touch.put? = []
    · simp [puts]
    · have goes := sound.goes (stirs.stirred.fits.receiving puts)
      have none : left = [] := Classical.byContradiction fun any => goes (before.left any)
      simp [none]
  · simp [taken, refused, stirs.written, outflow, Outflow.writer_touch, before.taken]
  · rw [m.faults_after, outflow]
    exact (before.refused (by simpa [refused] using any)).touch touch
  · rw [outflow, Outflow.writer_touch]
    exact before.left any

/-- The account is preserved by the sender task. -/
theorem of_writes (before : Handled past m.before left) (writes : m.Writes events) :
    ∃ left, Handled (past ++ [m]) m.after left := by
  have queued : History.queued (past ++ [m]) = past.queued := by simp [writes.queued]
  -- a stopped sender task makes no step, and a running one has discarded nothing
  by_cases closed : m.before.outflow.writer = .closed
  · have still := writes.advance.eq_of_closed closed
    have silent : m.written = [] ∧ m.taken = [] ∧ m.refused = [] := by
      simp [Moment.written, Moment.taken, Moment.refused, Wire.passed, Outflow.taken,
        Outflow.refused, still, closed]
    refine ⟨left, ?_, ?_, fun any => ?_, fun _ => ?_⟩
    · rw [queued, History.taken_concat, silent.2.1, still, before.queued, List.append_nil]
    · simp [silent, still, before.taken]
    · rw [m.faults_after, still]
      exact before.refused (by simpa [silent] using any)
    · rw [still]
      exact closed
  · have none : left = [] := Classical.byContradiction fun any => closed (before.left any)
    obtain ⟨rest, handles⟩ := writes.advance.handles
    have barred : past.refused ≠ [] → m.written = [] ∧ m.after.outflow.Barred m.after.faults :=
      fun any => m.barred (before.refused any)
    refine ⟨rest, ?_, ?_, fun any => ?_, handles.left⟩
    · rw [queued, History.taken_concat, before.queued, handles.queue, none, Moment.taken]
      simp
    · -- nothing is written any more once something was given up
      have kept : past.refused ++ m.written = m.written ++ past.refused := by
        by_cases all : past.refused = []
        · simp [all]
        · simp [(barred all).1]
      calc History.taken (past ++ [m])
          = past.written ++ past.refused ++ (m.before.outflow.writer.inHand ++ m.taken) := by
            simp [before.taken]
        _ = past.written ++ (past.refused ++ m.written) ++ m.refused
              ++ m.after.outflow.writer.inHand := by
            rw [Moment.taken, handles.inHand, Moment.written, Moment.refused]
            simp
        _ = _ := by simp [kept]
    · by_cases all : past.refused = []
      · have now : m.refused ≠ [] := by simpa [all] using any
        rw [m.faults_after]
        exact (handles.refused now).advance writes.advance
      · exact (barred all).2

end Handled

/-- The account of an execution: what was put on the channel was written, lost, is in flight, or was
left, in this order. -/
structure Conveyed (past : History) (now : Conversation) (lost left : List Stanza) : Prop where
  queued : past.queued = past.written ++ lost ++ now.outflow.inFlight ++ left
  lost : lost ≠ [] → now.outflow.Barred now.faults
  left : left ≠ [] → now.outflow.writer = .closed

namespace Course

theorem handled (k : Course) : ∃ left, Handled k.past k.now left := by
  refine k.induction (P := fun past now => ∃ left, Handled past now left) ?_ ?_
  · exact ⟨[], rfl, rfl, by simp [History.refused], by simp⟩
  · rintro moves move j ⟨left, before⟩
    rcases Moment.stirs_or_writes ⟨j.now, move⟩ with ⟨touch, stirs⟩ | ⟨events, writes⟩
    · exact ⟨left, before.of_stirs j.sound stirs⟩
    · exact before.of_writes writes

theorem conveyed (k : Course) : ∃ lost left, Conveyed k.past k.now lost left := by
  obtain ⟨left, handled⟩ := k.handled
  refine ⟨k.past.refused, left, ?_, handled.refused, handled.left⟩
  rw [handled.queued, handled.taken, Outflow.inFlight]
  simp

theorem written_of_barred (k : Course) (barred : k.now.outflow.Barred k.now.faults)
    (more : List Move) : (k.andThen more).past.written = k.past.written :=
  seen_andThen Moment.written (P := fun now => now.outflow.Barred now.faults)
    (fun now move => Moment.barred ⟨now, move⟩) barred more

/-- After the stream end nothing is written. -/
theorem written_of_terminated (k : Course) (faultless : k.faults.sendEnd = false)
    (ended : k.now.outflow.terminated = true) (more : List Move) :
    (k.andThen more).past.written = k.past.written :=
  k.written_of_barred (.inr (.inl ((k.endsOnce faultless).ended.trans ended))) more

theorem queued_of_stopped (k : Course) (closed : k.now.outflow.writer = .closed)
    (more : List Move) : (k.andThen more).past.queued = k.past.queued := by
  refine seen_andThen Moment.queued (P := fun now => now.outflow.writer = .closed ∧
    now.outflow.Sound) ?_ ⟨closed, k.sound⟩ more
  rintro now move ⟨closed, sound⟩
  obtain ⟨unput, still⟩ := Moment.stopped ⟨now, move⟩ sound closed
  exact ⟨unput, still, Moment.sound_after ⟨now, move⟩ sound⟩

/-- A query that waits for its reply was put on the channel by a step of its call. -/
theorem submitted (k : Course) {n : Nat} {sender : Bool} {query : Query}
    (awaiting : k.now.stands? n = some (sender, .queryAwaiting query)) :
    ∃ m ∈ k.past, m.Submits n query := by
  revert awaiting
  refine k.induction (P := fun past now => now.stands? n = some (sender, .queryAwaiting query) →
    ∃ m ∈ past, m.Submits n query) (fun none => by cases none) ?_
  intro moves move j before awaiting
  rcases Moment.stood ⟨j.now, move⟩ awaiting with stood | ⟨fresh, -⟩ | ⟨_, _, _, _, here, -, turned⟩
  · obtain ⟨m, member, submits⟩ := before stood
    exact ⟨m, List.mem_append_left _ member, submits⟩
  · cases fresh
  · exact ⟨_, List.mem_append_right _ (List.mem_singleton_self _), .of_turned here turned⟩

end Course

end StanzaExchange
