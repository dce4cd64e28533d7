import StanzaExchange.Proofs.OutboundOrder

/-!
The outgoing stream as the peer sees it: the stanzas in the order in which they were accepted, and
the stream end behind them, once. After termination the stanza that the sender task has taken is
lost and the queue is discarded; the number of discarded stanzas is reported.
-/
namespace StanzaExchange

open Outflow (Touch)

namespace Outflow

variable {o after : Outflow} {faults : Faults} {origin : Reporter} {producing : Bool}
  {events : List Event}

/-- The stream end, if it was written between two states. -/
def mark (o after : Outflow) : List Write :=
  if after.terminated && !o.terminated then [.streamEnd] else []

@[simp] theorem listening_close :
    (o.close faults origin).2.1.wire.listening = o.wire.listening := by
  rw [close_eq]
  split
  · rfl
  · rw [wire_writeEnd]
    split
    · rfl
    · rw [sendEnd_snd]

/-- A termination attempt writes the stream end, if it is the first one. -/
theorem EndsOnce.writes_close (once : o.EndsOnce) (faultless : faults.sendEnd = false)
    (heard : o.wire.listening = true) :
    (o.close faults origin).2.1.wire.writes =
      o.wire.writes ++ o.mark (o.close faults origin).2.1 := by
  rw [mark, terminated_close, close_eq]
  cases ended : o.terminated with
  | true => simp
  | false =>
    have goes : o.wire.ended = false := once.ended.trans ended
    simp [wire_writeEnd, faultless, sendEnd_snd, goes, heard]

/-- A peer that was dropped stays dropped. -/
theorem listening_of_touch {t : Touch} (heard : (o.touch faults t).wire.listening = true) :
    o.wire.listening = true := by
  cases t with
  | close origin => simpa [touch] using heard
  | abandon => cases heard
  | _ => exact heard

theorem Advance.listening (step : Advance faults producing o events after) :
    after.wire.listening = o.wire.listening := by
  cases step <;> simp [stop]

/-- The wire across moves of others: observed in front, the stream end behind. -/
theorem EndsOnce.writes_touch (once : o.EndsOnce) (faultless : faults.sendEnd = false) (t : Touch)
    (heard : (o.touch faults t).wire.listening = true) :
    t.observed o.wire ++ (o.touch faults t).wire.writes =
      o.wire.writes ++ o.mark (o.touch faults t) := by
  cases t with
  | close origin => exact once.writes_close faultless (listening_of_touch heard)
  | abandon => cases heard
  | _ => simp [Touch.observed, Outflow.touch, mark]

/-- The wire across a poll of the sender task: one stanza or the stream end behind. -/
theorem EndsOnce.writes_advance (once : o.EndsOnce) (faultless : faults.sendEnd = false)
    (step : Advance faults producing o events after) (heard : after.wire.listening = true) :
    after.wire.writes =
      o.wire.writes ++ (o.wire.passed after.wire).map .stanza ++ o.mark after := by
  rw [step.listening] at heard
  cases step with
  | ends =>
    have silent : o.wire.passed (o.close faults .writer).2.1.stop.wire = [] := passed_close .writer
    rw [silent, List.map_nil, List.append_nil]
    exact once.writes_close faultless heard
  | writes => simp [Wire.passed, Write.stanza?, mark]
  | waits | takes | loses | stops => simp [Wire.passed, mark, stop]

/-- The task takes no stanza after termination, and one at a time. -/
theorem Advance.free_of_taken (step : Advance faults producing o events after)
    (takes : o.taken after ≠ []) : o.terminated = false ∧ o.writer.inHand = [] := by
  cases step with
  | waits => exact absurd o.hand_self.1 takes
  | takes idle goes => exact ⟨goes, by rw [idle]; rfl⟩
  | writes busy | loses busy => simp [taken, busy] at takes
  | stops | ends => simp [taken, stop, Writer.inHand] at takes

/-- The task reports its stop with the number of stanzas it discards. -/
theorem Advance.stopped_mem (step : Advance faults producing o events after) (pending : Nat) :
    .writerStopped pending ∈ events ↔
      o.writer = .taking ∧ o.terminated = true ∧ pending = o.outbound.queue.length := by
  cases step with
  | waits idle =>
    cases idle with
    | finished closed => simp [closed]
    | unasked idle goes => simp [goes]
    | held busy => simp [busy]
  | takes idle goes first traces => rcases traces with rfl | rfl <;> simp [goes]
  | writes busy | loses busy => simp [busy]
  | stops idle ended => simp [idle, ended]
  | ends idle goes =>
    have other : .writerStopped pending ∉ (o.close faults .writer).2.2 := fun member =>
      Bool.false_ne_true (tellsEnd_close _ member)
    simp [goes, other]

/-- The task exits after termination, or in the poll in which it terminates the stream. -/
theorem Advance.closed_iff (step : Advance faults producing o events after) :
    after.writer = .closed ↔
      o.writer = .closed ∨ (o.writer = .taking ∧ o.terminated = true) ∨
        o.asks producing = true := by
  cases step with
  | waits idle =>
    cases idle with
    | finished closed => simp [closed]
    | unasked idle goes empty more => simp [asks, idle, goes, more]
    | held busy => simp [asks, busy]
  | takes idle goes first => simp [asks, idle, goes, first]
  | writes busy | loses busy => simp [asks, busy]
  | stops idle ended => simp [stop, idle, ended]
  | ends idle goes empty alone => simp [stop, asks, idle, goes, empty, alone]

end Outflow

/-- The writes that the peer received. -/
def History.observed (h : History) : List Write := h.flatMap Moment.observed

@[simp] theorem History.observed_concat {past : History} {m : Moment} :
    observed (past ++ [m]) = past.observed ++ m.observed := by
  simp [observed]

namespace Moment

variable {m : Moment}

theorem listening_of_after (m : Moment) (heard : m.after.outflow.wire.listening = true) :
    m.before.outflow.wire.listening = true := by
  rcases m.stirs_or_writes with ⟨touch, stirs⟩ | ⟨events, writes⟩
  · rw [stirs.stirred.outflow] at heard
    exact Outflow.listening_of_touch heard
  · exact writes.advance.listening.symm.trans heard

/-- The wire across one step. -/
theorem writes_after (m : Moment) (once : m.before.outflow.EndsOnce)
    (faultless : m.before.faults.sendEnd = false)
    (heard : m.after.outflow.wire.listening = true) :
    m.observed ++ m.after.outflow.wire.writes = m.before.outflow.wire.writes ++
      m.written.map .stanza ++ m.before.outflow.mark m.after.outflow := by
  rcases m.stirs_or_writes with ⟨touch, stirs⟩ | ⟨events, writes⟩
  · rw [stirs.stirred.outflow] at heard ⊢
    rw [stirs.observed, stirs.written, List.map_nil, List.append_nil]
    exact once.writes_touch faultless touch heard
  · rw [writes.observed]
    exact once.writes_advance faultless writes.advance heard

/-- A stanza taken from the channel is written, lost to a failure, or still in hand. -/
theorem inHand_after (m : Moment) :
    m.before.outflow.writer.inHand ++ m.taken =
      m.written ++ m.refused ++ m.after.outflow.writer.inHand := by
  rcases m.stirs_or_writes with ⟨touch, stirs⟩ | ⟨events, writes⟩
  · obtain ⟨taken, refused⟩ := stirs.hand
    simp [taken, refused, stirs.written, stirs.stirred.outflow, Outflow.writer_touch]
  · obtain ⟨left, handles⟩ := writes.advance.handles
    exact handles.inHand

theorem free_of_taken (takes : m.taken ≠ []) :
    m.before.outflow.terminated = false ∧ m.before.outflow.writer.inHand = [] := by
  rcases m.stirs_or_writes with ⟨touch, stirs⟩ | ⟨events, writes⟩
  · exact absurd stirs.hand.1 takes
  · exact writes.advance.free_of_taken takes

/-- A write of a stanza fails only if the wire refuses it. -/
theorem barred_of_refused (refuses : m.refused ≠ []) :
    m.before.outflow.Barred m.before.faults := by
  rcases m.stirs_or_writes with ⟨touch, stirs⟩ | ⟨events, writes⟩
  · exact absurd stirs.hand.2 refuses
  · obtain ⟨left, handles⟩ := writes.advance.handles
    exact handles.refused refuses

end Moment

/-- The task has reported that so many stanzas were discarded. -/
def Conversation.Leaves (c : Conversation) (pending : Nat) : Prop :=
  ⟨.writer, .writerStopped pending⟩ ∈ c.journal

theorem Conversation.leaves_iff {c : Conversation} {pending : Nat} :
    c.Leaves pending ↔ ⟨.writer, .writerStopped pending⟩ ∈ c.outReports := by
  rw [outReports, List.mem_reverse, List.mem_filter]
  exact (and_iff_left rfl).symm

theorem Moment.Stirs.leaves {m : Moment} {touch : Touch} (stirs : m.Stirs touch) (pending : Nat) :
    m.after.Leaves pending ↔ m.before.Leaves pending := by
  rw [Conversation.leaves_iff, Conversation.leaves_iff, stirs.stirred.told, List.mem_append]
  refine or_iff_left fun told => ?_
  cases asks : touch.closer? with
  | none => simp [asks] at told
  | some origin =>
    simp only [asks, Option.map_some, Option.getD_some] at told
    obtain ⟨event, announced, same⟩ := List.mem_map.mp told
    cases same
    exact Bool.false_ne_true (Outflow.tellsEnd_close _ announced)

theorem Moment.Writes.leaves {m : Moment} {events : List Event} (writes : m.Writes events)
    (pending : Nat) :
    m.after.Leaves pending ↔ m.before.Leaves pending ∨ m.before.outflow.writer = .taking ∧
      m.before.outflow.terminated = true ∧ pending = m.before.outflow.outbound.queue.length := by
  rw [Conversation.leaves_iff, Conversation.leaves_iff, writes.told, List.mem_append,
    ← writes.advance.stopped_mem]
  simp

/-- The reports at the exit of the sender task: `outbound_closed` if it terminated the stream
itself, and otherwise the number of stanzas never taken. -/
structure Reported (past : History) (now : Conversation) : Prop where
  asked : .writer ∈ past.closers → now.outflow.writer = .closed
  leaves : ∀ pending, now.Leaves pending ↔ now.outflow.writer = .closed ∧
    .writer ∉ past.closers ∧ past.taken.length + pending = past.queued.length

namespace Reported

variable {past : History} {m : Moment} {touch : Touch} {events : List Event} {left : List Stanza}

/-- The report is preserved by all moves other than those of the sender task. -/
theorem of_stirs (before : Reported past m.before) (sound : m.before.outflow.Sound)
    (stirs : m.Stirs touch) : Reported (past ++ [m]) m.after := by
  have writer : m.after.outflow.writer = m.before.outflow.writer := by
    rw [stirs.stirred.outflow, Outflow.writer_touch]
  have asks : .writer ∈ History.closers (past ++ [m]) ↔ .writer ∈ past.closers := by
    rw [History.closers_concat, List.mem_append, Option.mem_toList]
    exact or_iff_left stirs.other
  refine ⟨fun asked => writer.trans (before.asked (asks.mp asked)), fun pending => ?_⟩
  rw [stirs.leaves, before.leaves, writer, asks, History.taken_concat, stirs.hand.1,
    List.append_nil]
  refine and_congr_right fun closed => ?_
  rw [History.queued_concat, (m.stopped sound closed).1, List.append_nil]

/-- The report is preserved by the sender task. -/
theorem of_writes (before : Reported past m.before) (handled : Handled past m.before left)
    (writes : m.Writes events) : Reported (past ++ [m]) m.after := by
  have closed_iff := writes.advance.closed_iff
  have queued : History.queued (past ++ [m]) = past.queued := by simp [writes.queued]
  have asks : .writer ∈ History.closers (past ++ [m]) ↔ .writer ∈ past.closers ∨
      m.before.outflow.asks m.before.producing = true := by
    rw [History.closers_concat, List.mem_append, Option.mem_toList, writes.closer?]
    simp
  refine ⟨fun asked => ?_, fun pending => ?_⟩
  · exact closed_iff.mpr ((asks.mp asked).imp before.asked .inr)
  · rw [writes.leaves, before.leaves, closed_iff, asks, queued, History.taken_concat]
    have still : m.before.outflow.terminated = true → m.taken = [] := fun ended =>
      Classical.byContradiction fun takes =>
        Bool.false_ne_true ((Moment.free_of_taken takes).1.symm.trans ended)
    by_cases closed : m.before.outflow.writer = .closed
    · have untaken : m.taken = [] := by simp [Moment.taken, Outflow.taken, closed]
      simp [closed, untaken, Outflow.asks]
    · have fresh : .writer ∉ past.closers := fun asked => closed (before.asked asked)
      by_cases stops : m.before.outflow.writer = .taking ∧ m.before.outflow.terminated = true
      · -- all that was put on the channel was taken, or still is there
        have none : left = [] := Classical.byContradiction fun any => closed (handled.left any)
        have account : past.queued.length =
            past.taken.length + m.before.outflow.outbound.queue.length := by
          simp [handled.queued, none]
        have other : m.before.outflow.asks m.before.producing = false := by
          simp [Outflow.asks, stops.2]
        simp [fresh, stops, other, still stops.2, account]
      · have silent : ¬(m.before.outflow.writer = .taking ∧
            m.before.outflow.terminated = true ∧
              pending = m.before.outflow.outbound.queue.length) :=
          fun leaves => stops ⟨leaves.1, leaves.2.1⟩
        simp only [closed, fresh, stops, silent, false_and, false_or, or_false]
        exact iff_of_false id fun late => late.2.1 late.1

end Reported

namespace Course

/-- Received and unobserved writes are the written stanzas, followed by the stream end after
termination. -/
theorem framed (k : Course) (faultless : k.faults.sendEnd = false)
    (heard : k.now.outflow.wire.listening = true) :
    k.past.observed ++ k.now.outflow.wire.writes = k.past.written.map .stanza ++
      if k.now.outflow.terminated then [.streamEnd] else [] := by
  revert heard
  refine k.induction (P := fun past now => now.outflow.wire.listening = true →
    past.observed ++ now.outflow.wire.writes = past.written.map .stanza ++
      if now.outflow.terminated then [.streamEnd] else []) (fun _ => rfl) ?_
  intro moves move j before heard
  have none : j.now.faults.sendEnd = false := by rw [j.faults_now]; exact faultless
  have listens := Moment.listening_of_after ⟨j.now, move⟩ heard
  have writes := Moment.writes_after ⟨j.now, move⟩ (j.endsOnce faultless) none heard
  have grows := (Conversation.proceeds_move j.now move).terminated
  rw [Moment.after] at writes
  rw [History.observed_concat, History.written_concat, List.append_assoc, writes,
    ← List.append_assoc, ← List.append_assoc, before listens, Outflow.mark]
  -- after the stream end the wire does not change
  cases ended : j.now.outflow.terminated with
  | true =>
    have barred : j.now.outflow.Barred j.now.faults :=
      .inr (.inl ((j.endsOnce faultless).ended.trans ended))
    simp [(Moment.barred ⟨j.now, move⟩ barred).1, grows ended]
  | false => simp

/-- At most one stanza is lost to a failure or in hand, and it is lost only after the stream end. -/
theorem length_hand_le_one (k : Course) (sends : k.faults.send = false)
    (heard : k.now.outflow.wire.listening = true) :
    (k.past.refused ++ k.now.outflow.writer.inHand).length ≤ 1 ∧
      ∀ m ∈ k.past, m.refused ≠ [] → m.before.outflow.wire.ended = true := by
  revert heard
  refine k.induction (P := fun past now => now.outflow.wire.listening = true →
    (past.refused ++ now.outflow.writer.inHand).length ≤ 1 ∧
      ∀ m ∈ past, m.refused ≠ [] → m.before.outflow.wire.ended = true)
    (fun _ => ⟨Nat.zero_le 1, by simp⟩) ?_
  intro moves move j before heard
  have listens := Moment.listening_of_after ⟨j.now, move⟩ heard
  obtain ⟨few, late⟩ := before listens
  have ended : j.now.outflow.Barred j.now.faults → j.now.outflow.wire.ended = true := by
    rintro (fails | ended | gone)
    · rw [j.faults_now] at fails
      cases fails.symm.trans sends
    · exact ended
    · cases gone.symm.trans listens
  constructor
  · have kept := congrArg List.length (Moment.inHand_after ⟨j.now, move⟩)
    have one : (j.now.move move).outflow.writer.inHand.length ≤ 1 := by
      cases (j.now.move move).outflow.writer <;> simp [Writer.inHand]
    have reached : Moment.after ⟨j.now, move⟩ = j.now.move move := rfl
    simp only [History.refused_concat, List.length_append, reached] at few kept ⊢
    by_cases takes : Moment.taken ⟨j.now, move⟩ = []
    · rw [takes] at kept
      simp only [List.length_nil] at kept
      omega
    · -- what is taken is taken into an empty hand, and before the end of the stream
      obtain ⟨goes, free⟩ := Moment.free_of_taken takes
      obtain ⟨left, handled⟩ := j.handled
      have all : j.past.refused = [] := Classical.byContradiction fun any =>
        Bool.false_ne_true (goes.symm.trans (j.sound.ended (ended (handled.refused any))))
      have kept : Moment.refused ⟨j.now, move⟩ = [] := Classical.byContradiction fun any =>
        Bool.false_ne_true (goes.symm.trans (j.sound.ended (ended (Moment.barred_of_refused any))))
      simp only [all, kept, List.length_nil]
      omega
  · refine List.forall_mem_append.mpr ⟨late, List.forall_mem_singleton.mpr fun refuses => ?_⟩
    exact ended (Moment.barred_of_refused refuses)

theorem reported (k : Course) : Reported k.past k.now := by
  refine k.induction (P := Reported) ⟨fun asked => (nomatch asked), fun pending => ?_⟩ ?_
  · refine iff_of_false ?_ fun closed => (nomatch closed.1)
    simp [origin, Conversation.Leaves, Conversation.start]
  · intro moves move j before
    rcases Moment.stirs_or_writes ⟨j.now, move⟩ with ⟨touch, stirs⟩ | ⟨events, writes⟩
    · exact before.of_stirs j.sound stirs
    · obtain ⟨left, handled⟩ := j.handled
      exact before.of_writes handled writes

/-- The outgoing stream is well framed. The peer sees the accepted stanzas in order, each once, and
behind them the stream end after termination. Until the sender task exits the missing ones are on
the channel, except for at most one: it is in the hand of the task, or was taken before termination
and refused after it. The exit after a termination by others reports the number of stanzas never
taken. -/
theorem outbound_in_order (k : Course) (sends : k.faults.send = false)
    (faultless : k.faults.sendEnd = false) (heard : k.now.outflow.wire.listening = true) :
    (k.past.observed ++ k.now.outflow.wire.writes = k.past.written.map .stanza ++
      if k.now.outflow.terminated then [.streamEnd] else []) ∧
    k.past.written <+: k.past.queued ∧
    (k.now.outflow.writer ≠ .closed → k.past.queued = k.past.written ++
      (k.past.refused ++ k.now.outflow.writer.inHand) ++ k.now.outflow.outbound.queue) ∧
    (k.past.refused ++ k.now.outflow.writer.inHand).length ≤ 1 ∧
    (∀ m ∈ k.past, m.refused ≠ [] → m.before.outflow.wire.ended = true) ∧
    k.past.taken <+: k.past.queued ∧
    k.past.taken = k.past.written ++ (k.past.refused ++ k.now.outflow.writer.inHand) ∧
    (∀ pending, ⟨.writer, .writerStopped pending⟩ ∈ k.now.journal ↔
      k.now.outflow.writer = .closed ∧ .writer ∉ k.past.closers ∧
        k.past.taken.length + pending = k.past.queued.length) := by
  obtain ⟨left, handled⟩ := k.handled
  obtain ⟨one, late⟩ := k.length_hand_le_one sends heard
  have taken : k.past.taken =
      k.past.written ++ (k.past.refused ++ k.now.outflow.writer.inHand) := by
    rw [handled.taken, List.append_assoc]
  have queued := handled.queued
  rw [List.append_assoc] at queued
  have before : k.past.taken <+: k.past.queued := ⟨_, queued.symm⟩
  have among : k.past.written <+: k.past.taken := ⟨_, taken.symm⟩
  refine ⟨k.framed faultless heard, among.trans before, fun goes => ?_, one, late, before, taken,
    k.reported.leaves⟩
  have none : left = [] := Classical.byContradiction fun any => goes (handled.left any)
  rw [queued, none, List.append_nil, taken]

/-- Three messages are sent, the last one waiting for a slot; the stream is terminated when the task
has taken the second one. -/
def interrupted : Course where
  jid := ⟨none, "example", none⟩
  settings := {}
  moves :=
    [.outside .handle, .outside (.send .own (.message { body := some "first" })),
      .outside (.send (.handle 0) (.message { body := some "second" })),
      .outside (.send .own (.message { body := some "third" })), .step (.call 0), .step (.call 1),
      .step .writer, .step (.call 1), .step .writer, .outside .takeWrite, .step .writer,
      .step (.call 2), .outside (.close (.handle 0)), .step .writer, .step .writer]

theorem outbound_in_order_interrupted :
    interrupted.past.queued = [.message { body := some "first" },
        .message { body := some "second" }, .message { body := some "third" }] ∧
      interrupted.past.written = [.message { body := some "first" }] ∧
      interrupted.past.observed ++ interrupted.now.outflow.wire.writes =
        [.stanza (.message { body := some "first" }), .streamEnd] ∧
      interrupted.past.refused = [.message { body := some "second" }] ∧
      (∀ m ∈ interrupted.past, m.refused ≠ [] → m.before.outflow.wire.ended = true) ∧
      ⟨.writer, .writerStopped 1⟩ ∈ interrupted.now.journal := by
  have queued : interrupted.past.queued = [.message { body := some "first" },
      .message { body := some "second" }, .message { body := some "third" }] := by decide +kernel
  have written : interrupted.past.written = [.message { body := some "first" }] := by
    decide +kernel
  obtain ⟨framed, -, -, -, late, -, -, leaves⟩ :=
    interrupted.outbound_in_order rfl rfl (by decide +kernel)
  have terminated : interrupted.now.outflow.terminated = true := by decide +kernel
  rw [written, terminated] at framed
  refine ⟨queued, written, framed, by decide +kernel, late, (leaves 1).mpr ?_⟩
  decide +kernel

end Course

end StanzaExchange
