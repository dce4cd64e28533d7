import StanzaExchange.Proofs.Framing
import StanzaExchange.Proofs.Rest

/-!
The graceful end of the stream, written by the sender task (section 4.3 and property P6 of the
specification). When the task ends the stream every outbound sender is dropped and the channel is
drained, so nothing accepted is lost. Conversely, as long as some outbound sender exists, the stream
ends only at the request of the application or through the receiver task.
-/
namespace StanzaExchange

namespace Outflow

variable {o : Outflow} {producing : Bool}

/-- The sender task ends the stream when the channel is drained and no sender exists. -/
theorem asks_iff : o.asks producing = true ↔ o.writer = .taking ∧ o.terminated = false ∧
    o.outbound.queue = [] ∧ producing = false := by
  simp [asks, and_assoc]

end Outflow

namespace Moment

variable {m : Moment}

/-- The sender task attempts termination only when the channel is drained and no sender exists. -/
theorem asks_of_closer? (ends : m.closer? = some .writer) :
    m.before.outflow.asks m.before.producing = true := by
  unfold closer? at ends
  split at ends
  · split at ends <;> cases ends
  · split at ends <;> cases ends
  · split at ends
    next asks => exact asks
    · cases ends
  · cases ends

/-- The poll in which the sender task ends the stream does nothing else. -/
theorem stops_of_closer? (ends : m.closer? = some .writer) :
    m.queued = [] ∧ m.written = [] ∧ m.after.outflow.writer = .closed := by
  rcases m.stirs_or_writes with ⟨touch, stirs⟩ | ⟨events, writes⟩
  · exact absurd ends stirs.other
  · have asks := asks_of_closer? ends
    have stopped : m.after.outflow.writer = .closed :=
      writes.advance.closed_iff.mpr (.inr (.inr asks))
    have nothing : m.written ++ m.refused = [] := by
      simpa [(Outflow.asks_iff.mp asks).1, Moment.taken, Outflow.taken, stopped, Writer.inHand]
        using m.inHand_after.symm
    exact ⟨writes.queued, (List.append_eq_nil_iff.mp nothing).1, stopped⟩

end Moment

namespace Course

/-- The origin reported with the stream end is that of the first attempt. -/
theorem closers_of_closing (k : Course) (faultless : k.faults.sendEnd = false) {origin : Reporter}
    (told : ⟨origin, .closing origin⟩ ∈ k.now.journal) :
    ∃ others, k.past.closers = origin :: others := by
  have listed : ⟨origin, .closing origin⟩ ∈ k.past.endStory := by
    rw [← k.endReports_now faultless, Conversation.endReports, List.mem_reverse]
    exact List.mem_filter.mpr ⟨told, rfl⟩
  unfold History.endStory at listed
  cases asked : k.past.closers with
  | nil => simp [asked] at listed
  | cons first others =>
    rw [asked] at listed
    rcases List.mem_append.mp listed with ends | late
    · have same : origin = first := by
        cases k.past.heard <;> simpa [Reporter.ends] using ends
      exact ⟨others, by rw [same]⟩
    · simp [Reporter.comesLate] at late

/-- An execution with attempts splits at the first one. -/
theorem exists_first_closer (k : Course) {origin : Reporter} {others : List Reporter}
    (asked : k.past.closers = origin :: others) :
    ∃ (j : Course) (move : Move) (more : List Move), k = j.andThen (move :: more) ∧
      j.past.closers = [] ∧ Moment.closer? ⟨j.now, move⟩ = some origin := by
  obtain ⟨before, m, after, split, none, first, -⟩ := List.filterMap_eq_cons_iff.mp asked
  obtain ⟨j, more, reached, rfl, now⟩ := exists_until split
  refine ⟨j, m.move, more, reached, List.filterMap_eq_nil_iff.mpr none, ?_⟩
  rw [← now]
  exact first

/-- Without outbound senders there are never any again. -/
theorem producing_of_andThen (k : Course) (more : List Move)
    (sends : (k.andThen more).now.producing = true) : k.now.producing = true := by
  rw [now_andThen] at sends
  exact Conversation.of_run (P := fun now => now.producing = true)
    (fun now move => Moment.producing_of_after ⟨now, move⟩) sends

/-- A call that waits for a slot holds an outbound sender. -/
theorem access (k : Course) {n : Nat} {sender : Bool} {work : Work}
    (stands : k.now.stands? n = some (sender, work)) (waits : work.isWaiting = true) :
    sender = true := by
  revert stands work
  refine k.induction (P := fun _ now => ∀ {work}, now.stands? n = some (sender, work) →
    work.isWaiting = true → sender = true) ?_ ?_
  · intro work stands
    cases stands
  · intro moves move j before work stands waits
    rcases Moment.stood ⟨j.now, move⟩ stands with
      stood | ⟨fresh, -⟩ | ⟨call, _, _, _, -, rfl, turned⟩
    · exact before stood waits
    · cases waits.symm.trans (Work.isWaiting_of_isFresh fresh)
    · cases turned.turn with
      | plain running earlier later mild puts grounds =>
        cases work with
        | sendWaiting stanza => exact grounds
        | queryWaiting query => cases later.1
        | _ => cases waits
      | waits offering sends => exact sends
      | _ => cases waits

theorem listening_of_andThen (k : Course) (more : List Move)
    (heard : (k.andThen more).now.outflow.wire.listening = true) :
    k.now.outflow.wire.listening = true := by
  rw [now_andThen] at heard
  exact Conversation.of_run (P := fun now => now.outflow.wire.listening = true)
    (fun now move => Moment.listening_of_after ⟨now, move⟩) heard

/-- Before the stream end what was written and is not observed yet is on the wire. -/
theorem queued_eq_written (k : Course) (sends : k.faults.send = false)
    (heard : k.now.outflow.wire.listening = true) (goes : k.now.outflow.terminated = false)
    (idle : k.now.outflow.writer = .taking) (empty : k.now.outflow.outbound.queue = []) :
    k.past.queued = k.past.written := by
  obtain ⟨left, handled⟩ := k.handled
  have all : left = [] := Classical.byContradiction fun any => by
    cases idle.symm.trans (handled.left any)
  have kept : k.past.refused = [] := Classical.byContradiction fun any => by
    rcases handled.refused any with fails | ended | gone
    · rw [k.faults_now] at fails
      cases fails.symm.trans sends
    · cases goes.symm.trans (k.sound.ended ended)
    · cases gone.symm.trans heard
  rw [handled.queued, handled.taken, all, kept, empty, idle]
  simp [Writer.inHand]

/-- A peer that keeps observing finds all accepted stanzas, in order, and then the end. -/
theorem log_of_closer? {k j : Course} {move : Move} {more : List Move}
    (split : k = j.andThen (move :: more)) (sends : k.faults.send = false)
    (faultless : k.faults.sendEnd = false) (heard : k.now.outflow.wire.listening = true)
    (ends : Moment.closer? ⟨j.now, move⟩ = some .writer) :
    k.past.accepted = j.past.accepted ∧
      k.past.observed ++ k.now.outflow.wire.writes =
        j.past.accepted.map .stanza ++ [.streamEnd] := by
  subst split
  obtain ⟨idle, goes, empty, -⟩ := Outflow.asks_iff.mp (Moment.asks_of_closer? ends)
  obtain ⟨silent, unwritten, stopped⟩ := Moment.stops_of_closer? ends
  have before := j.queued_eq_written sends (j.listening_of_andThen _ heard) goes idle empty
  -- from here on nothing is accepted and nothing written
  have later := j.andThen_cons move more
  have ended : (j.andThen [move]).now.outflow.terminated = true := by
    have after := Moment.terminated_after ⟨j.now, move⟩
    rw [ends, Option.isSome_some, Bool.or_true] at after
    rw [now_move]
    exact after
  have terminated : (j.andThen (move :: more)).now.outflow.terminated = true := by
    rw [later, now_andThen]
    exact (Conversation.proceeds_run more).terminated ended
  have queued : (j.andThen (move :: more)).past.queued = j.past.queued := by
    rw [later, queued_of_stopped _ (by rw [now_move]; exact stopped), past_move,
      History.queued_concat, silent, List.append_nil]
  have written : (j.andThen (move :: more)).past.written = j.past.written := by
    rw [later, (j.andThen [move]).written_of_terminated faultless ended, past_move,
      History.written_concat, unwritten, List.append_nil]
  rw [History.accepted_eq_queued, History.accepted_eq_queued, framed _ faultless heard, terminated,
    written, before]
  exact ⟨queued.trans before, rfl⟩

/-- When the sender task ends the stream no sender exists and the outbound channel is empty. -/
theorem alone_of_closer? {j : Course} {move : Move}
    (ends : Moment.closer? ⟨j.now, move⟩ = some .writer) :
    j.now.ownSender = false ∧ (∀ number, j.now.hasHandle number = false) ∧
      (∀ n sender work, j.now.stands? n = some (sender, work) → work.isRunning = true →
        sender = false ∧ work.isWaiting = false) ∧
      j.now.outflow.outbound.waiting = [] ∧ j.now.outflow.outbound.queue = [] := by
  obtain ⟨-, -, empty, alone⟩ := Outflow.asks_iff.mp (Moment.asks_of_closer? ends)
  have silent : ¬j.now.producing = true := by
    rw [alone]
    exact Bool.false_ne_true
  rw [Conversation.producing_iff, not_or] at silent
  obtain ⟨closed, gone⟩ := silent
  obtain ⟨own, handles⟩ := Bool.or_eq_false_iff.mp (Bool.eq_false_iff.mpr closed)
  have calls : ∀ n sender work, j.now.stands? n = some (sender, work) → work.isRunning = true →
      sender = false ∧ work.isWaiting = false := by
    intro n sender work stands running
    have barred : sender ≠ true := fun sends => gone ⟨n, work, sends ▸ stands, running⟩
    exact ⟨Bool.eq_false_iff.mpr barred, Bool.eq_false_iff.mpr fun waits =>
      barred (j.access stands waits)⟩
  refine ⟨own, fun number => ?_, calls, ?_, empty⟩
  · refine Bool.eq_false_iff.mpr fun held => closed ?_
    have reached : j.now.unreachable? (.handle number) = none := by
      simp [Conversation.unreachable?, held]
    exact Conversation.opens_of_canSend reached rfl
  · refine List.eq_nil_iff_forall_not_mem.mpr fun n member => ?_
    have waits := (j.queueing.mem_iff n).mp member
    obtain ⟨⟨sender, work⟩, stands, waiting⟩ := (Option.any_eq_true _ _).mp waits
    have idle := (calls n sender work stands (Work.isRunning_of_isWaiting waiting)).2
    cases idle.symm.trans waiting

/-- If the sender task ends the stream, the conversation was finished, joined or dropped before, all
handles are dropped, no running call holds an outbound sender, the channel is drained, and the peer
observes all accepted stanzas in order, followed by the end. Without a request of the application
and before the receiver task closes, the stream does not end as long as an outbound sender exists.
-/
theorem graceful_end (k : Course) (sends : k.faults.send = false)
    (faultless : k.faults.sendEnd = false) (heard : k.now.outflow.wire.listening = true) :
    (⟨.writer, .closing .writer⟩ ∈ k.now.journal →
      ∃ (before : History) (m : Moment) (after : History),
        k.past = before ++ m :: after ∧ before.closers = [] ∧ m.closer? = some .writer ∧
        m.before.ownSender = false ∧
        (∃ own ∈ before, own.before.held = true ∧ (own.move = .outside .finish ∨
          own.move = .outside .join ∨ own.move = .outside .dropOwn)) ∧
        (∀ number, m.before.hasHandle number = false) ∧
        (∀ n sender work, m.before.stands? n = some (sender, work) → work.isRunning = true →
          sender = false ∧ work.isWaiting = false) ∧
        m.before.outflow.outbound.waiting = [] ∧ m.before.outflow.outbound.queue = [] ∧
        (before ++ [m]).observed ++ m.after.outflow.wire.writes =
          before.accepted.map .stanza ++ [.streamEnd] ∧
        k.past.accepted = before.accepted ∧
        k.past.observed ++ k.now.outflow.wire.writes =
          before.accepted.map .stanza ++ [.streamEnd]) ∧
    (.application ∉ k.past.closers → .reader ∉ k.past.closers → k.now.producing = true →
      k.past.closers = [] ∧ k.now.outflow.wire.endWrites = 0 ∧
        .streamEnd ∉ k.past.observed ++ k.now.outflow.wire.writes) := by
  refine ⟨fun told => ?_, fun unasked reading producing => ?_⟩
  · obtain ⟨others, asked⟩ := k.closers_of_closing faultless told
    obtain ⟨j, move, more, rfl, unasked, ends⟩ := k.exists_first_closer asked
    obtain ⟨own, handles, calls, row, empty⟩ := alone_of_closer? ends
    have listens : (j.andThen [move]).now.outflow.wire.listening = true := by
      rw [j.andThen_cons] at heard
      exact listening_of_andThen _ more heard
    have there := log_of_closer? (k := j.andThen [move]) rfl sends faultless listens ends
    rw [past_move, now_move] at there
    have now := log_of_closer? rfl sends faultless heard ends
    exact ⟨j.past, ⟨j.now, move⟩, _, j.past_andThen (move :: more), unasked, ends, own,
      j.silenced own, handles, calls, row, empty, there.2, now⟩
  · have none : k.past.closers = [] := by
      cases asked : k.past.closers with
      | nil => rfl
      | cons first others =>
        -- the first attempt can only be that of the sender task, with no sender left
        have mine : first = .writer := by
          rw [asked] at unasked reading
          cases first with
          | writer => rfl
          | application | reader => simp at unasked reading
        subst mine
        obtain ⟨j, move, more, rfl, -, ends⟩ := k.exists_first_closer asked
        have alone := (Outflow.asks_iff.mp (Moment.asks_of_closer? ends)).2.2.2
        exact absurd (j.producing_of_andThen _ producing) (by rw [alone]; exact Bool.false_ne_true)
    have goes : k.now.outflow.terminated = false := by rw [k.terminated_now, none]; rfl
    refine ⟨none, ?_, ?_⟩
    · rw [(k.endsOnce faultless).endWrites, goes]
      rfl
    · rw [k.framed faultless heard, goes]
      simp

/-- The conversation is finished and the last handle dropped while a query waits for a slot. -/
def finishing : Course where
  jid := ⟨none, "example", none⟩
  settings := {}
  moves :=
    [.outside .handle, .outside (.send (.handle 0) (.message { body := some "last" })),
      .step (.call 0), .outside (.query .own (.get "ping" (.named "ping")) none), .step (.call 1),
      .step (.call 1), .outside .finish, .outside (.dropHandle 0), .step .writer, .step (.call 1),
      .step .writer, .outside .takeWrite, .step .writer, .step .writer, .step .writer]

/-- The query is dropped. -/
def finished : Course := finishing.andThen [.outside (.drop 1), .step .writer]

theorem graceful_end_finished :
    finishing.now.producing = true ∧ finishing.now.outflow.wire.endWrites = 0 ∧
      ⟨.writer, .closing .writer⟩ ∈ finished.now.journal ∧
      finished.past.accepted =
        [.message { body := some "last" }, .iq (.get "ping" (.named "ping"))] ∧
      finished.past.observed ++ finished.now.outflow.wire.writes =
        [.stanza (.message { body := some "last" }),
          .stanza (.iq (.get "ping" (.named "ping"))), .streamEnd] := by
  have sends : finishing.now.producing = true := by decide +kernel
  have unended := (finishing.graceful_end rfl rfl (by decide +kernel)).2 (by decide +kernel)
    (by decide +kernel) sends
  have told : ⟨.writer, .closing .writer⟩ ∈ finished.now.journal := by decide +kernel
  have accepted : finished.past.accepted =
      [.message { body := some "last" }, .iq (.get "ping" (.named "ping"))] := by decide +kernel
  obtain ⟨before, m, after, -, -, -, -, -, -, -, -, -, -, kept, log⟩ :=
    (finished.graceful_end rfl rfl (by decide +kernel)).1 told
  rw [← kept, accepted] at log
  exact ⟨sends, unended.2.1, told, accepted, log⟩

end Course

end StanzaExchange
