import StanzaExchange.Proofs.Rest

/-!
Stanzas put on the outbound channel after the end of the stream. The sender task closes the channel
only with its next poll, so until then a call can put a stanza on the channel that will never be
written. Section 10.2 of the specification answers `Closed` when the conversation ends first; the
code answers such a `send` with success and leaves a `send_recv` pending. The theorems state exactly
when what was accepted is written.
-/
namespace StanzaExchange

/-- The stanza a call offers to the outbound channel with its next poll. -/
def Work.offers? : Work → Option Stanza
  | .send stanza => some stanza
  | .queryOffering asked => some (.iq asked.iq)
  | _ => none

namespace Conversation

variable {c after : Conversation} {n : Nat} {call : Call} {stanza : Stanza}

/-- The results of a poll that offers a stanza. -/
theorem WorkStep.offered {sender : Bool} {work : Work} (step : WorkStep c n sender work after)
    (offers : work.offers? = some stanza) :
    ∃ later, after.calls = c.calls.modify n (fun call => { call with work := later }) ∧
      if sender = false ∨ c.outflow.outbound.receiving = false then
        later = .done (.failed .closed) ∧
          after.outflow.outbound.queue = c.outflow.outbound.queue
      else later ≠ .done (.failed .closed) := by
  cases step with
  | fails shut => exact ⟨_, rfl, by rw [if_pos shut]; exact ⟨rfl, rfl⟩⟩
  | @refused _ query unsent shut =>
    refine ⟨_, calls_endQuery query _, ?_⟩
    rw [if_pos shut]
    exact ⟨rfl, queue_endQuery query _⟩
  | sends access reads | queues access reads | sendWaits access reads | queryWaits access reads =>
    exact ⟨_, rfl, by simp [access, reads]⟩
  | _ => cases offers

/-- A call that offers a stanza is ready. -/
theorem exists_callStep?_of_offers (here : c.calls[n]? = some call)
    (offers : call.work.offers? = some stanza) : ∃ after, c.callStep? n = some after := by
  have running : call.work.isRunning = true := by
    cases asked : call.work <;> first | rfl | simp [asked, Work.offers?] at offers
  cases step : c.callStep? n with
  | some after => exact ⟨after, rfl⟩
  | none =>
    have stuck := (callStep?_eq_none step here running).2
    generalize call.work = work at stuck offers
    cases stuck with
    | room waits => cases work <;> simp [Work.isWaiting, Work.offers?] at waits offers
    | reply | tasks => cases offers

/-- An offer fails exactly if the call has no outbound sender or the receiving side is dropped. -/
theorem offer_fails_iff (here : c.calls[n]? = some call) (kept : call.aborted = false)
    (offers : call.work.offers? = some stanza) :
    (let after := c.move (.step (.call n))
     after.stands? n = some (call.sender, .done (.failed .closed)) ∧
      after.outflow.outbound.queue = c.outflow.outbound.queue) ↔
      call.sender = false ∨ c.outflow.outbound.receiving = false := by
  obtain ⟨after, step⟩ := exists_callStep?_of_offers here offers
  have moved : c.move (.step (.call n)) = after := by simp [Conversation.move, step?, step]
  obtain ⟨_, there, made⟩ := callStep?_spec step
  obtain rfl := Option.some.inj (here.symm.trans there)
  obtain ⟨-, further⟩ := made.resolve_left fun given => by simp [kept] at given
  obtain ⟨later, calls, fate⟩ := further.offered offers
  have stands : after.stands? n = some (call.sender, later) :=
    (stands?_modify here calls n).trans (if_pos rfl)
  simp only [moved, stands]
  split at fate
  next shut => exact iff_of_true ⟨by rw [fate.1], fate.2⟩ shut
  next free => exact iff_of_false (fun failed => fate (by simpa using failed.1)) free

end Conversation

namespace Course

/-- Once the sender task has stopped every offer is refused and nothing is accepted; before that,
also after the end of the stream, offers are accepted. At rest after termination the task has
stopped, and what was accepted in between is never written. -/
theorem refused_once_stopped (k : Course) :
    (∀ n call stanza, k.now.calls[n]? = some call → call.aborted = false →
      call.work.offers? = some stanza →
      let after := k.now.move (.step (.call n))
      (after.stands? n = some (call.sender, .done (.failed .closed)) ∧
          after.outflow.outbound.queue = k.now.outflow.outbound.queue ↔
        call.sender = false ∨ k.now.outflow.writer = .closed)) ∧
    (k.now.outflow.writer = .closed → ∀ more, (k.andThen more).past.queued = k.past.queued) ∧
    (k.now.outflow.terminated = true → k.now.AtRest → k.now.outflow.stalled = false →
      k.now.outflow.writer = .closed) ∧
    (k.now.outflow.terminated = true → k.faults.sendEnd = false →
      ∀ more, (k.andThen more).past.written = k.past.written) := by
  refine ⟨fun n call stanza here kept offers => ?_, k.queued_of_stopped,
    fun ended rest flowing => ?_, fun ended faultless => ?_⟩
  · rw [← k.sound.shut]
    exact Conversation.offer_fails_iff here kept offers
  · exact (writer_at_rest rest flowing).resolve_right fun busy =>
      Bool.false_ne_true (busy.2.1.symm.trans ended)
  · exact k.written_of_terminated faultless ended

/-- The application ends the stream. -/
def ended : Course where
  jid := ⟨none, "example", none⟩
  settings := {}
  moves := [.outside (.close .own)]

/-- A stanza is accepted after the end of the stream, before the next poll of the sender task. -/
theorem late_stanza_accepted :
    let sends : List Move := [.outside (.send .own (.message {})), .step (.call 0)]
    ended.now.outflow.terminated = true ∧
      (ended.andThen sends).now.stands? 0 = some (true, .done .sent) ∧
      (ended.andThen sends).now.outflow.outbound.queue = [.message {}] := by
  decide +kernel

/-- After that poll a stanza is refused. -/
theorem refused_once_stopped_later :
    let stopped := ended.andThen [.step .writer, .outside (.send .own (.message {}))]
    stopped.now.outflow.writer = .closed ∧
      (stopped.now.move (.step (.call 0))).stands? 0 = some (true, .done (.failed .closed)) := by
  intro stopped
  have closed : stopped.now.outflow.writer = .closed := by decide +kernel
  have fails := (stopped.refused_once_stopped).1 0 ⟨true, .send (.message {}), false⟩ (.message {})
    (by decide +kernel) rfl rfl
  exact ⟨closed, (fails.mpr (.inr closed)).1⟩

/-- At rest before termination all accepted stanzas are written, in order. -/
theorem written_at_rest {k : Course} (rest : k.now.AtRest) (flowing : k.now.outflow.stalled = false)
    (goes : k.now.outflow.terminated = false) (faultless : k.faults.send = false)
    (heard : k.now.outflow.wire.listening = true) : k.past.queued = k.past.written := by
  obtain ⟨lost, left, conveyed⟩ := k.conveyed
  have running : k.now.outflow.writer ≠ .closed := fun closed =>
    Bool.false_ne_true (goes.symm.trans (k.sound.stopped closed).1)
  obtain ⟨idle, -, empty⟩ := (writer_at_rest rest flowing).resolve_left running
  have free : ¬k.now.outflow.Barred k.now.faults := by
    rintro (fails | ended | gone)
    · rw [k.faults_now, faultless] at fails
      cases fails
    · exact Bool.false_ne_true (goes.symm.trans (k.sound.ended ended))
    · exact Bool.false_ne_true (gone.symm.trans heard)
  have kept : lost = [] := Classical.byContradiction fun any => free (conveyed.lost any)
  have all : left = [] := Classical.byContradiction fun any => running (conveyed.left any)
  simpa [kept, all, Outflow.inFlight, idle, empty, Writer.inHand] using conveyed.queued

/-- A query that is pending at rest was written, unless the stream has ended. One that was not
written by then never is, and its call stays pending as long as the receiver task goes on. -/
theorem query_written_unless_ended (k : Course) (rest : k.now.AtRest)
    (flowing : k.now.outflow.stalled = false) (faultless : k.faults = .none)
    (heard : k.now.outflow.wire.listening = true) (n : Nat) (sender : Bool) (query : Query)
    (awaiting : k.now.stands? n = some (sender, .queryAwaiting query)) :
    ∃ (before : History) (m : Moment) (after : History),
      k.past = before ++ m :: after ∧ m.Submits n query ∧
      (k.past.written[before.queued.length]? = some (.iq query.iq) ∨
        k.now.outflow.terminated = true ∧ k.now.inflow.reader ≠ .closed ∧
          ∀ more, (k.andThen more).past.written[before.queued.length]? = none) := by
  obtain ⟨m, member, submits⟩ := k.submitted awaiting
  obtain ⟨before, after, past⟩ : ∃ before after : History, k.past = before ++ m :: after :=
    List.append_of_mem member
  refine ⟨before, m, after, past, submits, ?_⟩
  have place : k.past.queued[before.queued.length]? = some (.iq query.iq) := by
    rw [past, History.queued_append]
    simp [History.queued, submits.queued]
  cases ended : k.now.outflow.terminated with
  | false =>
    rw [← written_at_rest rest flowing ended (by rw [faultless]; rfl) heard]
    exact .inl place
  | true =>
    have same := k.written_of_terminated (by rw [faultless]; rfl) ended
    obtain ⟨lost, left, conveyed⟩ := k.conveyed
    -- the written stanzas are a prefix of the accepted ones, so the position of the query decides
    by_cases written : before.queued.length < k.past.written.length
    · rw [conveyed.queued, List.append_assoc, List.append_assoc,
        List.getElem?_append_left written] at place
      exact .inl place
    · refine .inr ⟨rfl, fun finished => ?_, fun more => ?_⟩
      · rcases stuck_at_rest rest flowing awaiting rfl with ⟨query, -, -, -, goes⟩ | ⟨other, -⟩
        · exact goes finished
        · cases other
      · rw [same more]
        exact List.getElem?_eq_none (Nat.le_of_not_lt written)

/-- A query is accepted after the end of the stream, and the sender task stops. -/
def cut : Course := ended.andThen
  [.outside (.query .own (.get "late" (.named "ping")) none), .step (.call 0), .step (.call 0),
    .step .writer]

/-- At rest its call is pending, although nothing was written. -/
theorem unsent_query_waits :
    cut.now.AtRest ∧ cut.now.outflow.wire.listening = true ∧
      cut.now.stands? 0 = some (true, .queryAwaiting ⟨.get "late" (.named "ping"), 0, none⟩) ∧
      cut.past.queued = [.iq (.get "late" (.named "ping"))] ∧ cut.past.written = [] := by
  decide +kernel

/-- A query sent before termination is written. -/
theorem query_written_in_time :
    let query : Query := ⟨.get "first" (.named "ping"), 0, none⟩
    waiting.now.AtRest ∧ waiting.now.outflow.terminated = false ∧
      ∃ (before : History) (m : Moment) (after : History),
        waiting.past = before ++ m :: after ∧ m.Submits 0 query ∧
        waiting.past.written[before.queued.length]? = some (.iq query.iq) := by
  intro query
  have rests : waiting.now.AtRest := by decide +kernel
  have goes : waiting.now.outflow.terminated = false := by decide +kernel
  obtain ⟨before, m, after, past, submits, written | ⟨ended, -⟩⟩ :=
    waiting.query_written_unless_ended rests (by decide +kernel) rfl (by decide +kernel) 0 true
      query (by decide +kernel)
  · exact ⟨rests, goes, before, m, after, past, submits, written⟩
  · cases goes.symm.trans ended

end Course

end StanzaExchange
