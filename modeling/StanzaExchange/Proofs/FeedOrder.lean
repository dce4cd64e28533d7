import StanzaExchange.Proofs.Link

/-!
The order of the feed of the in-process transport (section 10.1 of the specification, module
memory). Arrivals are read in the order in which they were fed, each once; when the peer has hung up
and the feed is empty, every further `next` answers closed.
-/
namespace StanzaExchange.Script.LinkSession

variable {s : LinkSession} {step : LinkStep} {steps : List LinkStep}

/-- The arrivals a step feeds successfully. -/
def fed (s : LinkSession) : LinkStep → List Arrival
  | .peer (.push arrival) =>
    if s.answer (.peer (.push arrival)) = .flag true then [arrival] else []
  | _ => []

/-- The results of `next`, unless it is pending. -/
def outcomes (s : LinkSession) : LinkStep → List (Except Failure StartTag)
  | .next =>
    match s.answer .next with
    | .startTag start => [.ok start]
    | .failed failure => [.error failure]
    | _ => []
  | _ => []

/-- The arrivals a step takes from the feed. -/
def reads (s : LinkSession) : LinkStep → List Arrival
  | .next => if s.connected then s.feed.arrivals.take 1 else []
  | _ => []

/-- The closed answers of `next`. -/
def closings (s : LinkSession) : LinkStep → List (Except Failure StartTag)
  | .next =>
    if s.connected && s.feed.arrivals.isEmpty && !s.feed.feeding then [.error .closed] else []
  | _ => []

/-- The peer has hung up and the feed is empty. -/
def Drained (s : LinkSession) : Prop := s.feed.arrivals = [] ∧ s.feed.feeding = false

/-- What a step feeds, by its update of the feed. -/
theorem fed_eq (s : LinkSession) (step : LinkStep) : s.fed step = (s.feedTouch step).pushed := by
  cases step with
  | peer step =>
    cases step with
    | push arrival =>
      cases listens : s.wire.listening with
      | false => simp [fed, answer, perform_of_left listens, feedTouch, listens]
      | true =>
        cases connected : s.connected <;> cases feeding : s.feed.feeding <;>
          simp [fed, answer, perform_push listens, feedTouch, listens, connected, feeding]
    | hangUp | dropPeer => cases listens : s.wire.listening <;> simp [fed, feedTouch, listens]
    | nextSent | tryNextSent | sent | ends => rfl
  | next => cases connected : s.connected <;> simp [fed, feedTouch, connected]
  | decode | skip =>
    simp only [fed, feedTouch]
    split <;> rfl
  | send | sendEnd | dropTransport => rfl

/-- What a step reads, by its update of the feed. -/
theorem reads_eq (s : LinkSession) (step : LinkStep) :
    s.reads step = (s.feedTouch step).taken s.feed := by
  cases step with
  | next => cases connected : s.connected <;> simp [reads, feedTouch, connected]
  | peer step =>
    cases step with
    | push | hangUp | dropPeer =>
      simp only [reads, feedTouch]
      split <;> rfl
    | nextSent | tryNextSent | sent | ends => rfl
  | decode | skip =>
    simp only [reads, feedTouch]
    split <;> rfl
  | send | sendEnd | dropTransport => rfl

/-- The results of `next` are those of the arrivals read, and closed answers. -/
theorem outcomes_eq (s : LinkSession) (step : LinkStep) :
    s.outcomes step = (s.reads step).map Arrival.outcome ++ s.closings step := by
  cases step with
  | next =>
    cases connected : s.connected with
    | false =>
      have gone : s.perform .next = (.gone .transport, s) := perform_of_dropped connected rfl
      simp [outcomes, answer, gone, reads, closings, connected]
    | true =>
      rcases arrivals : s.feed.arrivals with _ | ⟨e | failure, rest⟩
      · cases feeding : s.feed.feeding <;>
          simp [outcomes, answer, perform_next connected, reads, closings, connected, arrivals,
            feeding]
      · simp [outcomes, answer, perform_next connected, reads, closings, connected, arrivals,
          Arrival.outcome]
      · simp [outcomes, answer, perform_next connected, reads, closings, connected, arrivals,
          Arrival.outcome]
  | _ => rfl

/-- After the hang-up nothing is fed. -/
theorem fed_of_hungUp (hungUp : s.feed.feeding = false) (step : LinkStep) : s.fed step = [] := by
  cases step with
  | peer step =>
    cases step with
    | push arrival =>
      cases listens : s.wire.listening with
      | false => simp [fed, answer, perform_of_left listens]
      | true => simp [fed, answer, perform_push listens, hungUp]
    | _ => rfl
  | _ => rfl

/-- A drained feed stays drained. -/
theorem Drained.performed (drained : s.Drained) (step : LinkStep) : (s.performed step).Drained := by
  obtain ⟨empty, hungUp⟩ := drained
  have balance := s.feed.arrivals_touch (s.feedTouch step)
  rw [← fed_eq, fed_of_hungUp hungUp, empty, List.append_nil, eq_comm, List.append_eq_nil_iff,
    ← (performs s step).feed] at balance
  have still : ¬(s.performed step).feed.feeding = true := by
    rw [(performs s step).feed, Feed.feeding_touch, hungUp]
    exact fun feeds => Bool.false_ne_true feeds.1
  exact ⟨balance.2, by simpa using still⟩

theorem fed_eq_reads (steps : List LinkStep) :
    seen fed steps = seen reads steps ++ (after steps).feed.arrivals := by
  induction steps using List.reverseRecOn with
  | nil => rfl
  | append_singleton steps step ih =>
    rw [seen_concat, seen_concat, ih, fed_eq, reads_eq, after_concat, (performs _ step).feed,
      List.append_assoc, Feed.arrivals_touch, List.append_assoc]

theorem starts_eq (steps : List LinkStep) : (after steps).starts =
    ((seen reads steps).filterMap Arrival.element?).map Element.startTag := by
  induction steps using List.reverseRecOn with
  | nil => rfl
  | append_singleton steps step ih =>
    rw [after_concat, (performs _ step).starts, ih, seen_concat, reads_eq, List.filterMap_append,
      List.map_append]

/-- On a drained feed `next` answers closed only. -/
theorem closings_of_drained (drained : s.Drained) (step : LinkStep) :
    s.reads step = [] ∧ ∃ times, s.closings step = List.replicate times (.error .closed) := by
  obtain ⟨empty, hungUp⟩ := drained
  cases step with
  | next =>
    cases connected : s.connected with
    | false => exact ⟨by simp [reads, connected], 0, by simp [closings, connected]⟩
    | true => exact ⟨by simp [reads, empty], 1, by simp [closings, connected, empty, hungUp]⟩
  | _ => exact ⟨rfl, 0, rfl⟩

theorem closings_of_not_drained (more : ¬s.Drained) (step : LinkStep) : s.closings step = [] := by
  cases step with
  | next =>
    refine if_neg fun ended => more ?_
    have all : s.connected = true ∧ s.feed.arrivals = [] ∧ s.feed.feeding = false := by
      simpa [and_assoc] using ended
    exact all.2
  | _ => rfl

/-- All results of `next`: first those of the arrivals read, then closed answers. -/
theorem outcomes_after (steps : List LinkStep) :
    ∃ times, seen outcomes steps =
        (seen reads steps).map Arrival.outcome ++ List.replicate times (.error .closed) ∧
      (times ≠ 0 → (after steps).Drained) := by
  induction steps using List.reverseRecOn with
  | nil => exact ⟨0, rfl, fun any => absurd rfl any⟩
  | append_singleton steps step ih =>
    obtain ⟨times, found, drained⟩ := ih
    rw [seen_concat, seen_concat, found, outcomes_eq, after_concat]
    -- `next` answers closed on an empty feed only, so no arrival is read after it
    by_cases ended : (after steps).Drained
    · obtain ⟨unread, more, closed⟩ := closings_of_drained ended step
      refine ⟨times + more, ?_, fun _ => ended.performed step⟩
      rw [unread, closed, List.map_nil, List.nil_append, List.append_nil, List.append_assoc,
        List.replicate_append_replicate]
    · obtain rfl : times = 0 := Classical.not_not.mp fun any => ended (drained any)
      refine ⟨0, ?_, fun any => absurd rfl any⟩
      simp [closings_of_not_drained ended]

theorem answer_next_of_drained (drained : s.Drained) (connected : s.connected = true) :
    s.answer .next = .failed .closed := by
  obtain ⟨empty, hungUp⟩ := drained
  simp [answer, perform_next connected, empty, hungUp]

theorem closed_for_good (drained : s.Drained) (more : List LinkStep) :
    ∀ o ∈ trail performed s more, o.move = .next → o.before.connected = true →
      o.before.answer o.move = .failed .closed := by
  intro o member next connected
  rw [next]
  exact answer_next_of_drained
    (trail_keeps (fun _ move drained => drained.performed move) drained more o member) connected

end StanzaExchange.Script.LinkSession
