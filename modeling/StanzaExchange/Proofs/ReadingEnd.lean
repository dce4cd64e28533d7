import StanzaExchange.Proofs.InboundOrder
import StanzaExchange.Proofs.Peer

/-!
Transport failures (section 7 and property P6 of the specification). The receiver task reads one
failure, the first one, and then reads no more. The failure is put on the inbound channel behind all
stanzas, without a test against any matcher; after it has been received the inbound channel yields
nothing more.
-/
namespace StanzaExchange

open Inflow (Flow Touch Advance)

/-- Reading has ended. -/
def Reader.isEnding : Reader → Bool
  | .failing _ | .closing | .closed => true
  | .reading | .routing _ _ _ | .surfacing _ => false

private theorem isFailure_of_map {α : Type} {result : Except DecodeError α} {form : α → Stanza}
    {stanza : Stanza} (plain : ∀ x, (form x).isFailure = false)
    (decoded : result.map form = .ok stanza) : stanza.isFailure = false := by
  cases result with
  | error => cases decoded
  | ok x =>
    cases decoded
    exact plain x

/-- No element is classified as a failure. -/
theorem Element.isFailure_readAs (faults : Faults) (e : Element) :
    (e.readAs faults).isFailure = false := by
  unfold readAs
  split
  · rfl
  next tag known =>
    split
    next stanza decoded =>
      split at decoded
      · cases decoded
      · unfold decode at decoded
        split at decoded
        · cases decoded
        · cases tag with
          | error =>
            cases decoded
            rfl
          | iq | message | presence => exact isFailure_of_map (fun _ => rfl) decoded
    · rfl

namespace Inflow

variable {i after : Inflow} {faults : Faults} {flow : Flow}

/-- The failure that the next read answers with. -/
def error? (i : Inflow) : Option Failure :=
  match i.reader, i.feed.next? with
  | .reading, some (.error failure, _) => some failure
  | _, _ => none

/-- The test of a stanza against a matcher in the next poll. -/
def tested (i : Inflow) : List (FilterId × Stanza) :=
  match i.reader with
  | .routing stanza (id :: _) _ => [(id, stanza)]
  | _ => []

theorem reader_of_error? (faults : Faults) {failure : Failure}
    (failed : i.error? = some failure) :
    i.reader = .reading ∧ (i.advance faults).reader = .failing failure := by
  unfold error? at failed
  split at failed
  next feed idle next =>
    cases failed
    simp [advance, step?, idle, next]
  · cases failed

/-- Reading ends only by a failure, and after its end nothing is read, tested or delivered. -/
theorem Advance.isEnding (step : Advance faults i flow after) (calm : i.error? = none) :
    after.reader.isEnding = i.reader.isEnding ∧
      (i.reader.isEnding = true → flow.read = [] ∧ flow.handed = []) := by
  cases step with
  | waits => exact ⟨rfl, fun _ => ⟨rfl, rfl⟩⟩
  | fails idle first => simp [error?, idle, Feed.next?, first] at calm
  | hangsUp idle empty silent => simp [error?, idle, Feed.next?, empty, silent] at calm
  | reads busy | hands busy | passes busy | surfaces busy | ends busy | puts busy | loses busy
  | reports busy | conceals busy | closes busy =>
    simp [busy, Reader.isEnding, tearDown]

theorem Advance.eq_of_closed (step : Advance faults i flow after) (closed : i.reader = .closed) :
    after = i := by
  cases step with
  | waits => rfl
  | reads busy | fails busy | hangsUp busy | hands busy | passes busy | surfaces busy | ends busy
  | puts busy | loses busy | reports busy | conceals busy | closes busy =>
    cases closed.symm.trans busy

end Inflow

namespace Moment

variable {m : Moment}

/-- The failure read in a step. -/
def error? (m : Moment) : Option Failure :=
  match m.move with
  | .step .reader => m.before.inflow.error?
  | _ => none

def tested (m : Moment) : List (FilterId × Stanza) :=
  match m.move with
  | .step .reader => m.before.inflow.tested
  | _ => []

theorem reader_of_error? {failure : Failure} (failed : m.error? = some failure) :
    m.before.inflow.reader = .reading ∧ m.after.inflow.reader = .failing failure := by
  obtain ⟨c, move⟩ := m
  unfold error? at failed
  split at failed
  next reader =>
    obtain rfl : move = .step .reader := reader
    obtain ⟨idle, ends⟩ := Inflow.reader_of_error? c.faults failed
    exact ⟨idle, by rw [← ends, ← (move_reader c).1]; rfl⟩
  · cases failed

/-- A step that reads no failure does not end reading; after the end it reads, tests and delivers
nothing. -/
theorem isEnding_after (calm : m.error? = none) :
    m.after.inflow.reader.isEnding = m.before.inflow.reader.isEnding ∧
      (m.before.inflow.reader.isEnding = true →
        m.read = [] ∧ m.tested = [] ∧ m.handed = []) := by
  by_cases reader : m.move = .step .reader
  · obtain ⟨c, move⟩ := m
    obtain rfl : move = .step .reader := reader
    obtain ⟨flow, advances⟩ := reader_advances c
    obtain ⟨same, still⟩ := advances.step.isEnding calm
    refine ⟨same, fun ending => ?_⟩
    obtain ⟨unread, unhanded⟩ := still ending
    refine ⟨advances.read.trans unread, ?_, advances.handed.trans unhanded⟩
    cases busy : c.inflow.reader <;> simp_all [tested, Inflow.tested, Reader.isEnding]
  · obtain ⟨touch, told⟩ := m.exists_told reader
    obtain ⟨unread, unhanded, -⟩ := told.still
    refine ⟨by rw [told.inflow, Inflow.reader_touch], fun _ => ⟨unread, ?_, unhanded⟩⟩
    unfold tested
    split
    next move => exact absurd move reader
    · rfl

/-- The exit of the receiver task is final. -/
theorem closed_after (m : Moment) (closed : m.before.inflow.reader = .closed) :
    m.after.inflow.reader = .closed := by
  rcases m.told_or_advances with ⟨touch, told⟩ | ⟨flow, advances⟩
  · rw [told.inflow, Inflow.reader_touch]
    exact closed
  · rw [advances.step.eq_of_closed closed]
    exact closed

theorem error?_of_ending (ending : m.before.inflow.reader.isEnding = true) : m.error? = none := by
  cases failed : m.error? with
  | none => rfl
  | some failure =>
    rw [(reader_of_error? failed).1] at ending
    cases ending

end Moment

namespace History

/-- The failures read. -/
def errors (h : History) : List Failure := h.filterMap Moment.error?

/-- The tests of stanzas against matchers. -/
def tested (h : History) : List (FilterId × Stanza) := h.flatMap Moment.tested

variable {past : History} {m : Moment}

theorem errors_concat : errors (past ++ [m]) = past.errors ++ m.error?.toList :=
  filterMap_concat

@[simp] theorem tested_concat : tested (past ++ [m]) = past.tested ++ m.tested := by
  simp [tested]

/-- The stanza is the classification of an element that was read. -/
def Tells (h : History) (faults : Faults) (stanza : Stanza) : Prop :=
  ∃ e, .element e ∈ h.read ∧ stanza = e.readAs faults

end History

namespace Course

/-- Exactly one failure was read if reading has ended, and none before. -/
theorem errors_eq (k : Course) :
    k.past.errors = if k.now.inflow.reader.isEnding then [k.past.failure] else [] := by
  refine k.induction (P := fun past now =>
    past.errors = if now.inflow.reader.isEnding then [past.failure] else []) rfl ?_
  intro moves move j before
  rw [History.errors_concat, before]
  cases failed : Moment.error? ⟨j.now, move⟩ with
  | some failure =>
    obtain ⟨idle, ending⟩ := Moment.reader_of_error? failed
    have reader : (j.now.move move).inflow.reader = .failing failure := ending
    have idle : j.now.inflow.reader = .reading := idle
    -- the failure in hand is the one that was read
    have same : History.failure (j.past ++ [⟨j.now, move⟩]) = failure := by
      have stage := (j.andThen [move]).account.stage
      rw [past_move, now_move] at stage
      cases stage with
      | failing told => simpa using told.symm.trans reader
      | idle other => cases other.symm.trans reader
      | busy passages held =>
        rw [reader] at held
        exact held.elim
      | ended told => rcases told with told | told <;> cases told.symm.trans reader
    simp [idle, reader, same, Reader.isEnding]
  | none =>
    obtain ⟨same, still⟩ := Moment.isEnding_after failed
    have same : (j.now.move move).inflow.reader.isEnding = j.now.inflow.reader.isEnding := same
    rw [same]
    cases ending : j.now.inflow.reader.isEnding with
    | false => rfl
    | true =>
      have unread := (still ending).1
      simp [History.failure, unread]

/-- After the end of reading nothing is read, tested or delivered. -/
theorem still_of_ending (k : Course) (ending : k.now.inflow.reader.isEnding = true)
    (more : List Move) : (k.andThen more).past.read = k.past.read ∧
      (k.andThen more).past.tested = k.past.tested ∧
      (k.andThen more).past.handed = k.past.handed := by
  have quiet : ∀ now move, now.inflow.reader.isEnding = true →
      (Moment.read ⟨now, move⟩ = [] ∧ Moment.tested ⟨now, move⟩ = [] ∧
        Moment.handed ⟨now, move⟩ = []) ∧ (now.move move).inflow.reader.isEnding = true := by
    intro now move ending
    obtain ⟨same, none⟩ := Moment.isEnding_after (Moment.error?_of_ending (m := ⟨now, move⟩) ending)
    exact ⟨none ending, same.trans ending⟩
  exact ⟨
    seen_andThen Moment.read (fun now move ending => (quiet now move ending).imp_left (·.1))
      ending more,
    seen_andThen Moment.tested (fun now move ending => (quiet now move ending).imp_left (·.2.1))
      ending more,
    seen_andThen Moment.handed (fun now move ending => (quiet now move ending).imp_left (·.2.2))
      ending more⟩

theorem tells_of_passage (k : Course) {p : Passage} (member : p ∈ k.past.passages) :
    k.past.Tells k.faults (p.stanza k.faults) := by
  have arrived : .element p.element ∈ k.past.arrived := List.mem_map.mpr ⟨p, member, rfl⟩
  refine ⟨p.element, ?_, rfl⟩
  rcases k.read_eq with all | failed
  · rw [all]
    exact arrived
  · rw [failed]
    exact List.mem_append_left _ arrived

theorem tells_of_handed (k : Course) : ∀ hand ∈ k.past.handed, k.past.Tells k.faults hand.2 := by
  intro hand member
  rw [k.account.handed] at member
  obtain ⟨p, passes, hands⟩ := List.mem_flatMap.mp member
  obtain ⟨id, -, rfl⟩ := List.mem_map.mp hands
  exact k.tells_of_passage passes

/-- Only classified elements are tested against matchers. -/
theorem tells_of_tested (k : Course) : ∀ test ∈ k.past.tested, k.past.Tells k.faults test.2 := by
  refine k.induction (P := fun past _ => ∀ test ∈ past.tested, past.Tells k.faults test.2)
    (fun _ none => nomatch none) ?_
  intro moves move j before test member
  have kept : ∀ stanza, j.past.Tells k.faults stanza →
      History.Tells (j.past ++ [⟨j.now, move⟩]) k.faults stanza := by
    rintro stanza ⟨e, read, same⟩
    exact ⟨e, by simp [read], same⟩
  rw [History.tested_concat] at member
  rcases List.mem_append.mp member with earlier | now
  · exact kept _ (before test earlier)
  · -- what is tested is the stanza in hand, that is, the one of the last passage
    have inHand : j.now.inflow.reader.inHand = some test.2 := by
      unfold Moment.tested at now
      split at now
      · unfold Inflow.tested at now
        split at now
        next stanza id rest taken busy =>
          rw [List.mem_singleton.mp now, busy]
          rfl
        · cases now
      · cases now
    obtain ⟨p, last, same⟩ := Option.map_eq_some_iff.mp (j.getLast?_passages inHand)
    exact kept _ (same ▸ j.tells_of_passage (List.mem_of_getLast? last))

/-- The inbound channel got classified elements, and behind them the failure. -/
theorem surfaced_eq (k : Course) (alive : k.now.inflow.inbound.receiving = true) :
    ∃ plain, (∀ stanza ∈ plain, k.past.Tells k.faults stanza) ∧
      k.past.surfaced = plain ++ k.past.reported k.now := by
  have told : ∀ passages : List Passage, passages ⊆ k.past.passages →
      ∀ stanza ∈ Passage.untaken k.faults passages, k.past.Tells k.faults stanza := by
    intro passages among stanza member
    obtain ⟨p, untaken, rfl⟩ := List.mem_map.mp member
    exact k.tells_of_passage (among (List.mem_filter.mp untaken).1)
  have all := told _ (List.Subset.refl _)
  unfold History.reported
  cases k.account.stage with
  | idle idle read surfaced => exact ⟨_, all, by simp [surfaced alive, idle]⟩
  | @busy earlier last snapshot passages held offered sorted read surfaced =>
    have running : k.now.inflow.reader ≠ .closing ∧ k.now.inflow.reader ≠ .closed := by
      constructor <;>
      · intro ending
        rw [ending] at held
        exact held
    exact ⟨_, told earlier (by simp [passages]), by simp [surfaced alive, running]⟩
  | failing reader read surfaced => exact ⟨_, all, by simp [surfaced alive, reader]⟩
  | ended ended read surfaced => exact ⟨_, all, by rw [surfaced alive, if_pos ended]⟩

/-- What is read does not go beyond the first failure on the feed. -/
theorem read_prefix (k : Course) {before later : List Arrival} {failure : Failure}
    (fed : k.past.fed = before ++ .failure failure :: later) :
    k.past.read <+: before ++ [.failure failure] := by
  have read : k.past.read <+: k.past.fed := ⟨_, k.conserved.feed.symm⟩
  have first : before ++ [.failure failure] <+: k.past.fed := ⟨later, by simp [fed]⟩
  rcases List.prefix_or_prefix_of_prefix read first with within | ⟨rest, beyond⟩
  · exact within
  · have plain : .failure failure ∉ k.past.arrived := by simp [History.arrived]
    rcases rest.eq_nil_or_concat with rfl | ⟨others, last, rfl⟩
    · have whole : before ++ [.failure failure] = k.past.read :=
        (List.append_nil _).symm.trans beyond
      exact whole ▸ List.prefix_rfl
    · exfalso
      rw [List.concat_eq_append, ← List.append_assoc] at beyond
      rcases k.read_eq with all | failed
      · exact plain (all ▸ beyond ▸ by simp)
      · obtain ⟨elements, -⟩ := List.append_inj' (beyond.trans failed) rfl
        exact plain (elements ▸ by simp)

/-- After the peer has hung up nothing is fed. -/
theorem fed_of_hungUp (k : Course) (gone : k.past.hungUp = true) (more : List Move) :
    (k.andThen more).past.fed = k.past.fed := by
  have silent : k.now.inflow.feed.feeding = false := by rw [k.feeding_eq, gone, Bool.not_true]
  refine seen_andThen Moment.fed (P := fun now => now.inflow.feed.feeding = false) ?_ silent more
  intro now move silent
  rcases Moment.told_or_advances ⟨now, move⟩ with ⟨touch, told⟩ | ⟨flow, advances⟩
  · have none : touch.fed = [] := Classical.byContradiction fun feeds =>
      Bool.false_ne_true (silent.symm.trans (told.feeding feeds))
    have inflow : (now.move move).inflow = now.inflow.touch touch := told.inflow
    exact ⟨told.fed.trans none, by rw [inflow, Inflow.feeding_touch, silent, Bool.false_and]⟩
  · exact ⟨advances.fed, advances.step.feeding.trans silent⟩

/-- The failure is the last stanza on the inbound channel: once it was received the channel is
empty. -/
theorem inbound_of_received (k : Course) (alive : k.now.inflow.inbound.receiving = true)
    (closed : k.now.inflow.reader = .closed) {failure : Failure}
    (received : .failure failure ∈ k.past.received) : k.now.inflow.inbound.queue = [] := by
  obtain ⟨lost, whole, none⟩ := k.conserved.inbound
  obtain ⟨plain, told, surfaced⟩ := k.surfaced_eq alive
  rw [none alive, List.append_nil, surfaced, History.reported, if_pos (.inr closed)] at whole
  rcases k.now.inflow.inbound.queue.eq_nil_or_concat with empty | ⟨others, last, queue⟩
  · exact empty
  · exfalso
    rw [queue, List.concat_eq_append, ← List.append_assoc] at whole
    obtain ⟨elements, -⟩ := List.append_inj' whole rfl
    obtain ⟨e, -, same⟩ := told (.failure failure) (elements ▸ List.mem_append_left _ received)
    have plain := e.isFailure_readAs k.faults
    rw [← same] at plain
    cases plain

/-- An empty inbound channel whose sender is gone yields nothing for ever. -/
theorem nothing_received (k : Course) (closed : k.now.inflow.reader = .closed)
    (empty : k.now.inflow.inbound.queue = []) (more : List Move)
    (held : (k.andThen more).now.held = true) :
    ((k.andThen more).now.act .receive).1 = .nothing := by
  have still : (k.now.run more).inflow.reader = .closed ∧
      (k.now.run more).inflow.inbound.queue = [] := by
    refine Conversation.run_keeps (P := fun now => now.inflow.reader = .closed ∧
      now.inflow.inbound.queue = []) ?_ ⟨closed, empty⟩ more
    rintro now move ⟨closed, empty⟩
    refine ⟨Moment.closed_after ⟨now, move⟩ closed, ?_⟩
    refine Moment.inflow_of_after (P := fun after => after.inbound.queue = []) ⟨now, move⟩
      (fun touch => ?_) fun step => ?_
    · obtain ⟨lost, queue, -⟩ := Inflow.inbound_touch (i := now.inflow) touch
      rw [empty] at queue
      obtain ⟨kept, -⟩ := List.append_eq_nil_iff.mp queue.symm
      exact (List.append_eq_nil_iff.mp kept).2
    · rw [step.eq_of_closed closed]
      exact empty
  rw [now_andThen] at held ⊢
  simp [Conversation.answer_receive, held, still]

/-- A transport failure surfaces once and last. The inbound channel, as long as it has a receiver,
gets stanzas that are not failures and behind them at most the first failure read; no failure is
tested against a matcher or delivered to a filter. Nothing behind the first failure on the feed is
ever read, and after the peer has hung up nothing is fed. When the receiver task has exited exactly
one failure was put on the inbound channel, and once it was received, receiving yields nothing for
ever. -/
theorem failure_last (k : Course) (alive : k.now.inflow.inbound.receiving = true) :
    (∃ plain,
      (∀ stanza ∈ plain ++ k.past.handed.map Prod.snd ++ k.past.tested.map Prod.snd,
        stanza.isFailure = false ∧ k.past.Tells k.faults stanza) ∧
      (k.past.surfaced = plain ∨ ∃ failure, k.past.errors = [failure] ∧
        k.past.surfaced = plain ++ [.failure failure]) ∧
      (k.now.inflow.reader = .closed → ∃ failure, k.past.errors = [failure] ∧
        k.past.surfaced = plain ++ [.failure failure])) ∧
    k.past.errors.length ≤ 1 ∧
    (∀ before failure later, k.past.fed = before ++ .failure failure :: later →
      k.past.read <+: before ++ [.failure failure]) ∧
    (k.past.errors ≠ [] → ∀ more, (k.andThen more).past.read = k.past.read ∧
      (k.andThen more).past.tested = k.past.tested ∧
      (k.andThen more).past.handed = k.past.handed) ∧
    k.now.inflow.feed.feeding = !k.past.hungUp ∧
    (k.past.hungUp = true → ∀ more, (k.andThen more).past.fed = k.past.fed) ∧
    (k.now.inflow.reader = .closed → ∀ failure, .failure failure ∈ k.past.received →
      ∀ more, (k.andThen more).now.held = true →
        ((k.andThen more).now.act .receive).1 = .nothing) := by
  have errors := k.errors_eq
  obtain ⟨plain, told, surfaced⟩ := k.surfaced_eq alive
  have isFailure : ∀ stanza, k.past.Tells k.faults stanza → stanza.isFailure = false := by
    rintro stanza ⟨e, -, rfl⟩
    exact e.isFailure_readAs k.faults
  have ended : k.now.inflow.reader = .closing ∨ k.now.inflow.reader = .closed →
      ∃ failure, k.past.errors = [failure] ∧ k.past.surfaced = plain ++ [.failure failure] := by
    intro ending
    refine ⟨k.past.failure, ?_, by rw [surfaced, History.reported, if_pos ending]⟩
    rcases ending with ending | ending <;> simp [errors, ending, Reader.isEnding]
  refine ⟨⟨plain, fun stanza member => ?_, ?_, fun closed => ended (.inr closed)⟩, ?_,
    fun before failure later => k.read_prefix, fun failed => k.still_of_ending ?_,
    k.feeding_eq, k.fed_of_hungUp, fun closed failure received => ?_⟩
  · have tells : k.past.Tells k.faults stanza := by
      rcases List.mem_append.mp member with routed | tested
      · rcases List.mem_append.mp routed with shown | handed
        · exact told stanza shown
        · obtain ⟨hand, taken, rfl⟩ := List.mem_map.mp handed
          exact k.tells_of_handed hand taken
      · obtain ⟨test, held, rfl⟩ := List.mem_map.mp tested
        exact k.tells_of_tested test held
    exact ⟨isFailure stanza tells, tells⟩
  · by_cases ending : k.now.inflow.reader = .closing ∨ k.now.inflow.reader = .closed
    · exact .inr (ended ending)
    · exact .inl (by rw [surfaced, History.reported, if_neg ending, List.append_nil])
  · rw [errors]
    split <;> simp
  · exact Classical.byContradiction fun running => failed (by rw [errors, if_neg running])
  · exact k.nothing_received closed (k.inbound_of_received alive closed received)

/-- A filter accepts failures, another one messages. The peer feeds a message and another element,
then a failure and one element more. -/
def broken : Course where
  jid := ⟨none, "example", none⟩
  settings := { inboundCapacity := 2 }
  moves :=
    [.outside (.addFilter .own .failures), .outside (.addFilter .own (.named "message")),
      .outside (.push (.element (.named "message"))),
      .outside (.push (.element (.named "starttls"))), .outside (.push (.failure (.io "lost"))),
      .outside (.push (.element (.named "presence"))), .outside .hangUp] ++
      List.replicate 16 (.step .reader) ++ [.outside .receive, .outside .receive]

theorem failure_last_broken :
    broken.past.surfaced = [.unknown "starttls", .failure (.io "lost")] ∧
      broken.past.handed = [(1, .message {})] ∧
      (∀ test ∈ broken.past.tested, test.2.isFailure = false) ∧
      (∀ more, (broken.andThen more).past.read =
        [.element (.named "message"), .element (.named "starttls"), .failure (.io "lost")]) ∧
      broken.past.hungUp = true ∧
      (∀ more, (broken.andThen more).past.fed = broken.past.fed) ∧
      (∀ more, (broken.andThen more).now.held = true →
        ((broken.andThen more).now.act .receive).1 = .nothing) := by
  have hungUp : broken.past.hungUp = true := by decide +kernel
  have read : broken.past.read =
      [.element (.named "message"), .element (.named "starttls"), .failure (.io "lost")] := by
    decide +kernel
  obtain ⟨⟨plain, told, -, -⟩, -, -, still, -, unfed, last⟩ :=
    broken.failure_last (by decide +kernel)
  refine ⟨by decide +kernel, by decide +kernel, fun test member => ?_, fun more => ?_, hungUp,
    unfed hungUp, ?_⟩
  · exact (told test.2 (List.mem_append_right _ (List.mem_map_of_mem member))).1
  · rw [(still (by decide +kernel) more).1, read]
  · exact last (by decide +kernel) (.io "lost") (by decide +kernel)

end Course

end StanzaExchange
