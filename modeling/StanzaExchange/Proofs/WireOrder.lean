import Mathlib.Data.List.TakeWhile
import StanzaExchange.Proofs.Link

/-!
The order of the wire of the in-process transport (section 10.1 of the specification, module
memory). While the peer is alive, the observed and the queued writes are the stanzas sent before the
first `send_end`, in order, followed by one stream end. Every call of `send_end` counts, also when
its write fails.
-/
namespace StanzaExchange

namespace Wire.Touch

@[simp]
def written (w : Wire) : Touch → List Write
  | .send stanza => if w.ended || !w.listening then [] else [.stanza stanza]
  | .sendEnd => if w.ended || !w.listening then [] else [.streamEnd]
  | _ => []

@[simp]
def taken (w : Wire) : Touch → List Write
  | .take => w.writes.take 1
  | .takeAll => w.writes
  | _ => []

@[simp]
def isEnd : Touch → Bool
  | .sendEnd => true
  | _ => false

end Wire.Touch

namespace Wire

/-- The peer observes writes in order. -/
theorem writes_touch (w : Wire) (t : Touch) (stays : t ≠ .abandon) :
    w.writes ++ t.written w = t.taken w ++ (w.touch t).writes := by
  cases t with
  | send stanza =>
    simp only [Touch.written, Touch.taken, touch]
    split <;> simp
  | sendEnd => simp [Outflow.sendEnd_snd]
  | take => cases writes : w.writes <;> simp [take?, writes]
  | nothing | takeAll => simp
  | abandon => exact absurd rfl stays

/-- Every `send_end` is counted, and the first one ends the stream. -/
theorem ends_touch (w : Wire) (t : Touch) :
    (w.touch t).endWrites = w.endWrites + t.isEnd.toNat ∧
      (w.touch t).ended = (w.ended || t.isEnd) := by
  cases t with
  | send stanza =>
    simp only [touch]
    split <;> simp
  | sendEnd => simp [Outflow.sendEnd_snd]
  | take => cases writes : w.writes <;> simp [take?, writes]
  | nothing | takeAll | abandon => simp [abandon]

end Wire

namespace Script.LinkSession

variable {s : LinkSession} {step : LinkStep} {steps : List LinkStep}

/-- The stanzas sent in this step, successfully or not. -/
def sent (s : LinkSession) : LinkStep → List Stanza
  | .send stanza => if s.connected then [stanza] else []
  | _ => []

/-- The stanzas sent successfully. -/
def accepted (s : LinkSession) : LinkStep → List Stanza
  | .send stanza => if s.answer (.send stanza) = .ok then [stanza] else []
  | _ => []

/-- The answers to `send_end`. -/
def endings (s : LinkSession) : LinkStep → List Answer
  | .sendEnd => if s.connected then [s.answer .sendEnd] else []
  | _ => []

/-- The writes the peer observes. -/
def observed (s : LinkSession) : LinkStep → List Write
  | .peer step =>
    match s.answer (.peer step) with
    | .write write => [write]
    | .writes writes => writes
    | _ => []
  | _ => []

/-- The stanzas sent before the first `send_end`. -/
def timely (steps : List LinkStep) : List Stanza :=
  seen sent (steps.takeWhile fun step => !step.endsStream)

/-- The stream end, if `send_end` was called. -/
def ending (steps : List LinkStep) : List Write :=
  if (seen endings steps).isEmpty then [] else [.streamEnd]

/-- A send succeeds before the stream end, while the peer is there. -/
theorem accepted_eq (s : LinkSession) (step : LinkStep) :
    s.accepted step = if s.wire.ended || !s.wire.listening then [] else s.sent step := by
  cases step with
  | send stanza =>
    cases connected : s.connected with
    | false =>
      have gone : s.perform (.send stanza) = (.gone .transport, s) :=
        perform_of_dropped connected rfl
      simp [accepted, sent, answer, gone, connected]
    | true =>
      cases ended : s.wire.ended <;> cases listens : s.wire.listening <;>
        simp [accepted, sent, answer, perform_send, connected, ended, listens]
  | _ => simp [accepted, sent]

/-- What a step observes, by its update of the wire. -/
theorem observed_eq (s : LinkSession) (step : LinkStep) :
    s.observed step = (s.wireTouch step).taken s.wire := by
  cases step with
  | peer step =>
    cases listens : s.wire.listening with
    | false => cases step <;> simp [observed, answer, perform_of_left listens, wireTouch, listens]
    | true =>
      cases step with
      | push arrival =>
        cases fed : s.connected && s.feed.feeding <;>
          simp [observed, answer, perform_push listens, fed, wireTouch]
      | nextSent =>
        cases writes : s.wire.writes <;> cases connected : s.connected <;>
          simp [observed, answer, perform, performPeer, Wire.take?, wireTouch, listens, writes,
            connected]
      | tryNextSent =>
        cases writes : s.wire.writes <;>
          simp [observed, answer, perform, performPeer, Wire.take?, wireTouch, listens, writes]
      | hangUp | dropPeer | sent | ends =>
        simp [observed, answer, perform, performPeer, Wire.takeAll, wireTouch, listens]
  | send | sendEnd =>
    simp only [observed, wireTouch]
    split <;> rfl
  | next | decode | skip | dropTransport => rfl

/-- What a step writes: an accepted stanza, or the first stream end. -/
theorem written_eq (s : LinkSession) (step : LinkStep) :
    (s.wireTouch step).written s.wire = (s.accepted step).map .stanza ++
      if s.wire.ended || !s.wire.listening || (s.endings step).isEmpty then []
      else [.streamEnd] := by
  rw [accepted_eq]
  cases step with
  | send stanza =>
    cases connected : s.connected <;> cases ended : s.wire.ended <;>
      cases listens : s.wire.listening <;>
      simp [wireTouch, sent, endings, connected, ended, listens]
  | sendEnd =>
    cases connected : s.connected <;> simp [wireTouch, sent, endings, connected]
  | peer step =>
    cases listens : s.wire.listening <;> cases step <;> simp [wireTouch, sent, endings, listens]
  | next | decode | skip | dropTransport => simp [wireTouch, sent, endings]

theorem isEnd_eq (s : LinkSession) (step : LinkStep) :
    (s.wireTouch step).isEnd = (s.connected && step.endsStream) := by
  cases step with
  | send | sendEnd => cases connected : s.connected <;> simp [wireTouch, connected]
  | peer step => cases listens : s.wire.listening <;> cases step <;> simp [wireTouch, listens]
  | next | decode | skip | dropTransport => simp [wireTouch]

theorem endings_eq (s : LinkSession) (step : LinkStep) : s.endings step =
    if s.connected && step.endsStream then [s.answer .sendEnd] else [] := by
  cases step <;> simp [endings]

/-- Only the peer abandons the wire. -/
theorem wireTouch_ne_abandon (stays : step.dropsPeer = false) : s.wireTouch step ≠ .abandon := by
  cases step with
  | peer step =>
    cases step with
    | dropPeer => cases stays
    | nextSent | tryNextSent | sent =>
      simp only [wireTouch]
      split <;> simp
    | push | hangUp | ends => simp [wireTouch]
  | send | sendEnd =>
    simp only [wireTouch]
    split <;> simp
  | next | decode | skip | dropTransport => simp [wireTouch]

/-- Induction over the steps while the peer is alive. -/
@[elab_as_elim]
theorem present_induction {P : List LinkStep → Prop} (base : P [])
    (next : ∀ steps step, (after steps).wire.listening = true → step.dropsPeer = false →
      P steps → P (steps ++ [step])) (steps : List LinkStep)
    (present : steps.any LinkStep.dropsPeer = false) : P steps := by
  induction steps using List.reverseRecOn with
  | nil => exact base
  | append_singleton steps step ih =>
    rw [List.any_append, Bool.or_eq_false_iff] at present
    exact next steps step (by simp [listening_after, present.1]) (by simpa using present.2)
      (ih present.1)

theorem written_after (steps : List LinkStep) (present : steps.any LinkStep.dropsPeer = false) :
    seen (fun s step => (s.wireTouch step).written s.wire) steps =
      seen observed steps ++ (after steps).wire.writes := by
  refine present_induction ?_ (fun steps step listens stays ih => ?_) steps present
  · rfl
  · rw [seen_concat, seen_concat, ih, observed_eq, after_concat, (performs _ step).wire,
      List.append_assoc, Wire.writes_touch _ _ (wireTouch_ne_abandon stays), List.append_assoc]

/-- The count and the flag of the stream end, by the answers to `send_end`. -/
theorem ends_after (steps : List LinkStep) :
    (after steps).wire.endWrites = (seen endings steps).length ∧
      (after steps).wire.ended = !(seen endings steps).isEmpty := by
  induction steps using List.reverseRecOn with
  | nil => exact ⟨rfl, rfl⟩
  | append_singleton steps step ih =>
    obtain ⟨count, ended⟩ := (after steps).wire.ends_touch ((after steps).wireTouch step)
    rw [after_concat, (performs _ step).wire, seen_concat, count, ended, ih.1, ih.2, isEnd_eq,
      endings_eq]
    cases (after steps).connected && step.endsStream <;> simp

theorem ended_after (steps : List LinkStep) (connected : (after steps).connected = true) :
    (after steps).wire.ended = steps.any LinkStep.endsStream := by
  induction steps using List.reverseRecOn with
  | nil => rfl
  | append_singleton steps step ih =>
    rw [after_concat] at connected ⊢
    rw [(performs _ step).connected, Bool.and_eq_true] at connected
    rw [(performs _ step).wire, (Wire.ends_touch _ _).2, isEnd_eq, ih connected.1,
      connected.1, List.any_append]
    simp

/-- The recursion of `timely` over the steps. -/
theorem timely_concat : timely (steps ++ [step]) =
    timely steps ++ if steps.any LinkStep.endsStream then [] else (after steps).sent step := by
  unfold timely
  rw [List.takeWhile_append]
  cases early : steps.any LinkStep.endsStream with
  | true =>
    have cut : ¬(steps.takeWhile fun step => !step.endsStream).length = steps.length := by
      intro whole
      have all := List.takeWhile_eq_self_iff.mp ((List.takeWhile_prefix _).eq_of_length whole)
      obtain ⟨first, member, ends⟩ := List.any_eq_true.mp early
      cases (all first member).symm.trans (congrArg not ends)
    rw [if_neg cut, if_pos rfl, List.append_nil]
  | false =>
    have all : (steps.takeWhile fun step => !step.endsStream) = steps := by
      rw [List.takeWhile_eq_self_iff]
      intro step member
      rw [Bool.not_eq_true', ← Bool.not_eq_true]
      exact List.any_eq_false.mp early step member
    rw [all, if_pos rfl]
    cases step <;> simp [sent]

/-- Exactly the timely stanzas are accepted while the peer is alive. -/
theorem accepted_after (steps : List LinkStep) (present : steps.any LinkStep.dropsPeer = false) :
    seen accepted steps = timely steps := by
  refine present_induction ?_ (fun steps step listens stays ih => ?_) steps present
  · rfl
  · rw [seen_concat, timely_concat, ih, accepted_eq, listens, Bool.not_true, Bool.or_false]
    -- without a transport neither `send` nor `send_end` has any effect
    cases connected : (after steps).connected with
    | true => rw [ended_after steps connected]
    | false =>
      have unsent : (after steps).sent step = [] := by cases step <;> simp [sent, connected]
      simp [unsent]

/-- The writes are the accepted stanzas and the stream end. -/
theorem written_eq_accepted (steps : List LinkStep)
    (present : steps.any LinkStep.dropsPeer = false) :
    seen (fun s step => (s.wireTouch step).written s.wire) steps =
      (seen accepted steps).map .stanza ++ ending steps := by
  refine present_induction ?_ (fun steps step listens stays ih => ?_) steps present
  · rfl
  · have ended := (ends_after steps).2
    rw [seen_concat, seen_concat, ih, written_eq, accepted_eq, listens]
    unfold ending
    rw [seen_concat]
    cases none : (seen endings steps).isEmpty with
    | true =>
      rw [none] at ended
      simp [ended, List.isEmpty_iff.mp none]
    | false =>
      rw [none] at ended
      have some : ¬(seen endings steps ++ (after steps).endings step).isEmpty := by simp_all
      simp [ended, some]

/-- The write side of the in-process transport. While the peer is alive it observes the stanzas sent
before the first `send_end`, in order, and one stream end; exactly these sends succeed. After the
stream end or without the peer every send answers closed and changes nothing. Every `send_end` is
counted, the first one ends the stream, and the later ones fail with a framing error and write
nothing. -/
theorem written_in_order (steps : List LinkStep) :
    (steps.any LinkStep.dropsPeer = false →
      seen observed steps ++ (after steps).wire.writes =
        (timely steps).map .stanza ++ ending steps ∧
      seen accepted steps = timely steps) ∧
    ((after steps).connected = true → ∀ stanza, (after steps).perform (.send stanza) =
      if (seen endings steps).isEmpty && !steps.any LinkStep.dropsPeer then
        (.ok, { after steps with
          wire.writes := (after steps).wire.writes ++ [.stanza stanza] })
      else (.failed .closed, after steps)) ∧
    ((after steps).connected = true → (after steps).answer .sendEnd =
        (if !(seen endings steps).isEmpty then .failed (.framing "stream end written twice")
        else if steps.any LinkStep.dropsPeer then .failed .closed
        else .ok) ∧
      ((after steps).performed .sendEnd).wire.writes = (after steps).wire.writes ++
        if (seen endings steps).isEmpty && !steps.any LinkStep.dropsPeer then [.streamEnd]
        else []) ∧
    (after steps).wire.endWrites = (seen endings steps).length ∧
    ((after steps).wire.ended = true ↔ 0 < (seen endings steps).length) ∧
    (steps.any LinkStep.dropsPeer = false → (after steps).answer (.peer .ends) =
      .ends (seen endings steps).length (!(seen endings steps).isEmpty)) := by
  obtain ⟨count, ended⟩ := ends_after steps
  have listens := listening_after steps
  refine ⟨fun present => ⟨?_, accepted_after steps present⟩,
    fun connected stanza => ?_, fun connected => ⟨?_, ?_⟩, count, ?_, fun present => ?_⟩
  · rw [← written_after steps present, written_eq_accepted steps present,
      accepted_after steps present]
  · have closed : ((after steps).wire.ended || !(after steps).wire.listening) =
        !((seen endings steps).isEmpty && !steps.any LinkStep.dropsPeer) := by
      rw [ended, listens, Bool.not_and]
    rw [perform_send connected, closed]
    cases (seen endings steps).isEmpty && !steps.any LinkStep.dropsPeer <;> rfl
  · rw [answer, (perform_sendEnd connected).1, ended, listens]
    cases steps.any LinkStep.dropsPeer <;> rfl
  · obtain ⟨-, journal, ends⟩ := perform_sendEnd connected
    rw [performed, ends, Outflow.sendEnd_snd, ended, listens]
    cases (seen endings steps).isEmpty <;> cases steps.any LinkStep.dropsPeer <;> rfl
  · rw [ended, Bool.not_eq_true', List.isEmpty_eq_false_iff, List.length_pos_iff]
  · rw [present] at listens
    simp [answer, perform, performPeer, listens, count, ended]

/-- A message with this body. -/
def saying (text : String) : Stanza := .message { body := some text }

/-- One stanza before and one after the stream end, which is written twice. -/
def closing : List LinkStep :=
  [.send (saying "one"), .peer .nextSent, .send (saying "two"), .sendEnd, .send (saying "late"),
    .sendEnd]

theorem written_in_order_closing :
    seen observed closing ++ (after closing).wire.writes =
        [.stanza (saying "one"), .stanza (saying "two"), .streamEnd] ∧
      seen accepted closing = [saying "one", saying "two"] ∧
      (after closing).perform (.send (saying "later")) = (.failed .closed, after closing) ∧
      (after closing).answer .sendEnd = .failed (.framing "stream end written twice") ∧
      (after closing).answer (.peer .ends) = .ends 2 true ∧
      (after [.peer .dropPeer]).answer .sendEnd = .failed .closed ∧
      (after [.peer .dropPeer, .sendEnd]).wire.endWrites = 1 := by
  obtain ⟨present, send, sendEnd, -, -, ends⟩ := written_in_order closing
  obtain ⟨-, -, unobserved, -, -, -⟩ := written_in_order [.peer .dropPeer]
  obtain ⟨-, -, -, counted, -, -⟩ := written_in_order [.peer .dropPeer, .sendEnd]
  obtain ⟨written, accepted⟩ := present (by decide)
  exact ⟨written.trans (by decide +kernel), accepted.trans (by decide +kernel), send rfl _,
    (sendEnd rfl).1, ends (by decide), (unobserved rfl).1, counted⟩

end Script.LinkSession

end StanzaExchange
