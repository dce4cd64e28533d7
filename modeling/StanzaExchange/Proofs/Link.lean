import StanzaExchange.Proofs.InboundOrder
import StanzaExchange.Proofs.Outflow
import StanzaExchange.Proofs.Sequences
import StanzaExchange.Script.Link

/-!
Steps of the in-process transport without a conversation (section 10.1 of the specification, module
memory). `performs` determines every step by an update of the feed, an update of the wire, and an
answer; nothing happens once the peer or the transport is dropped, except on the other side. `seen`
collects what a sequence of steps shows.
-/
namespace StanzaExchange

namespace Feed

/-- The updates of the feed. -/
inductive Touch where
  | nothing
  | push (arrival : Arrival)
  | hangUp
  /-- The next arrival is read, if any. -/
  | read
  /-- The pending body is taken or dropped. -/
  | clear

@[simp]
def touch (f : Feed) : Touch → Feed
  | .nothing => f
  | .push arrival => { f with arrivals := f.arrivals ++ [arrival] }
  | .hangUp => f.hangUp
  | .read =>
    match f.arrivals with
    | .element e :: rest => { f with arrivals := rest, body := some e }
    | .failure _ :: rest => { f with arrivals := rest }
    | [] => f
  | .clear => { f with body := none }

namespace Touch

@[simp]
def pushed : Touch → List Arrival
  | .push arrival => [arrival]
  | _ => []

@[simp]
def taken (f : Feed) : Touch → List Arrival
  | .read => f.arrivals.take 1
  | _ => []

end Touch

/-- Arrivals are read in the order in which they were fed. -/
theorem arrivals_touch (f : Feed) (t : Touch) :
    f.arrivals ++ t.pushed = t.taken f ++ (f.touch t).arrivals := by
  cases t with
  | read => rcases arrivals : f.arrivals with _ | ⟨e | failure, rest⟩ <;> simp [arrivals]
  | nothing | push | hangUp | clear => simp [hangUp]

theorem feeding_touch (f : Feed) (t : Touch) :
    (f.touch t).feeding = true ↔ f.feeding = true ∧ t ≠ .hangUp := by
  cases t with
  | read => rcases arrivals : f.arrivals with _ | ⟨e | failure, rest⟩ <;> simp [arrivals]
  | nothing | push | hangUp | clear => simp [hangUp]

end Feed

namespace Wire

/-- The updates of the wire. -/
inductive Touch where
  | nothing
  | send (stanza : Stanza)
  | sendEnd
  /-- The peer takes the oldest write, if any. -/
  | take
  | takeAll
  | abandon

@[simp]
def touch (w : Wire) : Touch → Wire
  | .nothing => w
  | .send stanza =>
    if w.ended || !w.listening then w else { w with writes := w.writes ++ [.stanza stanza] }
  | .sendEnd => w.sendEnd.2
  | .take => (w.take?.map (·.2)).getD w
  | .takeAll => { w with writes := [] }
  | .abandon => w.abandon

theorem listening_touch (w : Wire) (t : Touch) :
    (w.touch t).listening = (match t with | .abandon => false | _ => w.listening) := by
  cases t with
  | send stanza =>
    simp only [touch]
    split <;> rfl
  | sendEnd => simp [Outflow.sendEnd_snd]
  | take => cases writes : w.writes <;> simp [take?, writes]
  | nothing | takeAll | abandon => rfl

end Wire

/-- The result of `next` for an arrival. -/
def Arrival.outcome : Arrival → Except Failure StartTag
  | .element e => .ok e.startTag
  | .failure fault => .error fault

def Answer.decoded : Except DecodeError Stanza → Answer
  | .ok content => .stanza content
  | .error refusal => .undecoded refusal

namespace Script

namespace LinkStep

/-- A step of the peer. -/
@[simp]
def isOfPeer : LinkStep → Bool
  | .peer _ => true
  | _ => false

/-- The peer hangs up or is dropped. -/
@[simp]
def hangsUp : LinkStep → Bool
  | .peer .hangUp | .peer .dropPeer => true
  | _ => false

@[simp]
def dropsPeer : LinkStep → Bool
  | .peer .dropPeer => true
  | _ => false

@[simp]
def dropsTransport : LinkStep → Bool
  | .dropTransport => true
  | _ => false

@[simp]
def endsStream : LinkStep → Bool
  | .sendEnd => true
  | _ => false

end LinkStep

namespace LinkSession

variable {s : LinkSession} {step : LinkStep} {choice : StartChoice} {start : StartTag} {tag : Tag}

def answer (s : LinkSession) (step : LinkStep) : Answer := (s.perform step).1

def performed (s : LinkSession) (step : LinkStep) : LinkSession := (s.perform step).2

/-- The start tag has the name of the pending body. -/
def meansBody (s : LinkSession) (choice : StartChoice) : Bool :=
  match s.start? choice, s.feed.body with
  | some start, some e => e.name = start.name
  | _, _ => false

def feedTouch (s : LinkSession) : LinkStep → Feed.Touch
  | .peer (.push arrival) =>
    if s.wire.listening && s.connected && s.feed.feeding then .push arrival else .nothing
  | .peer .hangUp | .peer .dropPeer => if s.wire.listening then .hangUp else .nothing
  | .next => if s.connected then .read else .nothing
  | .decode _ choice => if s.connected && (s.start? choice).isSome then .clear else .nothing
  | .skip choice => if s.connected && s.meansBody choice then .clear else .nothing
  | _ => .nothing

def wireTouch (s : LinkSession) : LinkStep → Wire.Touch
  | .peer .nextSent | .peer .tryNextSent => if s.wire.listening then .take else .nothing
  | .peer .sent => if s.wire.listening then .takeAll else .nothing
  | .peer .dropPeer => if s.wire.listening then .abandon else .nothing
  | .send stanza => if s.connected then .send stanza else .nothing
  | .sendEnd => if s.connected then .sendEnd else .nothing
  | _ => .nothing

/-- The effect of a step, apart from the journal. -/
structure Performs (s : LinkSession) (step : LinkStep) (after : LinkSession) : Prop where
  feed : after.feed = s.feed.touch (s.feedTouch step)
  wire : after.wire = s.wire.touch (s.wireTouch step)
  connected : after.connected = (s.connected && !step.dropsTransport)
  starts : after.starts =
    s.starts ++ (((s.feedTouch step).taken s.feed).filterMap Arrival.element?).map Element.startTag

theorem perform_of_left (left : s.wire.listening = false) (step : PeerStep) :
    s.perform (.peer step) = (.gone .peer, s) := by
  simp [perform, performPeer, left]

theorem perform_of_dropped (dropped : s.connected = false) (own : step.isOfPeer = false) :
    s.perform step = (.gone .transport, s) := by
  cases step with
  | peer step => cases own
  | _ => simp [perform, dropped]

theorem perform_push (listens : s.wire.listening = true) (arrival : Arrival) :
    s.perform (.peer (.push arrival)) =
      if s.connected && s.feed.feeding then
        (.flag true, { s with feed := s.feed.touch (.push arrival) })
      else (.flag false, s) := by
  cases connected : s.connected <;> cases feeding : s.feed.feeding <;>
    simp [perform, performPeer, Feed.push?, listens, connected, feeding]

theorem perform_next (connected : s.connected = true) :
    s.perform .next =
      match s.feed.arrivals with
      | .element e :: _ =>
        (.startTag e.startTag, { s with
          feed := s.feed.touch .read
          starts := s.starts ++ [e.startTag] })
      | .failure failure :: _ => (.failed failure, { s with feed := s.feed.touch .read })
      | [] => (if s.feed.feeding then .pending else .failed .closed, s) := by
  rcases arrivals : s.feed.arrivals with _ | ⟨e | failure, rest⟩
  · cases feeding : s.feed.feeding <;> cases s <;> simp_all [perform, Feed.next?]
  · simp [perform, Feed.next?, connected, arrivals]
  · simp [perform, Feed.next?, connected, arrivals]

theorem perform_decode (connected : s.connected = true) (means : s.start? choice = some start)
    (tag : Tag) : s.perform (.decode tag choice) =
      (.decoded (s.feed.decode tag start).1, { s with feed := s.feed.touch .clear }) := by
  simp only [perform, connected, means]
  rcases found : s.feed.decode tag start with ⟨error | stanza, feed⟩ <;>
  · obtain rfl : { s.feed with body := none } = feed := congrArg Prod.snd found
    rfl

theorem perform_skip (connected : s.connected = true) (means : s.start? choice = some start) :
    s.perform (.skip choice) =
      (.ok, { s with feed := s.feed.touch (if s.meansBody choice then .clear else .nothing) }) := by
  cases body : s.feed.body with
  | none => simp [perform, Feed.skip, meansBody, connected, means, body]
  | some e =>
    by_cases same : e.name = start.name <;>
      simp [perform, Feed.skip, meansBody, connected, means, body, same]

theorem perform_unmeant (connected : s.connected = true) (unmeant : s.start? choice = none) :
    (∀ tag, s.perform (.decode tag choice) = (.gone .start, s)) ∧
      s.perform (.skip choice) = (.gone .start, s) := by
  simp [perform, connected, unmeant]

theorem perform_send (connected : s.connected = true) (stanza : Stanza) :
    s.perform (.send stanza) =
      if s.wire.ended || !s.wire.listening then (.failed .closed, s)
      else (.ok, { s with wire.writes := s.wire.writes ++ [.stanza stanza] }) := by
  cases ended : s.wire.ended <;> cases listens : s.wire.listening <;>
    simp [perform, Wire.send, connected, ended, listens]

theorem perform_sendEnd (connected : s.connected = true) :
    (s.perform .sendEnd).1 =
        (if s.wire.ended then .failed (.framing "stream end written twice")
        else if s.wire.listening then .ok else .failed .closed) ∧
      ∃ journal, (s.perform .sendEnd).2 = { s with wire := s.wire.sendEnd.2, journal } := by
  cases ended : s.wire.ended <;> cases listens : s.wire.listening <;>
    simp [perform, Wire.sendEnd, connected, ended, listens]

theorem Performs.still (feed : s.feedTouch step = .nothing) (wire : s.wireTouch step = .nothing)
    (connected : (s.connected && !step.dropsTransport) = s.connected) : s.Performs step s where
  feed := by simp [feed]
  wire := by simp [wire]
  connected := connected.symm
  starts := by simp [feed]

/-- The steps of a peer that is there. -/
theorem performs_peer (listens : s.wire.listening = true) (step : PeerStep) :
    s.Performs (.peer step) (s.performed (.peer step)) := by
  cases step with
  | push arrival =>
    cases connected : s.connected <;> cases feeding : s.feed.feeding <;> constructor <;>
      simp [performed, perform_push, feedTouch, wireTouch, listens, connected, feeding]
  | hangUp | dropPeer | sent | ends =>
    constructor <;>
      simp [performed, perform, performPeer, feedTouch, wireTouch, listens, Wire.takeAll]
  | nextSent | tryNextSent =>
    cases first : s.wire.take? <;> constructor <;>
      simp [performed, perform, performPeer, feedTouch, wireTouch, listens, first]

/-- The steps of a transport that is there. -/
theorem performs_own (connected : s.connected = true) (own : step.isOfPeer = false) :
    s.Performs step (s.performed step) := by
  cases step with
  | peer step => cases own
  | next =>
    rcases arrivals : s.feed.arrivals with _ | ⟨e | failure, rest⟩ <;> constructor <;>
      simp [performed, perform_next, feedTouch, wireTouch, connected, arrivals, Arrival.element?]
  | decode tag choice =>
    cases means : s.start? choice with
    | none =>
      constructor <;>
        simp [performed, perform_unmeant, feedTouch, wireTouch, connected, means]
    | some start =>
      constructor <;>
        simp [performed, perform_decode connected means, feedTouch, wireTouch, connected, means]
  | skip choice =>
    cases means : s.start? choice with
    | none =>
      constructor <;>
        simp [performed, perform_unmeant, feedTouch, wireTouch, connected, means, meansBody]
    | some start =>
      cases same : s.meansBody choice <;> constructor <;>
        simp [performed, perform_skip connected means, feedTouch, wireTouch, connected, same]
  | send stanza =>
    cases ended : s.wire.ended <;> cases listens : s.wire.listening <;> constructor <;>
      simp [performed, perform_send connected, feedTouch, wireTouch, connected, ended, listens]
  | sendEnd =>
    obtain ⟨-, journal, after⟩ := perform_sendEnd connected
    constructor <;> simp [performed, after, feedTouch, wireTouch, connected]
  | dropTransport =>
    constructor <;> simp [performed, perform, feedTouch, wireTouch, connected]

/-- Every step has the effect determined by its updates. -/
theorem performs (s : LinkSession) (step : LinkStep) : s.Performs step (s.performed step) := by
  cases ofPeer : step.isOfPeer with
  | true =>
    cases step with
    | peer step =>
      cases listens : s.wire.listening with
      | true => exact performs_peer listens step
      | false =>
        rw [performed, perform_of_left listens]
        refine .still ?_ ?_ (by simp) <;> cases step <;> simp [feedTouch, wireTouch, listens]
    | _ => cases ofPeer
  | false =>
    cases connected : s.connected with
    | true => exact performs_own connected ofPeer
    | false =>
      rw [performed, perform_of_dropped connected ofPeer]
      refine .still ?_ ?_ (by simp [connected]) <;>
        cases step <;> simp_all [feedTouch, wireTouch]

/-- The state after a sequence of steps from the start. -/
def after (steps : List LinkStep) : LinkSession := steps.foldl performed {}

/-- The observations of a sequence of steps. -/
def seen {α : Type} (see : LinkSession → LinkStep → List α) (steps : List LinkStep) : List α :=
  (trail performed {} steps).flatMap fun o => see o.before o.move

section Runs

variable {α : Type} {see : LinkSession → LinkStep → List α} {steps more : List LinkStep}

theorem after_append : after (steps ++ more) = more.foldl performed (after steps) :=
  List.foldl_append

@[simp] theorem after_concat : after (steps ++ [step]) = (after steps).performed step :=
  after_append

@[simp] theorem seen_concat :
    seen see (steps ++ [step]) = seen see steps ++ see (after steps) step := by
  simp [seen, trail_append, trail, after]

theorem connected_after (steps : List LinkStep) :
    (after steps).connected = !steps.any LinkStep.dropsTransport := by
  induction steps using List.reverseRecOn with
  | nil => rfl
  | append_singleton steps step ih =>
    rw [after_concat, (performs _ step).connected, ih]
    simp

theorem listening_performed (s : LinkSession) (step : LinkStep) :
    (s.performed step).wire.listening = (s.wire.listening && !step.dropsPeer) := by
  rw [(performs s step).wire, Wire.listening_touch]
  cases step with
  | peer step => cases listens : s.wire.listening <;> cases step <;> simp [wireTouch, listens]
  | send | sendEnd => cases connected : s.connected <;> simp [wireTouch, connected]
  | next | decode | skip | dropTransport => simp [wireTouch]

theorem listening_after (steps : List LinkStep) :
    (after steps).wire.listening = !steps.any LinkStep.dropsPeer := by
  induction steps using List.reverseRecOn with
  | nil => rfl
  | append_singleton steps step ih =>
    rw [after_concat, listening_performed, ih]
    simp

/-- The feed is closed exactly by a peer that is there and hangs up. -/
theorem feedTouch_eq_hangUp_iff :
    s.feedTouch step = .hangUp ↔ s.wire.listening = true ∧ step.hangsUp = true := by
  cases step with
  | peer step =>
    cases step with
    | push | hangUp | dropPeer =>
      simp only [feedTouch]
      split <;> simp_all
    | nextSent | tryNextSent | sent | ends => simp [feedTouch]
  | next | decode | skip =>
    simp only [feedTouch]
    split <;> simp
  | send | sendEnd | dropTransport => simp [feedTouch]

/-- The feed is open until the peer hangs up or is dropped. -/
theorem feeding_after (steps : List LinkStep) :
    (after steps).feed.feeding = !steps.any LinkStep.hangsUp := by
  induction steps using List.reverseRecOn with
  | nil => rfl
  | append_singleton steps step ih =>
    have gone : (after steps).wire.listening = false → (after steps).feed.feeding = false := by
      rw [listening_after, ih]
      simp only [Bool.not_eq_false', List.any_eq_true]
      rintro ⟨dropping, member, drops⟩
      refine ⟨dropping, member, ?_⟩
      unfold LinkStep.dropsPeer at drops
      split at drops
      · rfl
      · cases drops
    rw [Bool.eq_iff_iff, after_concat, (performs _ step).feed, Feed.feeding_touch, ne_eq,
      feedTouch_eq_hangUp_iff]
    cases listens : (after steps).wire.listening with
    | false => simp [gone listens, ih ▸ gone listens]
    | true => simp [ih]

end Runs

end LinkSession

end Script

end StanzaExchange
