import StanzaExchange.Conversation.Outflow
import StanzaExchange.Proofs.Registry

/-!
The outbound half as a state machine. Its moves are the polls of the sender task and the operations
of everybody else (`Touch`). `Advance` is the inversion of a poll and `Idle` of a pending one. Calls
put stanzas on the outbound channel, the sender task takes them, and the application and both tasks
can terminate the stream; `Sound` and `EndsOnce` are the invariants.
-/
namespace StanzaExchange

/-- The stanza that the task has taken and not yet written. -/
def Writer.inHand : Writer → List Stanza
  | .writing stanza => [stanza]
  | .taking | .closed => []

namespace Outflow

/-- An operation on the outbound half by the application, a call, the receiver task or the peer. -/
inductive Touch where
  | nothing
  /-- A send that finds a free slot. -/
  | put (stanza : Stanza)
  | await (ticket : Nat)
  /-- A waiting sender that gets a slot. -/
  | redeem (ticket : Nat) (stanza : Stanza)
  | withdraw (ticket : Nat)
  /-- The peer receives the oldest writes. -/
  | observe (count : Nat)
  /-- The peer is dropped. -/
  | abandon
  | stall (value : Bool)
  | close (origin : Reporter)

variable {o after : Outflow} {faults : Faults} {origin : Reporter} {producing : Bool}
  {events : List Event}

def touch (faults : Faults) (o : Outflow) : Touch → Outflow
  | .nothing => o
  | .put stanza => { o with outbound := { o.outbound with queue := o.outbound.queue ++ [stanza] } }
  | .await ticket => { o with outbound := o.outbound.await ticket }
  | .redeem ticket stanza =>
    let put := { o.outbound with queue := o.outbound.queue ++ [stanza] }
    { o with outbound := put.withdraw ticket }
  | .withdraw ticket => { o with outbound := o.outbound.withdraw ticket }
  | .observe count => { o with wire := { o.wire with writes := o.wire.writes.drop count } }
  | .abandon => { o with wire := o.wire.abandon }
  | .stall value => { o with stalled := value }
  | .close origin => (o.close faults origin).2.1

namespace Touch

/-- The stanzas put on the channel. -/
def put? : Touch → List Stanza
  | .put stanza | .redeem _ stanza => [stanza]
  | _ => []

/-- The originator of a termination. -/
def closer? : Touch → Option Reporter
  | .close origin => some origin
  | _ => none

def observed (w : Wire) : Touch → List Write
  | .observe count => w.writes.take count
  | _ => []

/-- Neither a termination nor a receive of the peer. -/
def isMild : Touch → Bool
  | .close _ | .observe _ => false
  | _ => true

theorem of_isMild {t : Touch} (mild : t.isMild = true) (w : Wire) :
    t.closer? = none ∧ t.observed w = [] := by
  cases t <;> first | exact ⟨rfl, rfl⟩ | cases mild

/-- The waiting senders after an operation. -/
def row (before : Nat → Bool) : Touch → Nat → Bool
  | .await ticket, n => n == ticket || before n
  | .redeem ticket _, n | .withdraw ticket, n => n != ticket && before n
  | _, n => before n

/-- The channel has a receiver and a slot for what the operation puts there. -/
def Fits (o : Outflow) : Touch → Prop
  | .put _ => o.outbound.receiving = true ∧
      o.outbound.queue.length + o.outbound.waiting.length < o.outbound.capacity
  | .redeem ticket _ => o.outbound.receiving = true ∧
      o.outbound.queue.length + o.outbound.waiting.idxOf ticket < o.outbound.capacity
  | _ => True

theorem Fits.receiving {t : Touch} (fits : t.Fits o) (puts : t.put? ≠ []) :
    o.outbound.receiving = true := by
  cases t with
  | put | redeem => exact fits.1
  | _ => exact absurd rfl puts

end Touch

/-- The guard: the first termination writes the stream end, every later one changes nothing. -/
theorem close_eq : (o.close faults origin).2.1 =
    if o.terminated then o
    else { o with wire := (writeEnd faults o.wire).2.1, terminated := true } := by
  unfold close
  split <;> rfl

theorem close_fst : (o.close faults origin).1 = !o.terminated := by
  unfold close
  cases o.terminated <;> rfl

@[simp] theorem outbound_close : (o.close faults origin).2.1.outbound = o.outbound := by
  rw [close_eq]
  split <;> rfl

@[simp] theorem writer_close : (o.close faults origin).2.1.writer = o.writer := by
  rw [close_eq]
  split <;> rfl

@[simp] theorem terminated_close : (o.close faults origin).2.1.terminated = true := by
  rw [close_eq]
  split
  next ended => exact ended
  · rfl

theorem terminated_touch (t : Touch) :
    (o.touch faults t).terminated = (o.terminated || t.closer?.isSome) := by
  cases t <;> simp [touch, Touch.closer?]

/-- Every attempt counts; the first one ends the stream, and is observed if the peer is there. -/
theorem sendEnd_snd (w : Wire) : w.sendEnd.2 =
    { w with
      writes := w.writes ++ if w.ended || !w.listening then [] else [.streamEnd]
      ended := true
      endWrites := w.endWrites + 1 } := by
  unfold Wire.sendEnd
  cases w.ended <;> cases w.listening <;> simp

theorem wire_writeEnd (w : Wire) :
    (writeEnd faults w).2.1 = if faults.sendEnd then w else w.sendEnd.2 := by
  unfold writeEnd
  split <;> rfl

/-- A termination appends at most the stream end to the unobserved writes. -/
theorem writes_close (faults : Faults) (o : Outflow) (origin : Reporter) :
    ∃ marks, (o.close faults origin).2.1.wire.writes = o.wire.writes ++ marks ∧
      (marks = [] ∨ marks = [.streamEnd]) := by
  rw [close_eq]
  split
  · exact ⟨[], by simp, .inl rfl⟩
  · rw [wire_writeEnd]
    split
    · exact ⟨[], by simp, .inl rfl⟩
    · rw [sendEnd_snd]
      refine ⟨_, rfl, ?_⟩
      split
      · exact .inl rfl
      · exact .inr rfl

/-- The states in which the sender task is pending or has exited. -/
inductive Idle (producing : Bool) (o : Outflow) : Prop
  | finished (closed : o.writer = .closed)
  | unasked (idle : o.writer = .taking) (goes : o.terminated = false)
      (empty : o.outbound.queue = []) (more : producing = true)
  | held {stanza : Stanza} (busy : o.writer = .writing stanza) (stalls : o.stalled = true)

/-- Whether a write of a stanza fails. -/
def Barred (faults : Faults) (o : Outflow) : Prop :=
  faults.send = true ∨ o.wire.ended = true ∨ o.wire.listening = false

/-- The effects and events of one poll of the sender task. -/
inductive Advance (faults : Faults) (producing : Bool) (o : Outflow) :
    List Event → Outflow → Prop
  | waits (idle : o.Idle producing) : Advance faults producing o [] o
  | takes {stanza : Stanza} {rest : List Stanza} {events : List Event} (idle : o.writer = .taking)
      (goes : o.terminated = false) (first : o.outbound.queue = stanza :: rest)
      (traces : events = [] ∨ events = [.writing]) :
      Advance faults producing o events
        { o with outbound := { o.outbound with queue := rest }, writer := .writing stanza }
  | writes {stanza : Stanza} (busy : o.writer = .writing stanza) (free : ¬o.Barred faults) :
      Advance faults producing o []
        { o with
          wire := { o.wire with writes := o.wire.writes ++ [.stanza stanza] }, writer := .taking }
  | loses {stanza : Stanza} {failure : Failure} (busy : o.writer = .writing stanza)
      (barred : o.Barred faults) :
      Advance faults producing o [.writeFailed stanza.shortName failure]
        { o with writer := .taking }
  | stops (idle : o.writer = .taking) (ended : o.terminated = true) :
      Advance faults producing o [.writerStopped o.outbound.queue.length] o.stop
  | ends (idle : o.writer = .taking) (goes : o.terminated = false)
      (empty : o.outbound.queue = []) (alone : producing = false) :
      Advance faults producing o (.outboundClosed :: (o.close faults .writer).2.2)
        (o.close faults .writer).2.1.stop

/-- Whether the next poll terminates the stream itself: the channel is closed and empty. -/
def asks (producing : Bool) (o : Outflow) : Bool :=
  o.writer = .taking && !o.terminated && o.outbound.queue.isEmpty && !producing

theorem Idle.asks (idle : o.Idle producing) : o.asks producing = false := by
  cases idle with
  | finished closed => simp [Outflow.asks, closed]
  | unasked idle goes empty more => simp [Outflow.asks, more]
  | held busy stalls => simp [Outflow.asks, busy]

/-- Inversion of a pending poll. -/
theorem step?_eq_none {trace : Bool} (waits : o.step? faults trace producing = none) :
    o.Idle producing := by
  unfold step? at waits
  split at waits
  next idle =>
    split at waits
    · cases waits
    next goes =>
      split at waits
      · cases waits
      next untaken =>
        split at waits
        next more => exact .unasked idle (by simpa using goes) (Channel.take?_eq_none untaken) more
        · cases waits
  next stanza busy =>
    split at waits
    next stalls => exact .held busy stalls
    · split at waits <;> cases waits
  next finished => exact .finished finished

/-- A write fails exactly if it is barred: by the fault, the stream end, or a peer that is gone. -/
theorem write_spec (faults : Faults) (o : Outflow) (stanza : Stanza) :
    (¬o.Barred faults ∧ write faults o.wire stanza =
      .ok { o.wire with writes := o.wire.writes ++ [.stanza stanza] }) ∨
    (o.Barred faults ∧ ∃ failure, write faults o.wire stanza = .error failure) := by
  by_cases send : faults.send = true
  · exact .inr ⟨.inl send, _, if_pos send⟩
  · by_cases ended : o.wire.ended = true
    · exact .inr ⟨.inr (.inl ended), .closed, by simp [write, send, Wire.send, ended]⟩
    · by_cases listens : o.wire.listening = true
      · exact .inl ⟨by simp [Barred, send, ended, listens],
          by simp [write, send, Wire.send, ended, listens]⟩
      · exact .inr ⟨.inr (.inr (by simpa using listens)), .closed,
          by simp [write, send, Wire.send, ended, listens]⟩

/-- Inversion: every poll is one of the cases of `Advance`. -/
theorem step?_advance {trace : Bool} {events : List Event}
    (step : o.step? faults trace producing = some (after, events)) :
    Advance faults producing o events after := by
  unfold step? at step
  split at step
  next idle =>
    split at step
    next ended =>
      cases step
      exact .stops idle ended
    next goes =>
      have goes : o.terminated = false := by simpa using goes
      split at step
      next stanza outbound taken =>
        cases step
        obtain ⟨rest, first, rfl⟩ := Channel.take?_eq_some taken
        exact .takes idle goes first (by cases trace <;> simp)
      next untaken =>
        have empty := Channel.take?_eq_none untaken
        split at step
        · cases step
        next alone =>
          cases step
          exact .ends idle goes empty (by simpa using alone)
  next stanza busy =>
    split at step
    · cases step
    · rcases write_spec faults o stanza with ⟨free, wrote⟩ | ⟨barred, failure, failed⟩
      · rw [wrote] at step
        cases step
        exact .writes busy free
      · rw [failed] at step
        cases step
        exact .loses busy barred
  · cases step

/-- The sender task takes the guard exactly when it ends the stream itself. -/
theorem Advance.terminated (step : Advance faults producing o events after) :
    after.terminated = (o.terminated || o.asks producing) := by
  cases step with
  | waits idle => simp [idle.asks]
  | takes idle goes first => simp [asks, first]
  | writes busy | loses busy => simp [asks, busy]
  | stops idle ended => simp [stop, ended]
  | ends idle goes empty alone => simp [stop, asks, idle, goes, empty, alone]

theorem Advance.waiting (step : Advance faults producing o events after) :
    after.outbound.waiting = o.outbound.waiting := by
  cases step <;> simp [stop, Channel.shut]

/-- The invariant of the outbound half: the capacity is positive; the receiver of the channel lives
until the task exits; the task exits, and the wire ends, only after termination. -/
structure Sound (o : Outflow) : Prop where
  room : 0 < o.outbound.capacity
  shut : o.outbound.receiving = false ↔ o.writer = .closed
  stopped : o.writer = .closed → o.terminated = true ∧ o.outbound.queue = []
  ended : o.wire.ended = true → o.terminated = true

namespace Sound

theorem receiving (sound : o.Sound) (goes : o.writer ≠ .closed) : o.outbound.receiving = true := by
  cases reads : o.outbound.receiving with
  | true => rfl
  | false => exact absurd (sound.shut.mp reads) goes

theorem goes (sound : o.Sound) (reads : o.outbound.receiving = true) : o.writer ≠ .closed :=
  fun closed => Bool.false_ne_true ((sound.shut.mpr closed).symm.trans reads)

/-- `Sound` is preserved by a termination attempt. -/
theorem close (sound : o.Sound) (origin : Reporter) : (o.close faults origin).2.1.Sound where
  room := by simpa using sound.room
  shut := by simpa using sound.shut
  stopped closed := by simpa using (sound.stopped (by simpa using closed)).2
  ended _ := terminated_close

theorem stop (sound : o.Sound) (ended : o.terminated = true) : o.stop.Sound where
  room := sound.room
  shut := by simp [Outflow.stop, Channel.shut]
  stopped _ := ⟨ended, rfl⟩
  ended _ := ended

/-- `Sound` is preserved by the updates of the outbound half that fit it. -/
theorem touch (sound : o.Sound) {t : Touch} (fits : t.Fits o) : (o.touch faults t).Sound := by
  have puts : t.put? ≠ [] → o.writer ≠ .closed := fun puts => sound.goes (fits.receiving puts)
  cases t with
  | close origin => exact sound.close origin
  | put stanza | redeem ticket stanza =>
    have goes := puts (List.cons_ne_nil _ _)
    exact ⟨sound.room, sound.shut, fun closed => absurd closed goes, sound.ended⟩
  | nothing | await | withdraw | observe | abandon | stall =>
    exact ⟨sound.room, sound.shut, sound.stopped, sound.ended⟩

/-- `Sound` is preserved by the sender task. -/
theorem advance (sound : o.Sound) (step : Advance faults producing o events after) :
    after.Sound := by
  cases step with
  | waits => exact sound
  | takes idle goes first =>
    have reads := sound.receiving (by simp [idle])
    exact ⟨sound.room, by simp [reads], (nomatch ·), sound.ended⟩
  | writes busy | loses busy =>
    have reads := sound.receiving (by simp [busy])
    exact ⟨sound.room, by simp [reads], (nomatch ·), sound.ended⟩
  | stops idle ended => exact sound.stop ended
  | ends => exact (sound.close .writer).stop terminated_close

end Sound

/-- The stream end was written exactly once if the stream is terminated, and not before. -/
structure EndsOnce (o : Outflow) : Prop where
  ended : o.wire.ended = o.terminated
  endWrites : o.wire.endWrites = if o.terminated then 1 else 0

namespace EndsOnce

/-- `EndsOnce` is preserved by a termination attempt. -/
theorem close (once : o.EndsOnce) (faultless : faults.sendEnd = false) (origin : Reporter) :
    (o.close faults origin).2.1.EndsOnce := by
  rw [close_eq]
  split
  · exact once
  next first =>
    have unwritten : o.wire.endWrites = 0 := by rw [once.endWrites, if_neg first]
    constructor <;> simp [wire_writeEnd, faultless, sendEnd_snd, unwritten]

theorem touch (once : o.EndsOnce) (faultless : faults.sendEnd = false) (t : Touch) :
    (o.touch faults t).EndsOnce := by
  cases t with
  | close origin => exact once.close faultless origin
  | _ => exact ⟨once.ended, once.endWrites⟩

theorem advance (once : o.EndsOnce) (faultless : faults.sendEnd = false)
    (step : Advance faults producing o events after) : after.EndsOnce := by
  cases step with
  | ends =>
    have closed := once.close faultless .writer
    exact ⟨closed.ended, closed.endWrites⟩
  | _ => exact ⟨once.ended, once.endWrites⟩

end EndsOnce

end Outflow

end StanzaExchange
