import StanzaExchange.Proofs.Peer
import StanzaExchange.Proofs.Rest
import StanzaExchange.Proofs.Room

/-!
The causes for which the tasks wait (section 5 of the specification). The receiver task waits for
the transport, for a slot of the channel of one accepting filter, or for a slot of the inbound
channel; the sender task for a stanza. Both are equivalences (`step?_eq_none_iff`), so a task is
ready as soon as its cause is gone.
-/
namespace StanzaExchange

/-- What the receiver task sends to the inbound channel next: an untaken stanza or the failure of
the stream. -/
def Reader.surfaces? : Reader → Option Stanza
  | .surfacing stanza => some stanza
  | .failing failure => some (.failure failure)
  | _ => none

namespace Inflow

variable {i : Inflow} {faults : Faults} {trace : Bool} {filterRoom inboundRoom : Nat}

/-- The causes for which the receiver task waits, for these capacities. -/
inductive Waits (filterRoom inboundRoom : Nat) (i : Inflow) : Prop
  /-- For the transport: the peer can still feed. -/
  | unfed (idle : i.reader = .reading) (empty : i.feed.arrivals = [])
      (feeding : i.feed.feeding = true)
  /-- For a slot of the channel of an active filter that accepts the stanza. -/
  | crowded {stanza : Stanza} {id : FilterId} {rest : List FilterId} {taken : Nat}
      (busy : i.reader = .routing stanza (id :: rest) taken) (active : id ∈ i.registry.active)
      (wanted : i.registry.accepts id stanza = true) (reads : i.registry.isReceiving id = true)
      (full : (i.registry.queueOf id).length = filterRoom)
  /-- For a slot of the inbound channel. -/
  | unread {stanza : Stanza} (busy : i.reader.surfaces? = some stanza)
      (reads : i.inbound.receiving = true) (full : i.inbound.queue.length = inboundRoom)

/-- A task that sends to the inbound channel waits exactly while there is no slot. -/
private theorem surfacing_waits {stanza : Stanza} (busy : i.reader.surfaces? = some stanza) :
    i.step? faults trace = none ↔ i.inbound.offer stanza = .full := by
  cases reader : i.reader with
  | surfacing other =>
    obtain rfl : other = stanza := by simpa [reader, Reader.surfaces?] using busy
    cases offer : i.inbound.offer other <;> simp [step?, reader, offer]
  | failing failure =>
    obtain rfl : .failure failure = stanza := by simpa [reader, Reader.surfaces?] using busy
    cases offer : i.inbound.offer (.failure failure) <;> simp [step?, reader, offer]
  | reading | routing | closing | closed => simp [reader, Reader.surfaces?] at busy

private theorem reading_waits (idle : i.reader = .reading) :
    i.step? faults trace = none ↔ i.feed.arrivals = [] ∧ i.feed.feeding = true := by
  cases arrivals : i.feed.arrivals with
  | nil => cases feeding : i.feed.feeding <;> simp [step?, idle, Feed.next?, arrivals, feeding]
  | cons arrival rest => cases arrival <;> simp [step?, idle, Feed.next?, arrivals]

/-- A task that delivers waits exactly while the next filter accepts the stanza and has no slot. -/
private theorem routing_waits {stanza : Stanza} {rest : List FilterId} {taken : Nat}
    (busy : i.reader = .routing stanza rest taken) :
    i.step? faults trace = none ↔ ∃ id others, rest = id :: others ∧
      i.registry.accepts id stanza = true ∧ i.registry.offer id stanza = .full := by
  cases rest with
  | nil => simp [step?, busy]
  | cons id others =>
    cases wanted : i.registry.accepts id stanza with
    | false => simp [step?, busy, wanted]
    | true => cases offer : i.registry.offer id stanza <;> simp [step?, busy, wanted, offer]

/-- The receiver task is not ready exactly if it has ended, closes, or waits for one of the causes.
-/
theorem step?_eq_none_iff (bounded : i.Bounded filterRoom inboundRoom)
    (sound : i.registry.WellFormed) : i.step? faults trace = none ↔
      i.reader = .closing ∨ i.reader = .closed ∨ i.Waits filterRoom inboundRoom := by
  constructor
  · intro waits
    cases reader : i.reader with
    | closing => exact .inl rfl
    | closed => exact .inr (.inl rfl)
    | reading =>
      obtain ⟨empty, feeding⟩ := (reading_waits reader).mp waits
      exact .inr (.inr (.unfed reader empty feeding))
    | routing stanza rest taken =>
      obtain ⟨id, others, rfl, wanted, full⟩ := (routing_waits reader).mp waits
      obtain ⟨kept, reads, full⟩ := bounded.filters.full_iff.mp full
      exact .inr (.inr (.crowded reader ((sound.active_iff id).mpr kept) wanted reads full))
    | surfacing | failing =>
      have busy := congrArg Reader.surfaces? reader
      obtain ⟨reads, full⟩ := bounded.inbound.full_iff.mp ((surfacing_waits busy).mp waits)
      exact .inr (.inr (.unread busy reads full))
  · rintro (closing | closed | waits)
    · simp [step?, closing]
    · simp [step?, closed]
    · cases waits with
      | unfed idle empty feeding => exact (reading_waits idle).mpr ⟨empty, feeding⟩
      | @crowded stanza id rest taken busy active wanted reads full =>
        have kept := (sound.active_iff id).mp active
        have crowded : i.registry.offer id stanza = .full :=
          bounded.filters.full_iff.mpr ⟨kept, reads, full⟩
        exact (routing_waits busy).mpr ⟨id, rest, rfl, wanted, crowded⟩
      | unread busy reads full =>
        exact (surfacing_waits busy).mpr (bounded.inbound.full_iff.mpr ⟨reads, full⟩)

end Inflow

/-- The sender task is not ready exactly for the reasons listed in `Idle`. -/
theorem Outflow.step?_eq_none_iff {o : Outflow} {faults : Faults} {trace producing : Bool} :
    o.step? faults trace producing = none ↔ o.Idle producing := by
  refine ⟨step?_eq_none, fun idle => ?_⟩
  cases idle with
  | finished closed => simp [step?, closed]
  | unasked idle goes empty more => simp [step?, idle, goes, Channel.take?, empty, more]
  | held busy stalls => simp [step?, busy, stalls]

namespace Course

/-- The receiver task of an execution waits exactly for one of the causes. -/
theorem reader_waits_iff (k : Course) : k.now.step? .reader = none ↔
    k.now.inflow.reader = .closed ∨ k.now.inflow.Waits (max 1 k.settings.filterCapacity)
      (max 1 k.settings.inboundCapacity) := by
  rw [Conversation.step?, Conversation.readerStep?]
  split
  next closing =>
    refine iff_of_false (by simp) ?_
    rintro (closed | waits)
    · cases closing.symm.trans closed
    · cases waits with
      | unfed busy | crowded busy => cases closing.symm.trans busy
      | unread busy => simp [closing, Reader.surfaces?] at busy
  next goesOn =>
    rw [Option.map_eq_none_iff, Inflow.step?_eq_none_iff k.bounded k.wellFormed]
    exact or_iff_right goesOn

/-- The sender task of an execution waits exactly for a stanza, while a sender exists and no end was
requested. -/
theorem writer_waits_iff (k : Course) (flowing : k.now.outflow.stalled = false) :
    k.now.step? .writer = none ↔ k.now.outflow.writer = .closed ∨
      k.now.outflow.writer = .taking ∧ k.now.outflow.outbound.queue = [] ∧
        k.now.producing = true ∧ k.now.outflow.terminated = false := by
  rw [Conversation.step?, Conversation.writerStep?, Option.map_eq_none_iff,
    Outflow.step?_eq_none_iff]
  constructor
  · intro idle
    cases idle with
    | finished closed => exact .inl closed
    | unasked idle goes empty more => exact .inr ⟨idle, empty, more, goes⟩
    | held busy stalls => cases flowing.symm.trans stalls
  · rintro (closed | ⟨idle, empty, more, goes⟩)
    · exact .finished closed
    · exact .unasked idle goes empty more

/-- The tasks wait for nothing but the documented causes. At rest a receiver task that goes on waits
for the transport of a peer that can still feed, for a slot of the full channel of one accepting
filter whose receiver is held, or for a slot of the full inbound channel; a sender task that goes on
waits for a stanza while some sender exists and no end was requested. A task that waits is ready as
soon as the cause is gone. -/
theorem stalls_for_cause (k : Course) (flowing : k.now.outflow.stalled = false) :
    (k.now.AtRest →
      (k.now.inflow.reader ≠ .closed → k.now.inflow.Waits (max 1 k.settings.filterCapacity)
        (max 1 k.settings.inboundCapacity)) ∧
      (k.now.outflow.writer ≠ .closed → k.now.outflow.outbound.queue = [] ∧
        k.now.producing = true ∧ k.now.outflow.terminated = false)) ∧
    (k.now.inflow.reader ≠ .closed → k.now.inflow.feed.feeding = true →
      ∀ arrival, (k.now.act (.push arrival)).1 = .flag true) ∧
    (k.now.step? .reader = none ↔ k.now.inflow.reader = .closed ∨
      k.now.inflow.Waits (max 1 k.settings.filterCapacity) (max 1 k.settings.inboundCapacity)) ∧
    (k.now.step? .writer = none ↔ k.now.outflow.writer = .closed ∨
      k.now.outflow.writer = .taking ∧ k.now.outflow.outbound.queue = [] ∧
        k.now.producing = true ∧ k.now.outflow.terminated = false) := by
  refine ⟨fun rest => ⟨fun goesOn => ?_, fun goesOn => ?_⟩,
    fun goesOn feeding arrival => answer_push goesOn feeding arrival, k.reader_waits_iff,
    k.writer_waits_iff flowing⟩
  · exact (k.reader_waits_iff.mp (rest .reader)).resolve_left goesOn
  · exact (((k.writer_waits_iff flowing).mp (rest .writer)).resolve_left goesOn).2

/-- A filter that is never read has taken one stanza and accepts the next. -/
def heldUp : Course where
  jid := ⟨none, "example", none⟩
  settings := { filterCapacity := 0 }
  moves :=
    [.outside (.addFilter .own .anything), .outside (.push (.element (.named "message"))),
      .outside (.push (.element (.named "presence")))] ++ List.replicate 4 (.step .reader)

/-- Then its receiver is dropped, and the transport fails. -/
def letGo : Course := heldUp.andThen
  ([.outside (.dropReceiver 0), .outside (.push (.failure .closed))] ++
    List.replicate 4 (.step .reader))

theorem stalls_for_cause_heldUp :
    heldUp.now.AtRest ∧ heldUp.now.inflow.Waits 1 1 ∧
      heldUp.now.inflow.reader = .routing (.presence {}) [0] 0 ∧
      letGo.now.AtRest ∧ letGo.now.inflow.Waits 1 1 ∧
      letGo.now.inflow.reader = .failing .closed ∧
      (heldUp.now.move (.outside (.dropReceiver 0))).step? .reader ≠ none ∧
      letGo.now.outflow.outbound.queue = [] ∧ letGo.now.producing = true := by
  have rests : heldUp.now.AtRest := by decide +kernel
  have restsLater : letGo.now.AtRest := by decide +kernel
  obtain ⟨held, -⟩ := heldUp.stalls_for_cause (by decide +kernel)
  obtain ⟨gone, -⟩ := letGo.stalls_for_cause (by decide +kernel)
  obtain ⟨empty, sends, -⟩ := (gone restsLater).2 (by decide +kernel)
  exact ⟨rests, (held rests).1 (by decide +kernel), by decide +kernel, restsLater,
    (gone restsLater).1 (by decide +kernel), by decide +kernel, by decide +kernel, empty, sends⟩

end Course

end StanzaExchange
