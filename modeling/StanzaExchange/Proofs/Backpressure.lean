import Mathlib.Data.List.Basic
import StanzaExchange.Proofs.Classification
import StanzaExchange.Proofs.ReadingEnd
import StanzaExchange.Proofs.Stalls

/-!
Backpressure (section 5 of the specification). The receiver task reads the next element only when
the previous stanza is routed, and sending to a full channel suspends. So at most as many elements
are read as were received or taken, fit into the inbound channel, and one in hand; without active
filters this bound is attained at rest.
-/
namespace StanzaExchange

open Inflow (Flow Touch Advance)

namespace Outflow

variable {o after : Outflow} {faults : Faults} {producing : Bool} {events : List Event} {room : Nat}

/-- No update of the outbound half exceeds the capacity. -/
theorem within_touch (within : o.outbound.Within room) {t : Touch} (fits : t.Fits o) :
    (o.touch faults t).outbound.Within room := by
  cases t with
  | put stanza =>
    obtain ⟨-, free⟩ := fits
    exact within.put (by omega)
  | redeem ticket stanza =>
    obtain ⟨-, free⟩ := fits
    have put : Channel.Within { o.outbound with queue := o.outbound.queue ++ [stanza] } room :=
      within.put (by omega)
    exact put.of_le rfl (Nat.le_refl _)
  | await ticket | withdraw ticket => exact within.of_le rfl (Nat.le_refl _)
  | close origin =>
    rw [touch, outbound_close]
    exact within
  | nothing | observe | abandon | stall => exact within

theorem Advance.capacity (step : Outflow.Advance faults producing o events after) :
    after.outbound.capacity = o.outbound.capacity := by
  cases step <;> simp [stop, Channel.shut]

end Outflow

/-- The outbound channel has the configured capacity and does not exceed it. -/
theorem Course.outbound_within (k : Course) :
    k.now.outflow.outbound.Within (max 1 k.settings.outboundCapacity) := by
  refine k.induction (P := fun _ now =>
    now.outflow.outbound.Within (max 1 k.settings.outboundCapacity)) (.ofCapacity _) ?_
  intro moves move j within
  rcases Moment.stirs_or_writes ⟨j.now, move⟩ with ⟨touch, stirs⟩ | ⟨events, writes⟩
  · have outflow : (j.now.move move).outflow = j.now.outflow.touch j.now.faults touch :=
      stirs.stirred.outflow
    rw [outflow]
    exact Outflow.within_touch within stirs.stirred.fits
  · exact within.of_le writes.advance.capacity writes.advance.queue_le

/-- The stanza whose routing is complete in this step. -/
def Moment.dismissed (m : Moment) : Option Stanza :=
  if m.after.inflow.reader.inHand = none then m.before.inflow.reader.inHand else none

namespace History

/-- All stanzas whose routing is complete, in order. -/
def dismissed (h : History) : List Stanza := h.filterMap Moment.dismissed

/-- The elements that were read. -/
def elements (h : History) : List Element := h.read.filterMap Arrival.element?

/-- What the peer has fed before any failure. -/
def offered (h : History) : List Arrival := h.fed.takeWhile (·.element?.isSome)

/-- The passages of elements that filters took. -/
def claimed (h : History) : List Passage := h.passages.filter (!·.takers.isEmpty)

theorem dismissed_concat {past : History} {m : Moment} :
    dismissed (past ++ [m]) = past.dismissed ++ m.dismissed.toList :=
  filterMap_concat

end History

/-- A stanza whose routing starts is in hand until its routing is complete. -/
theorem Moment.inHand_balance (m : Moment) :
    m.before.inflow.reader.inHand.toList ++ m.opened.toList =
      m.dismissed.toList ++ m.after.inflow.reader.inHand.toList := by
  unfold opened dismissed
  rcases m.told_or_advances with ⟨touch, told⟩ | ⟨flow, advances⟩
  · rw [told.inflow, Inflow.reader_touch]
    cases m.before.inflow.reader <;> simp [Reader.inHand]
  · have step : Advance m.before.faults m.before.inflow flow m.after.inflow := advances.step
    generalize m.after.inflow = after at step
    cases step with
    | waits => cases m.before.inflow.reader <;> simp [Reader.inHand]
    | closes busy => simp [busy, Reader.inHand, Inflow.tearDown]
    | reads busy | fails busy | hangsUp busy | hands busy | passes busy | surfaces busy | ends busy
    | puts busy | loses busy | reports busy | conceals busy => simp [busy, Reader.inHand]

namespace Course

variable {k : Course}

/-- The elements read are those routed completely, and the one in hand. -/
theorem elements_eq_dismissed (k : Course) : k.past.elements.map (Element.readAs k.faults) =
    k.past.dismissed ++ k.now.inflow.reader.inHand.toList := by
  have opened : k.past.opened = k.past.dismissed ++ k.now.inflow.reader.inHand.toList := by
    refine k.induction (P := fun past now =>
      past.opened = past.dismissed ++ now.inflow.reader.inHand.toList) rfl ?_
    intro moves move j before
    have balance := Moment.inHand_balance ⟨j.now, move⟩
    rw [History.opened_concat, History.dismissed_concat, before, List.append_assoc,
      List.append_assoc]
    exact congrArg (j.past.dismissed ++ ·) balance
  rw [← opened, k.opened_eq, History.elements]

/-- Every element read has a passage. -/
theorem length_elements (k : Course) : k.past.elements.length = k.past.passages.length := by
  have arrived : k.past.arrived.filterMap Arrival.element? =
      k.past.passages.map Passage.element := by
    simp [History.arrived, List.filterMap_map, Function.comp_def, Arrival.element?]
  have elements : k.past.elements = k.past.passages.map Passage.element := by
    rw [History.elements, ← arrived]
    rcases k.read_eq with read | read <;> simp [read, Arrival.element?]
  rw [elements, List.length_map]

end Course

/-- A passage ends at a filter or at the inbound channel. -/
theorem Passage.length_eq (faults : Faults) (passages : List Passage) :
    passages.length =
      (untaken faults passages).length + (passages.filter (!·.takers.isEmpty)).length := by
  rw [untaken, List.length_map]
  exact List.length_eq_length_filter_add _

namespace Course

variable {k : Course}

/-- With nothing in hand every element read was received, is queued inbound, or was taken by a
filter. -/
theorem elements_of_idle (alive : k.now.inflow.inbound.receiving = true)
    (idle : k.now.inflow.reader.inHand = none) :
    k.past.elements.length ≤
      k.past.received.length + k.now.inflow.inbound.queue.length + k.past.claimed.length := by
  have whole := congrArg List.length (k.received_append_queue alive)
  have ends := Passage.length_eq k.faults k.past.passages
  rw [History.routed, idle] at whole
  simp only [Option.isSome_none, Bool.false_eq_true, if_false, List.length_append] at whole
  rw [k.length_elements, History.claimed]
  omega

/-- A stanza in hand counts one more. -/
theorem elements_of_inHand (alive : k.now.inflow.inbound.receiving = true) {stanza : Stanza}
    (inHand : k.now.inflow.reader.inHand = some stanza) :
    k.past.elements.length ≤ k.past.received.length + k.now.inflow.inbound.queue.length +
        k.past.claimed.length + 1 ∧
      (k.now.inflow.reader = .surfacing stanza →
        k.past.elements.length = k.past.received.length + k.now.inflow.inbound.queue.length +
          k.past.claimed.length + 1) := by
  have whole := congrArg List.length (k.received_append_queue alive)
  rw [History.routed, inHand, History.reported] at whole
  cases k.account.stage with
  | @busy earlier last snapshot passages held offered sorted read surfaced =>
    have goesOn : ¬(k.now.inflow.reader = .closing ∨ k.now.inflow.reader = .closed) := by
      rintro (ending | ending) <;> simp [ending, Reader.inHand] at inHand
    have ends := Passage.length_eq k.faults earlier
    have claimed : k.past.claimed = earlier.filter (!·.takers.isEmpty) ++
        if last.takers = [] then [] else [last] := by
      by_cases none : last.takers = [] <;> simp [History.claimed, passages, none]
    rw [if_neg goesOn, passages] at whole
    simp only [Option.isSome_some, if_true, List.dropLast_concat, List.append_nil,
      List.length_append] at whole
    rw [k.length_elements, claimed, passages]
    simp only [List.length_append, List.length_singleton]
    refine ⟨by omega, fun surfaces => ?_⟩
    rw [surfaces] at held
    rw [if_pos held.2, List.length_nil]
    omega
  | idle idle => simp [idle, Reader.inHand] at inHand
  | failing ending => simp [ending, Reader.inHand] at inHand
  | ended ended => rcases ended with ended | ended <;> simp [ended, Reader.inHand] at inHand

/-- If reading has ended without a failure, the peer is gone and nothing is left. -/
theorem unread_of_ending (k : Course) (ending : k.now.inflow.reader.isEnding = true) :
    (∃ failure, .failure failure ∈ k.past.read) ∨
      (k.now.inflow.feed.arrivals = [] ∧ k.now.inflow.feed.feeding = false) := by
  refine k.induction (P := fun past now => now.inflow.reader.isEnding = true →
    (∃ failure, .failure failure ∈ past.read) ∨
      (now.inflow.feed.arrivals = [] ∧ now.inflow.feed.feeding = false)) (nomatch ·) ?_ ending
  intro moves move j before ending
  rw [History.read_concat]
  rcases Moment.told_or_advances ⟨j.now, move⟩ with ⟨touch, told⟩ | ⟨flow, advances⟩
  · have inflow : (j.now.move move).inflow = j.now.inflow.touch touch := told.inflow
    rw [inflow] at ending ⊢
    rw [Inflow.reader_touch] at ending
    rcases before ending with ⟨failure, read⟩ | ⟨empty, silent⟩
    · exact .inl ⟨failure, List.mem_append_left _ read⟩
    · have unfed : touch.fed = [] := Classical.byContradiction fun feeds =>
        Bool.false_ne_true (silent.symm.trans (told.feeding feeds))
      exact .inr ⟨by simp [empty, unfed], by simp [Inflow.feeding_touch, silent]⟩
  · have step : Advance j.now.faults j.now.inflow flow (j.now.move move).inflow := advances.step
    have kept : j.now.inflow.reader.isEnding = true →
        (∃ failure, .failure failure ∈ j.past.read ++ Moment.read ⟨j.now, move⟩) ∨
          (j.now.inflow.feed.arrivals = [] ∧ j.now.inflow.feed.feeding = false) := fun ending =>
      (before ending).imp_left fun ⟨failure, read⟩ => ⟨failure, List.mem_append_left _ read⟩
    rw [advances.read] at kept ⊢
    generalize (j.now.move move).inflow = after at step ending
    cases step with
    | @fails failure => exact .inl ⟨failure, by simp⟩
    | hangsUp idle empty silent => exact .inr ⟨empty, silent⟩
    | waits => exact kept ending
    | reports busy | conceals busy | closes busy => exact kept (by rw [busy]; rfl)
    | reads | hands | passes | surfaces | ends | puts | loses => cases ending

/-- A receiver task that waits with nothing in hand has read all that was fed. -/
theorem offered_le (waits : k.now.step? .reader = none)
    (idle : k.now.inflow.reader.inHand = none) :
    k.past.offered.length ≤ k.past.elements.length := by
  have arrived : k.past.elements.length = k.past.arrived.length := by
    rw [k.length_elements, History.arrived, List.length_map]
  -- behind the elements read stands a failure, or nothing
  have fed : k.past.fed = k.past.arrived ∨
      ∃ failure later, k.past.fed = k.past.arrived ++ .failure failure :: later := by
    have unread : (∃ failure, .failure failure ∈ k.past.read) ∨
        k.now.inflow.feed.arrivals = [] := by
      rcases k.reader_waits_iff.mp waits with closed | waits
      · exact (k.unread_of_ending (by rw [closed]; rfl)).imp_right (·.1)
      · cases waits with
        | unfed reading empty feeding => exact .inr empty
        | crowded busy => simp [busy, Reader.inHand] at idle
        | unread busy =>
          refine (k.unread_of_ending ?_).imp_right (·.1)
          cases reader : k.now.inflow.reader with
          | failing failure => rfl
          | surfacing other => simp [reader, Reader.inHand] at idle
          | reading | routing | closing | closed => simp [reader, Reader.surfaces?] at busy
    rw [k.conserved.feed]
    rcases k.read_eq with read | read
    · rcases unread with ⟨failure, member⟩ | empty
      · simp [read, History.arrived] at member
      · exact .inl (by rw [read, empty, List.append_nil])
    · exact .inr ⟨_, k.now.inflow.feed.arrivals, by rw [read, List.append_assoc]; rfl⟩
  rw [arrived, History.offered]
  rcases fed with all | ⟨failure, later, all⟩
  · rw [all]
    exact (List.takeWhile_sublist _).length_le
  · have elements : ∀ arrival ∈ k.past.arrived, arrival.element?.isSome = true := by
      simp [History.arrived, Arrival.element?]
    rw [all, List.takeWhile_append_of_pos elements]
    simp [Arrival.element?]

/-- The bound on the elements read. -/
theorem elements_le (k : Course) (alive : k.now.inflow.inbound.receiving = true) :
    k.past.elements.length ≤
      k.past.received.length + k.past.claimed.length + (max 1 k.settings.inboundCapacity + 1) := by
  have room := k.bounded.inbound.within
  cases inHand : k.now.inflow.reader.inHand with
  | none =>
    have idle := elements_of_idle alive inHand
    omega
  | some stanza =>
    have busy := (elements_of_inHand alive inHand).1
    omega

/-- Without active filters a waiting receiver task attains the bound, if enough was fed. -/
theorem elements_eq (alive : k.now.inflow.inbound.receiving = true)
    (waits : k.now.step? .reader = none) (unfiltered : k.now.inflow.registry.active = [])
    (enough : k.past.received.length + k.past.claimed.length +
      (max 1 k.settings.inboundCapacity + 1) ≤ k.past.offered.length) :
    k.past.elements.length =
      k.past.received.length + k.past.claimed.length + (max 1 k.settings.inboundCapacity + 1) := by
  have room := k.bounded.inbound.within
  cases inHand : k.now.inflow.reader.inHand with
  | none =>
    have idle := elements_of_idle alive inHand
    have all := offered_le waits inHand
    omega
  | some stanza =>
    obtain ⟨-, surfacing⟩ := elements_of_inHand alive inHand
    rcases k.reader_waits_iff.mp waits with closed | waits
    · simp [closed, Reader.inHand] at inHand
    · cases waits with
      | unfed idle => simp [idle, Reader.inHand] at inHand
      | crowded busy active => simp [unfiltered] at active
      | unread busy reads full =>
        cases reader : k.now.inflow.reader with
        | surfacing held =>
          obtain rfl : held = stanza := by simpa [reader, Reader.inHand] using inHand
          have whole := surfacing reader
          omega
        | failing failure => simp [reader, Reader.inHand] at inHand
        | reading | routing | closing | closed => simp [reader, Reader.surfaces?] at busy

/-- No channel exceeds its capacity, and at most one element read is not fully routed. While the
inbound channel is held, the elements read are at most those received or taken, the inbound
capacity, and one; without active filters this is attained at rest if the peer has fed as many
before any failure. Without any filter none is taken. -/
theorem backpressure_bound (k : Course) :
    (k.now.inflow.inbound.queue.length ≤ max 1 k.settings.inboundCapacity ∧
      k.now.outflow.outbound.queue.length ≤ max 1 k.settings.outboundCapacity ∧
      ∀ id, (k.now.inflow.registry.queueOf id).length ≤ max 1 k.settings.filterCapacity) ∧
    (k.past.elements.map (Element.readAs k.faults) =
        k.past.dismissed ++ k.now.inflow.reader.inHand.toList ∧
      k.past.elements.length ≤ k.past.dismissed.length + 1) ∧
    (k.now.inflow.inbound.receiving = true → k.now.inflow.registry.nextId = 0 →
      k.past.elements.length ≤ k.past.received.length + (max 1 k.settings.inboundCapacity + 1) ∧
      (k.now.AtRest → k.past.received.length + (max 1 k.settings.inboundCapacity + 1) ≤
          k.past.offered.length →
        k.past.elements.length =
          k.past.received.length + (max 1 k.settings.inboundCapacity + 1))) ∧
    (k.now.inflow.inbound.receiving = true →
      k.past.elements.length ≤ k.past.received.length + k.past.claimed.length +
        (max 1 k.settings.inboundCapacity + 1) ∧
      (k.now.AtRest → k.now.inflow.registry.active = [] →
        k.past.received.length + k.past.claimed.length +
          (max 1 k.settings.inboundCapacity + 1) ≤ k.past.offered.length →
        k.past.elements.length = k.past.received.length + k.past.claimed.length +
          (max 1 k.settings.inboundCapacity + 1))) := by
  have routed := k.elements_eq_dismissed
  refine ⟨⟨k.bounded.inbound.within, k.outbound_within.length_le, fun id => ?_⟩, ⟨routed, ?_⟩,
    fun alive unfiltered => ?_, fun alive => ⟨k.elements_le alive, fun rest unfiltered enough =>
      elements_eq alive (rest .reader) unfiltered enough⟩⟩
  · exact Registry.length_queueOf_le fun f found => (k.bounded.filters.channels id f found).within
  · have lengths := congrArg List.length routed
    have one : k.now.inflow.reader.inHand.toList.length ≤ 1 := by
      cases k.now.inflow.reader.inHand <;> simp
    rw [List.length_map, List.length_append] at lengths
    omega
  · have unclaimed : k.past.claimed = [] := by
      refine List.filter_eq_nil_iff.mpr fun p member => ?_
      simp [k.takers_eq_nil unfiltered p member]
    have inactive : k.now.inflow.registry.active = [] := by
      refine List.eq_nil_iff_forall_not_mem.mpr fun id active => ?_
      exact Nat.not_lt_zero id (unfiltered ▸ k.wellFormed.lt_nextId active)
    have bound := k.elements_le alive
    have reached := elements_eq (k := k) alive
    rw [unclaimed, List.length_nil, Nat.add_zero] at bound reached
    exact ⟨bound, fun rest enough => reached (rest .reader) inactive enough⟩

/-- Five elements are fed with the smallest capacity, and one is received. -/
def flooded : Course where
  jid := ⟨none, "example", none⟩
  settings := { inboundCapacity := 0 }
  moves :=
    List.replicate 5 (.outside (.push (.element (.named "message")))) ++
      List.replicate 6 (.step .reader) ++ [.outside .receive] ++ List.replicate 6 (.step .reader)

/-- The same with a filter that takes another element and is removed. -/
def sifted : Course where
  jid := ⟨none, "example", none⟩
  settings := { inboundCapacity := 0 }
  moves :=
    [.outside (.addFilter .own .anything), .outside (.push (.element (.named "presence")))] ++
      List.replicate 3 (.step .reader) ++ [.outside (.removeFilter .own 0)] ++ flooded.moves

theorem backpressure_bound_flooded_sifted :
    flooded.now.AtRest ∧ flooded.past.received.length = 1 ∧ flooded.past.elements.length = 3 ∧
      flooded.past.dismissed = [.message {}, .message {}] ∧
      sifted.now.AtRest ∧ sifted.past.received.length = 1 ∧ sifted.past.claimed.length = 1 ∧
      sifted.past.elements.length = 4 := by
  have rests : flooded.now.AtRest := by decide +kernel
  have restsAlso : sifted.now.AtRest := by decide +kernel
  have received : flooded.past.received.length = 1 := by decide +kernel
  have receivedAlso : sifted.past.received.length = 1 := by decide +kernel
  have claimed : sifted.past.claimed.length = 1 := by decide +kernel
  obtain ⟨-, -, unfiltered, -⟩ := flooded.backpressure_bound
  obtain ⟨-, reached⟩ := unfiltered (by decide +kernel) (by decide +kernel)
  obtain ⟨-, -, -, filtered⟩ := sifted.backpressure_bound
  obtain ⟨-, reachedAlso⟩ := filtered (by decide +kernel)
  refine ⟨rests, received, ?_, by decide +kernel, restsAlso, receivedAlso, claimed, ?_⟩
  · rw [reached rests (by decide +kernel), received]
    rfl
  · rw [reachedAlso restsAlso (by decide +kernel) (by decide +kernel), receivedAlso, claimed]
    rfl

end Course

end StanzaExchange
