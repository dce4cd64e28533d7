import StanzaExchange.Proofs.Moves

/-!
Capacities of the inbound channels (section 10.3 of the specification): every filter channel and the
inbound channel have the configured capacity, at least one, and never hold more. The receiver task
is their only sender, so they have no waiters; a channel is full exactly if it holds its capacity.
-/
namespace StanzaExchange

open Inflow (Flow Touch Advance)

/-- A channel with this capacity that does not exceed it and has no waiters. -/
structure Channel.Bounded {α : Type} (c : Channel α) (room : Nat) : Prop where
  capacity : c.capacity = room
  row : c.waiting = []
  within : c.queue.length ≤ room

namespace Channel.Bounded

variable {α : Type} {c after : Channel α} {room : Nat} {value : α}

theorem ofCapacity (capacity : Nat) :
    (Channel.ofCapacity capacity : Channel α).Bounded (max 1 capacity) :=
  ⟨rfl, rfl, Nat.zero_le _⟩

theorem tail (bounded : c.Bounded room) : Bounded { c with queue := c.queue.tail } room where
  capacity := bounded.capacity
  row := bounded.row
  within := by
    have shorter : c.queue.tail.length ≤ c.queue.length := by simp
    exact Nat.le_trans shorter bounded.within

theorem shut (bounded : c.Bounded room) : c.shut.Bounded room :=
  ⟨bounded.capacity, bounded.row, Nat.zero_le _⟩

theorem accepted (bounded : c.Bounded room) (put : c.offer value = .accepted after) :
    after.Bounded room := by
  obtain ⟨-, free, rfl⟩ := offerBehind_accepted put
  refine ⟨bounded.capacity, bounded.row, ?_⟩
  rw [bounded.capacity] at free
  simp only [List.length_append, List.length_singleton]
  omega

/-- A bounded channel is full exactly if it has a receiver and holds its capacity. -/
theorem full_iff (bounded : c.Bounded room) :
    c.offer value = .full ↔ c.receiving = true ∧ c.queue.length = room := by
  constructor
  · intro full
    obtain ⟨reads, crowded⟩ := offerBehind_full full
    have within := bounded.within
    rw [bounded.capacity, bounded.row, List.length_nil] at crowded
    exact ⟨reads, by omega⟩
  · rintro ⟨reads, whole⟩
    simp [offer, offerBehind, reads, whole, bounded.capacity, bounded.row]

end Channel.Bounded

/-- All filter channels are bounded, and the capacity for new ones is the same. -/
structure Registry.Bounded (r : Registry) (room : Nat) : Prop where
  next : max 1 r.capacity = room
  channels : ∀ id f, r.filter? id = some f → f.channel.Bounded room

namespace Registry.Bounded

variable {r after : Registry} {room : Nat} {id other : FilterId} {stanza : Stanza}

theorem ofCapacity (capacity : Nat) : (Registry.ofCapacity capacity).Bounded (max 1 capacity) where
  next := by
    change max 1 (max 1 capacity) = max 1 capacity
    omega
  channels _ _ found := nomatch found

theorem iff_every : r.Bounded room ↔ r.Every (·.Bounded room) := by
  constructor
  · exact fun bounded => ⟨bounded.next ▸ .ofCapacity r.capacity, bounded.channels⟩
  · exact fun every => ⟨every.next.capacity, every.channels⟩

theorem add (bounded : r.Bounded room) (matcher : Matcher) : (r.add matcher).Bounded room :=
  iff_every.mpr ((iff_every.mp bounded).add matcher)

theorem modifyChannel (bounded : r.Bounded room) {change : Channel Stanza → Channel Stanza}
    (changed : ∀ f, r.filter? other = some f → (change f.channel).Bounded room) :
    (r.modifyChannel other change).Bounded room :=
  iff_every.mpr ((iff_every.mp bounded).modifyChannel changed)

theorem tail (bounded : r.Bounded room) (other : FilterId) :
    (r.modifyChannel other fun c => { c with queue := c.queue.tail }).Bounded room :=
  bounded.modifyChannel fun f found => (bounded.channels other f found).tail

theorem shut (bounded : r.Bounded room) (other : FilterId) :
    (r.modifyChannel other .shut).Bounded room :=
  bounded.modifyChannel fun f found => (bounded.channels other f found).shut

theorem remove (bounded : r.Bounded room) (removed : r.remove? other = some after) :
    after.Bounded room :=
  iff_every.mpr ((iff_every.mp bounded).remove removed)

theorem close (bounded : r.Bounded room) : r.close.Bounded room :=
  iff_every.mpr (iff_every.mp bounded).close

theorem getD_remove (bounded : r.Bounded room) (other : FilterId) :
    ((r.remove? other).getD r).Bounded room := by
  cases removed : r.remove? other with
  | none => exact bounded
  | some after => exact bounded.remove removed

theorem leave (bounded : r.Bounded room) (other : FilterId) : (r.leave other).Bounded room :=
  (bounded.getD_remove other).shut other

/-- An accepted delivery keeps all channels bounded. -/
theorem accepted (bounded : r.Bounded room) (taken : r.offer other stanza = .accepted after) :
    after.Bounded room := by
  obtain ⟨f, found, -, reads, free, rfl⟩ := offer_accepted taken
  refine bounded.modifyChannel fun g foundAlso => ?_
  obtain rfl := Option.some.inj (found.symm.trans foundAlso)
  have put : f.channel.offer stanza =
      .accepted { f.channel with queue := f.channel.queue ++ [stanza] } := by
    simp [Channel.offer, Channel.offerBehind, reads, free]
  exact (bounded.channels other f found).accepted put

/-- A delivery finds no slot exactly if the filter is active, its receiver held, and its channel
full. -/
theorem full_iff (bounded : r.Bounded room) : r.offer id stanza = .full ↔
    r.isRemoved id = false ∧ r.isReceiving id = true ∧ (r.queueOf id).length = room := by
  unfold offer offerWith
  cases found : r.filter? id with
  | none => simp [isRemoved, found]
  | some f =>
    rw [isRemoved_eq found, isReceiving_eq found, queueOf_eq found]
    have channel : f.channel.offer stanza = .full ↔ _ := (bounded.channels id f found).full_iff
    cases removed : f.removed with
    | true => simp [removed]
    | false =>
      rw [← channel]
      cases put : f.channel.offer stanza <;> simp [removed, put, Offer.map]

end Registry.Bounded

/-- The inbound channels are bounded. -/
structure Inflow.Bounded (i : Inflow) (filterRoom inboundRoom : Nat) : Prop where
  filters : i.registry.Bounded filterRoom
  inbound : i.inbound.Bounded inboundRoom

namespace Inflow.Bounded

variable {i after : Inflow} {filterRoom inboundRoom : Nat} {faults : Faults} {flow : Flow}

/-- All updates keep the inbound channels bounded. -/
theorem touch (bounded : i.Bounded filterRoom inboundRoom) (t : Touch) :
    (i.touch t).Bounded filterRoom inboundRoom := by
  cases t with
  | nothing | push | hangUp => exact ⟨bounded.filters, bounded.inbound⟩
  | take => exact ⟨bounded.filters, bounded.inbound.tail⟩
  | shut => exact ⟨bounded.filters, bounded.inbound.shut⟩
  | add matcher => exact ⟨bounded.filters.add matcher, bounded.inbound⟩
  | remove id => exact ⟨bounded.filters.getD_remove id, bounded.inbound⟩
  | takeFrom id => exact ⟨bounded.filters.tail id, bounded.inbound⟩
  | drop id => exact ⟨bounded.filters.shut id, bounded.inbound⟩
  | leave id reads => exact ⟨bounded.filters.leave id, bounded.inbound⟩

theorem advance (bounded : i.Bounded filterRoom inboundRoom) (step : Advance faults i flow after) :
    after.Bounded filterRoom inboundRoom := by
  cases step with
  | hands busy wanted put => exact ⟨bounded.filters.accepted put, bounded.inbound⟩
  | puts busy put | reports busy put => exact ⟨bounded.filters, bounded.inbound.accepted put⟩
  | closes busy => exact ⟨bounded.filters.close, bounded.inbound⟩
  | waits | reads | fails | hangsUp | passes | surfaces | ends | loses | conceals =>
    exact ⟨bounded.filters, bounded.inbound⟩

end Inflow.Bounded

/-- The inbound channels have the configured capacities in every reachable state. -/
theorem Course.bounded (k : Course) :
    k.now.inflow.Bounded (max 1 k.settings.filterCapacity) (max 1 k.settings.inboundCapacity) := by
  refine k.induction (P := fun _ now => now.inflow.Bounded (max 1 k.settings.filterCapacity)
    (max 1 k.settings.inboundCapacity)) ⟨.ofCapacity _, .ofCapacity _⟩ ?_
  intro moves move j bounded
  exact Moment.inflow_of_after (P := fun after => after.Bounded (max 1 k.settings.filterCapacity)
    (max 1 k.settings.inboundCapacity)) ⟨j.now, move⟩ bounded.touch bounded.advance

end StanzaExchange
