import StanzaExchange.Proofs.Roster
import StanzaExchange.Registry.Dispatch

/-!
The registry with concurrent deliveries as a transition system (sections 4.2 and 10.2 of the
specification). Registry requests, deliveries with their polls and cancellations, and the receivers
of the filters interleave in any order. `Delivery.Turn` lists the results of one poll of a delivery;
every other move is a request, or receives from a channel, or drops its receiver.
-/
namespace StanzaExchange

def Delivery.Stage.isOver : Delivery.Stage → Bool
  | .fresh | .waiting => false
  | .done _ | .aborted => true

namespace Registry

variable {r : Registry} {id : FilterId}

/-- The registry after a poll that puts these stanzas on the channel of a filter and changes its
waiters. -/
def afterTurn (r : Registry) (id : FilterId) (put : List Stanza) (row : List Nat → List Nat) :
    Registry :=
  r.modifyChannel id fun c => { c with queue := c.queue ++ put, waiting := row c.waiting }

theorem afterTurn_nil (row : List Nat → List Nat) : r.afterTurn id [] row =
    r.modifyChannel id fun c => { c with waiting := row c.waiting } := by
  simp [afterTurn]

theorem afterTurn_same : r.afterTurn id [] (fun row => row) = r := by
  have still : (r.filters.modify id fun f => f) = r.filters := List.modify_id _ _
  simp [afterTurn, modifyChannel, still]

theorem queueOf_served (request : Request) : (r.served request).queueOf id = r.queueOf id := by
  cases request with
  | add matcher => exact queueOf_add matcher
  | remove other =>
    cases removed : r.remove? other with
    | none => simp [served, perform, removed]
    | some later => simp [served, perform, removed, queueOf_remove removed]
  | closeAll => exact queueOf_close
  | snapshot | size | isEmpty => rfl

theorem isReceiving_served (request : Request) (known : id < r.nextId) :
    (r.served request).isReceiving id = r.isReceiving id := by
  cases request with
  | add matcher => exact isReceiving_add matcher (Nat.ne_of_lt known)
  | remove other =>
    cases removed : r.remove? other with
    | none => simp [served, perform, removed]
    | some later => simp [served, perform, removed, isReceiving_remove removed]
  | closeAll => exact isReceiving_close
  | snapshot | size | isEmpty => rfl

theorem Every.served {P : Channel Stanza → Prop} (every : r.Every P) (request : Request) :
    (r.served request).Every P := by
  cases request with
  | add matcher => exact every.add matcher
  | remove other =>
    cases removed : r.remove? other with
    | none => simpa [Registry.served, perform, removed] using every
    | some later => simpa [Registry.served, perform, removed] using every.remove removed
  | closeAll => exact every.close
  | snapshot | size | isEmpty => exact every

end Registry

/-- The results of one poll of a delivery: the stanza is put on the channel of a filter that is not
removed and whose receiver is held; or the delivery fails, waits for a slot, or is cancelled. -/
inductive Delivery.Turn (r : Registry) (x : Delivery) : List Stanza → Delivery.Stage → Prop
  | puts {f : Filter} (found : r.filter? x.filter = some f) (kept : f.removed = false)
      (reads : f.channel.receiving = true)
      (room : f.channel.queue.length < f.channel.capacity) : Turn r x [x.stanza] (.done true)
  | fails : Turn r x [] (.done false)
  | waits : Turn r x [] .waiting
  | aborts : Turn r x [] .aborted

/-- A turn does not exceed the capacity. -/
theorem Delivery.Turn.within {r : Registry} {x : Delivery} {put : List Stanza}
    {stage : Delivery.Stage} {room : Nat} (turn : x.Turn r put stage)
    (every : r.Every (·.Within room)) (row : List Nat → List Nat) :
    (r.afterTurn x.filter put row).Every (·.Within room) := by
  apply every.modifyChannel
  intro f found
  have within := every.channels _ f found
  cases turn with
  | @puts g known kept reads free =>
    obtain rfl := Option.some.inj (found.symm.trans known)
    have fits : Channel.Within { f.channel with queue := f.channel.queue ++ [x.stanza] } room :=
      within.put free
    exact fits.of_le rfl (Nat.le_refl _)
  | fails | waits | aborts => exact within.of_le rfl (by simp)

namespace Dispatch

/-- The moves of the system. -/
inductive Move where
  | request (request : Registry.Request)
  /-- A delivery to a filter begins, from any snapshot. -/
  | begin (filter : FilterId) (stanza : Stanza)
  /-- A poll of a delivery. -/
  | step (n : Nat)
  /-- A delivery is marked for cancellation at its next poll. -/
  | askToAbort (n : Nat)
  | abort (n : Nat)
  /-- A poll of the receiver of a filter. -/
  | receive (filter : FilterId)
  | dropReceiver (filter : FilterId)

/-- A dropped receiver receives nothing. -/
def receive (d : Dispatch) (id : FilterId) : Dispatch :=
  if d.registry.isReceiving id then
    match d.registry.read id with
    | .taken _ registry => { d with registry }
    | .empty | .ended => d
  else d

def dropReceiver (d : Dispatch) (id : FilterId) : Dispatch :=
  if d.registry.isReceiving id then { d with registry := d.registry.modifyChannel id .shut }
  else d

/-- The transition function; a delivery that is not ready stays as it is. -/
def move (d : Dispatch) : Move → Dispatch
  | .request request => { d with registry := d.registry.served request }
  | .begin filter stanza => d.begin filter stanza
  | .step n => (d.step? n).getD d
  | .askToAbort n => d.askToAbort n
  | .abort n => d.abort n
  | .receive id => d.receive id
  | .dropReceiver id => d.dropReceiver id

def run (d : Dispatch) (moves : List Move) : Dispatch := moves.foldl move d

variable {d after : Dispatch} {n : Nat} {x : Delivery} {put : List Stanza}
  {stage : Delivery.Stage} {id : FilterId}

/-- One poll of a delivery that has not completed. -/
structure Turned (d : Dispatch) (n : Nat) (x : Delivery) (put : List Stanza)
    (stage : Delivery.Stage) (after : Dispatch) : Prop where
  here : d.deliveries[n]? = some x
  unfinished : x.stage.isOver = false
  turn : x.Turn d.registry put stage
  registry : ∃ row, after.registry = d.registry.afterTurn x.filter put row
  deliveries : after.deliveries = d.deliveries.modify n fun y => { y with stage }

/-- The first poll of a delivery is a turn. -/
private theorem turned_fresh (here : d.deliveries[n]? = some x) (fresh : x.stage = .fresh)
    (step : d.deliveryStep? n x = some after) : ∃ put stage, d.Turned n x put stage after := by
  have unfinished : x.stage.isOver = false := by rw [fresh]; rfl
  simp only [deliveryStep?, fresh] at step
  cases offer : d.registry.offer x.filter x.stanza with
  | accepted registry =>
    obtain ⟨f, found, kept, reads, room, rfl⟩ := Registry.offer_accepted offer
    simp only [offer, Option.some.injEq] at step
    subst step
    have free : f.channel.queue.length < f.channel.capacity := by omega
    exact ⟨[x.stanza], .done true, here, unfinished, .puts found kept reads free,
      ⟨fun row => row, rfl⟩, rfl⟩
  | refused =>
    simp only [offer, Option.some.injEq] at step
    subst step
    exact ⟨[], .done false, here, unfinished, .fails,
      ⟨fun row => row, Registry.afterTurn_same.symm⟩, rfl⟩
  | full =>
    simp only [offer, Option.some.injEq] at step
    subst step
    exact ⟨[], .waiting, here, unfinished, .waits,
      ⟨fun row => row ++ [n], (Registry.afterTurn_nil fun row => row ++ [n]).symm⟩, rfl⟩

/-- Every later poll of a delivery is a turn. -/
private theorem turned_waiting (here : d.deliveries[n]? = some x) (waits : x.stage = .waiting)
    (step : d.deliveryStep? n x = some after) : ∃ put stage, d.Turned n x put stage after := by
  have unfinished : x.stage.isOver = false := by rw [waits]; rfl
  simp only [deliveryStep?, waits] at step
  cases offer : d.registry.offerWith x.filter (·.offerAs n x.stanza) with
  | accepted registry =>
    obtain ⟨f, channel, found, kept, taken, rfl⟩ := Registry.offerWith_accepted offer
    obtain ⟨reads, room, rfl⟩ := Channel.offerAs_accepted taken
    simp only [offer, Option.some.injEq] at step
    subst step
    have free : f.channel.queue.length < f.channel.capacity := by omega
    refine ⟨[x.stanza], .done true, here, unfinished, .puts found kept reads free,
      ⟨fun row => row.erase n, ?_⟩, rfl⟩
    exact Registry.putChannel_eq found fun c =>
      { c with queue := c.queue ++ [x.stanza], waiting := c.waiting.erase n }
  | refused =>
    simp only [offer, Option.some.injEq] at step
    subst step
    exact ⟨[], .done false, here, unfinished, .fails,
      ⟨fun row => row.erase n, (Registry.afterTurn_nil fun row => row.erase n).symm⟩, rfl⟩
  | full => simp [offer] at step

/-- A cancelled delivery appends nothing. -/
theorem abort?_turned (here : d.deliveries[n]? = some x) (given : d.abort? n x = some after) :
    d.Turned n x [] .aborted after := by
  unfold abort? at given
  split at given
  next fresh =>
    cases given
    have unfinished : x.stage.isOver = false := by rw [fresh]; rfl
    exact ⟨here, unfinished, .aborts, ⟨fun row => row, Registry.afterTurn_same.symm⟩, rfl⟩
  next waits =>
    cases given
    have unfinished : x.stage.isOver = false := by rw [waits]; rfl
    exact ⟨here, unfinished, .aborts,
      ⟨fun row => row.erase n, (Registry.afterTurn_nil fun row => row.erase n).symm⟩, rfl⟩
  · cases given
  · cases given

/-- Every step of a delivery is a turn. -/
theorem step?_turned (step : d.step? n = some after) :
    ∃ x put stage, d.Turned n x put stage after := by
  unfold step? at step
  split at step
  · cases step
  next x here =>
    refine ⟨x, ?_⟩
    split at step
    · exact ⟨[], .aborted, abort?_turned here step⟩
    · cases stage : x.stage with
      | fresh => exact turned_fresh here stage step
      | waiting => exact turned_waiting here stage step
      | done delivered => simp [deliveryStep?, stage] at step
      | aborted => simp [deliveryStep?, stage] at step

theorem move_step (d : Dispatch) (n : Nat) :
    d.move (.step n) = d ∨ ∃ x put stage, d.Turned n x put stage (d.move (.step n)) := by
  change (d.step? n).getD d = d ∨ ∃ x put stage, d.Turned n x put stage ((d.step? n).getD d)
  cases step : d.step? n with
  | none => exact .inl rfl
  | some after => exact .inr (step?_turned step)

theorem move_abort (d : Dispatch) (n : Nat) :
    d.move (.abort n) = d ∨ ∃ x, d.Turned n x [] .aborted (d.move (.abort n)) := by
  change d.abort n = d ∨ ∃ x, d.Turned n x [] .aborted (d.abort n)
  unfold abort
  cases here : d.deliveries[n]? with
  | none => exact .inl rfl
  | some x =>
    cases given : d.abort? n x with
    | none => exact .inl (by simp [given])
    | some after =>
      refine .inr ⟨x, ?_⟩
      simpa [given] using abort?_turned here given

namespace Turned

/-- A turn appends to the channel of its own filter and leaves the other queues unchanged. -/
theorem queueOf (turned : d.Turned n x put stage after) (id : FilterId) :
    after.registry.queueOf id = d.registry.queueOf id ++ if id = x.filter then put else [] := by
  obtain ⟨row, registry⟩ := turned.registry
  rw [registry, Registry.afterTurn]
  by_cases same : id = x.filter
  · subst same
    cases found : d.registry.filter? x.filter with
    | some f =>
      rw [Registry.queueOf_modifyChannel_self found, Registry.queueOf_eq found, if_pos rfl]
    | none =>
      have nothing : put = [] := by
        cases turned.turn with
        | puts known => cases found.symm.trans known
        | fails | waits | aborts => rfl
      simp [Registry.queueOf, Registry.filter?_modifyChannel, found, nothing]
  · rw [Registry.queueOf_modifyChannel_of_ne same, if_neg same, List.append_nil]

theorem isReceiving (turned : d.Turned n x put stage after) :
    after.registry.isReceiving id = d.registry.isReceiving id := by
  obtain ⟨row, registry⟩ := turned.registry
  rw [registry]
  exact Registry.isReceiving_modifyChannel_of_same fun _ => rfl

theorem of_put (turned : d.Turned n x put stage after) (puts : put ≠ []) :
    d.registry.isReceiving x.filter = true ∧ d.registry.isRemoved x.filter = false := by
  cases turned.turn with
  | puts found kept reads room =>
    exact ⟨by rw [Registry.isReceiving_eq found, reads], by rw [Registry.isRemoved_eq found, kept]⟩
  | fails | waits | aborts => exact absurd rfl puts

theorem getElem? (turned : d.Turned n x put stage after) (m : Nat) :
    after.deliveries[m]? =
      if m = n then some { x with stage } else d.deliveries[m]? := by
  rw [turned.deliveries, List.getElem?_modify]
  by_cases same : m = n
  · subst same
    simp [turned.here]
  · simp [same, Ne.symm same]

end Turned

/-- A receiver takes the oldest stanza or finds none. -/
theorem move_receive (d : Dispatch) (id : FilterId) :
    (d.registry.isReceiving id = true ∧
      (∃ stanza registry, d.registry.read id = .taken stanza registry) ∧
      d.move (.receive id) = { d with
        registry := d.registry.modifyChannel id fun c => { c with queue := c.queue.tail } }) ∨
    ((d.registry.isReceiving id = true → d.registry.queueOf id = []) ∧
      d.move (.receive id) = d) := by
  simp only [move, receive]
  split
  next reads =>
    cases read : d.registry.read id with
    | taken stanza registry =>
      obtain ⟨-, rfl⟩ := Registry.read_taken read
      exact .inl ⟨reads, ⟨stanza, _, rfl⟩, rfl⟩
    | empty | ended => exact .inr ⟨fun _ => Registry.read_not_taken (by simp [read]), rfl⟩
  next unread => exact .inr ⟨fun reads => absurd reads unread, rfl⟩

theorem move_dropReceiver (d : Dispatch) (id : FilterId) :
    (d.registry.isReceiving id = true ∧
      d.move (.dropReceiver id) = { d with registry := d.registry.modifyChannel id .shut }) ∨
    (d.registry.isReceiving id = false ∧ d.move (.dropReceiver id) = d) := by
  simp only [move, dropReceiver]
  split
  next reads => exact .inl ⟨reads, rfl⟩
  next unread => exact .inr ⟨by simpa using unread, rfl⟩

/-- Case analysis on the effect of a move on the registry: a request, a turn of a delivery, a stanza
received, a receiver dropped. -/
theorem move_keeps {P : Registry → Prop} (holds : P d.registry)
    (served : ∀ request, P (d.registry.served request))
    (turned : ∀ (x : Delivery) put stage row, x.Turn d.registry put stage →
      P (d.registry.afterTurn x.filter put row))
    (tail : ∀ id, P (d.registry.modifyChannel id fun c => { c with queue := c.queue.tail }))
    (shut : ∀ id, P (d.registry.modifyChannel id .shut)) (move : Move) :
    P (d.move move).registry := by
  cases move with
  | request request => exact served request
  | begin | askToAbort => exact holds
  | step n =>
    rcases d.move_step n with same | ⟨x, put, stage, step⟩
    · rw [same]
      exact holds
    · obtain ⟨row, registry⟩ := step.registry
      rw [registry]
      exact turned x put stage row step.turn
  | abort n =>
    rcases d.move_abort n with same | ⟨x, step⟩
    · rw [same]
      exact holds
    · obtain ⟨row, registry⟩ := step.registry
      rw [registry]
      exact turned x [] .aborted row step.turn
  | receive id =>
    rcases d.move_receive id with ⟨-, -, taken⟩ | ⟨-, same⟩
    · rw [taken]
      exact tail id
    · rw [same]
      exact holds
  | dropReceiver id =>
    rcases d.move_dropReceiver id with ⟨-, dropped⟩ | ⟨-, same⟩
    · rw [dropped]
      exact shut id
    · rw [same]
      exact holds

theorem ages_move (move : Move) : d.registry.Ages (d.move move).registry := by
  apply move_keeps (.refl _)
  · exact fun request => Registry.ages_served request
  · exact fun x put stage row turn => Registry.ages_modifyChannel fun _ dropped => dropped
  · exact fun id => Registry.ages_modifyChannel fun _ dropped => dropped
  · exact fun id => Registry.ages_modifyChannel fun _ _ => rfl

theorem ages_run (moves : List Move) : d.registry.Ages (d.run moves).registry :=
  List.foldlRecOn (motive := fun now => d.registry.Ages now.registry) moves move (.refl _)
    fun _ ages move _ => ages.trans (ages_move move)

theorem wellFormed_move (sound : d.registry.WellFormed) (move : Move) :
    (d.move move).registry.WellFormed := by
  apply move_keeps sound
  · exact fun request => Registry.wellFormed_served sound request
  · exact fun x put stage row turn => sound.modifyChannel _
  · exact fun id => sound.modifyChannel _
  · exact fun id => sound.modifyChannel _

/-- No filter channel exceeds its capacity. -/
theorem within_move {room : Nat} (every : d.registry.Every (·.Within room)) (move : Move) :
    (d.move move).registry.Every (·.Within room) := by
  apply move_keeps every
  · exact fun request => every.served request
  · exact fun x put stage row turn => turn.within every row
  · exact fun id => every.modifyChannel fun f found => (every.channels id f found).tail
  · exact fun id => every.modifyChannel fun f found => (every.channels id f found).shut

end Dispatch

end StanzaExchange
