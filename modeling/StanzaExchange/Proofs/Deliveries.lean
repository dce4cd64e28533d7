import StanzaExchange.Proofs.Dispatch

/-!
Exactness of deliveries through a registry (section 4.2, property P3 and section 10.2 of the
specification). A delivery succeeds exactly if it appends its stanza once; a channel returns what
was appended in order, unless its receiver is dropped; and after the removal of a filter nothing is
appended any more, while its receiver still drains the queue. All of it follows from two facts about
one move: its effect on a channel (`Effect`) and on the deliveries (`Handling`).
-/
namespace StanzaExchange

/-- The filter and the stanza of a delivery. -/
def Delivery.parcel (x : Delivery) : FilterId × Stanza := (x.filter, x.stanza)

/-- A delivery keeps its filter and stanza, and a completed one stays completed. -/
structure Delivery.Ages (x later : Delivery) : Prop where
  parcel : later.parcel = x.parcel
  ended : x.stage.isOver = true → later.stage = x.stage

theorem Delivery.Ages.refl (x : Delivery) : x.Ages x := ⟨rfl, fun _ => rfl⟩

theorem Delivery.Ages.trans {x y z : Delivery} (first : x.Ages y) (second : y.Ages z) :
    x.Ages z where
  parcel := second.parcel.trans first.parcel
  ended ended := by
    have stays := first.ended ended
    exact (second.ended (by rw [stays, ended])).trans stays

namespace Dispatch

variable {d after : Dispatch} {move : Move} {id : FilterId} {n : Nat} {x : Delivery}
  {put : List Stanza} {stage : Delivery.Stage} {stanza : Stanza}

def Move.begun? : Move → Option (FilterId × Stanza)
  | .begin filter stanza => some (filter, stanza)
  | _ => none

/-- The stanzas a move appends to the channel of a filter. -/
def appended (d : Dispatch) (move : Move) (id : FilterId) : List Stanza :=
  gained (d.registry.queueOf id) ((d.move move).registry.queueOf id)

/-- The stanzas a delivery appends to the channel of a filter by a move. -/
def putBy (d : Dispatch) (n : Nat) (move : Move) (id : FilterId) : List Stanza :=
  match move with
  | .step other => if other = n then d.appended move id else []
  | _ => []

/-- The stanzas the receiver of a filter gets by a move. -/
def returned (d : Dispatch) (move : Move) (id : FilterId) : List Stanza :=
  match move with
  | .receive other =>
    if other = id ∧ d.registry.isReceiving id = true then
      match d.registry.read id with
      | .taken stanza _ => [stanza]
      | .empty | .ended => []
    else []
  | _ => []

/-- The stanzas discarded with the receiver of a filter. -/
def lost (d : Dispatch) (move : Move) (id : FilterId) : List Stanza :=
  match move with
  | .dropReceiver other =>
    if other = id ∧ d.registry.isReceiving id = true then d.registry.queueOf id else []
  | _ => []

/-- The stanzas a delivery has appended, by its stage. -/
def delivered (d : Dispatch) (n : Nat) (id : FilterId) : List Stanza :=
  match d.deliveries[n]? with
  | some x => if x.stage = .done true ∧ x.filter = id then [x.stanza] else []
  | none => []

/-- The effect of a move on one channel: it appends, returns the oldest stanza, discards the queue
with the receiver, or does none of these. -/
inductive Effect (d after : Dispatch) (id : FilterId) :
    (appended returned lost : List Stanza) → Prop
  | rests (queue : after.registry.queueOf id = d.registry.queueOf id)
      (reads : id < d.registry.nextId →
        after.registry.isReceiving id = d.registry.isReceiving id) : Effect d after id [] [] []
  | grows {put : List Stanza} (reads : d.registry.isReceiving id = true)
      (kept : d.registry.isRemoved id = false)
      (queue : after.registry.queueOf id = d.registry.queueOf id ++ put)
      (still : after.registry.isReceiving id = true) : Effect d after id put [] []
  | yields {stanza : Stanza} (reads : d.registry.isReceiving id = true)
      (queue : d.registry.queueOf id = stanza :: after.registry.queueOf id)
      (still : after.registry.isReceiving id = true) : Effect d after id [] [stanza] []
  | drops (reads : d.registry.isReceiving id = true) (queue : after.registry.queueOf id = [])
      (gone : after.registry.isReceiving id = false) :
      Effect d after id [] [] (d.registry.queueOf id)

theorem Turned.appended (turned : d.Turned n x put stage (d.move move)) (id : FilterId) :
    d.appended move id = if id = x.filter then put else [] := by
  rw [Dispatch.appended, turned.queueOf, gained_append]

/-- A turn appends to the channel of its filter, or changes no queue. -/
theorem Turned.effect (turned : d.Turned n x put stage (d.move move)) (id : FilterId) :
    Effect d (d.move move) id (d.appended move id) [] [] := by
  rw [turned.appended]
  have queue := turned.queueOf id
  split at queue
  next same =>
    subst same
    rw [if_pos rfl]
    by_cases nothing : put = []
    · subst nothing
      exact .rests (by simpa using queue) fun _ => turned.isReceiving
    · obtain ⟨reads, kept⟩ := turned.of_put nothing
      exact .grows reads kept queue (by rw [turned.isReceiving, reads])
  next other =>
    rw [if_neg other]
    exact .rests (by simpa using queue) fun _ => turned.isReceiving

theorem appended_eq_nil (queue : (d.move move).registry.queueOf id = d.registry.queueOf id) :
    d.appended move id = [] := by
  rw [appended, queue, gained_self]

/-- A move that only shortens a queue appends nothing. -/
theorem appended_of_shorter {other : FilterId} {change : Channel Stanza → Channel Stanza}
    (changed : (d.move move).registry = d.registry.modifyChannel other change)
    (shorter : ∀ c, (change c).queue.length ≤ c.queue.length) : d.appended move id = [] := by
  apply gained_of_le
  rw [changed]
  by_cases same : id = other
  · subst same
    cases found : d.registry.filter? id with
    | none => simp [Registry.queueOf, Registry.filter?_modifyChannel, found]
    | some f =>
      rw [Registry.queueOf_modifyChannel_self found, Registry.queueOf_eq found]
      exact shorter f.channel
  · rw [Registry.queueOf_modifyChannel_of_ne same]

theorem appended_receive (d : Dispatch) (other id : FilterId) :
    d.appended (.receive other) id = [] := by
  rcases d.move_receive other with ⟨-, -, taken⟩ | ⟨-, same⟩
  · have after : (d.move (.receive other)).registry =
        d.registry.modifyChannel other fun c => { c with queue := c.queue.tail } :=
      congrArg registry taken
    apply appended_of_shorter after
    simp
  · exact appended_eq_nil (congrArg (·.registry.queueOf id) same)

theorem appended_dropReceiver (d : Dispatch) (other id : FilterId) :
    d.appended (.dropReceiver other) id = [] := by
  rcases d.move_dropReceiver other with ⟨-, dropped⟩ | ⟨-, same⟩
  · apply appended_of_shorter (congrArg registry dropped)
    simp [Channel.shut]
  · exact appended_eq_nil (congrArg (·.registry.queueOf id) same)

/-- A poll of a receiver with a queue returns its oldest stanza. -/
theorem receive_first {first : Stanza} {rest : List Stanza}
    (reads : d.registry.isReceiving id = true) (stands : d.registry.queueOf id = first :: rest) :
    d.returned (.receive id) id = [first] ∧
      (d.move (.receive id)).registry.queueOf id = rest ∧
      (d.move (.receive id)).registry.isReceiving id = true := by
  rcases d.move_receive id with ⟨-, ⟨stanza, after, read⟩, taken⟩ | ⟨empty, -⟩
  · have later : (d.move (.receive id)).registry =
        d.registry.modifyChannel id fun c => { c with queue := c.queue.tail } :=
      congrArg registry taken
    have oldest := (Registry.read_taken read).1
    rw [stands, List.head?_cons, Option.some.injEq] at oldest
    refine ⟨by simp [returned, reads, read, oldest], ?_, ?_⟩
    · rw [later, Registry.queueOf_tail, stands, List.tail_cons]
    · rw [later, Registry.isReceiving_tail, reads]
  · cases stands.symm.trans (empty reads)

theorem returned_of_empty {other : FilterId} (empty : d.registry.queueOf id = []) :
    d.returned (.receive other) id = [] := by
  cases read : d.registry.read id with
  | taken stanza after =>
    have oldest := (Registry.read_taken read).1
    rw [empty] at oldest
    cases oldest
  | empty | ended => simp [returned, read]

/-- A poll of a receiver returns the oldest stanza of its channel and changes no other channel. -/
theorem effect_receive (d : Dispatch) (other id : FilterId) :
    Effect d (d.move (.receive other)) id [] (d.returned (.receive other) id) [] := by
  rcases d.move_receive other with ⟨reads, ⟨stanza, rest, read⟩, taken⟩ | ⟨empty, same⟩
  · have after : (d.move (.receive other)).registry =
        d.registry.modifyChannel other fun c => { c with queue := c.queue.tail } :=
      congrArg registry taken
    by_cases same : other = id
    · subst same
      obtain ⟨more, stands⟩ := List.head?_eq_some_iff.mp (Registry.read_taken read).1
      obtain ⟨got, left, still⟩ := receive_first reads stands
      rw [got]
      exact .yields reads (by rw [left, stands]) still
    · rw [returned, if_neg fun both => same both.1]
      constructor
      · rw [after, Registry.queueOf_modifyChannel_of_ne (Ne.symm same)]
      · rw [after, Registry.isReceiving_tail]
        exact fun _ => rfl
  · have nothing : d.returned (.receive other) id = [] := by
      by_cases both : other = id ∧ d.registry.isReceiving id = true
      · obtain ⟨rfl, reads⟩ := both
        exact returned_of_empty (empty reads)
      · exact if_neg both
    rw [nothing, same]
    exact .rests rfl fun _ => rfl

/-- A dropped receiver discards its queue and changes no other channel. -/
theorem effect_dropReceiver (d : Dispatch) (other id : FilterId) :
    Effect d (d.move (.dropReceiver other)) id [] [] (d.lost (.dropReceiver other) id) := by
  rcases d.move_dropReceiver other with ⟨reads, dropped⟩ | ⟨unread, same⟩
  · have after : (d.move (.dropReceiver other)).registry =
        d.registry.modifyChannel other .shut := congrArg registry dropped
    by_cases same : other = id
    · subst same
      have all : d.lost (.dropReceiver other) other = d.registry.queueOf other := by
        simp [lost, reads]
      rw [all]
      exact .drops reads (by rw [after, Registry.queueOf_shut])
        (by rw [after, Registry.isReceiving_shut])
    · rw [lost, if_neg fun both => same both.1]
      constructor
      · rw [after, Registry.queueOf_modifyChannel_of_ne (Ne.symm same)]
      · rw [after, Registry.isReceiving_modifyChannel (Ne.symm same)]
        exact fun _ => rfl
  · have nothing : d.lost (.dropReceiver other) id = [] := by
      by_cases both : other = id ∧ d.registry.isReceiving id = true
      · obtain ⟨rfl, reads⟩ := both
        simp [unread] at reads
      · rw [lost, if_neg both]
    rw [nothing, same]
    exact .rests rfl fun _ => rfl

/-- Every move has one of these effects on every channel. -/
theorem move_effect (d : Dispatch) (move : Move) (id : FilterId) :
    Effect d (d.move move) id (d.appended move id) (d.returned move id) (d.lost move id) := by
  cases move with
  | request request =>
    have queue : (d.move (.request request)).registry.queueOf id = d.registry.queueOf id :=
      Registry.queueOf_served request
    rw [appended_eq_nil queue]
    exact .rests queue fun known => Registry.isReceiving_served request known
  | begin | askToAbort =>
    rw [appended_eq_nil rfl]
    exact .rests rfl fun _ => rfl
  | step n =>
    rcases d.move_step n with same | ⟨x, put, stage, turned⟩
    · rw [appended_eq_nil (by rw [same]), same]
      exact .rests rfl fun _ => rfl
    · exact turned.effect id
  | abort n =>
    rcases d.move_abort n with same | ⟨x, turned⟩
    · rw [appended_eq_nil (by rw [same]), same]
      exact .rests rfl fun _ => rfl
    · exact turned.effect id
  | receive other =>
    rw [appended_receive]
    exact d.effect_receive other id
  | dropReceiver other =>
    rw [appended_dropReceiver]
    exact d.effect_dropReceiver other id

/-- The effect of a move on the deliveries: none, a new one, a cancellation mark, or one poll. Only
a poll appends. -/
inductive Handling (d : Dispatch) (move : Move) : Prop
  | leaves (deliveries : (d.move move).deliveries = d.deliveries)
      (nothing : ∀ id, d.appended move id = []) (unbegun : move.begun? = none)
  | begins (filter : FilterId) (stanza : Stanza) (begun : move = .begin filter stanza)
  | asks (n : Nat) (asked : move = .askToAbort n)
  | steps (n : Nat) (stepped : move = .step n) {x : Delivery} {put : List Stanza}
      {stage : Delivery.Stage} (turned : d.Turned n x put stage (d.move move))
  | givesUp (n : Nat) (given : move = .abort n) {x : Delivery}
      (turned : d.Turned n x [] .aborted (d.move move))

/-- Every move handles the deliveries in one of these ways. -/
theorem move_handling (d : Dispatch) (move : Move) : Handling d move := by
  cases move with
  | request request =>
    exact .leaves rfl (fun id => appended_eq_nil (Registry.queueOf_served request)) rfl
  | begin filter stanza => exact .begins filter stanza rfl
  | askToAbort n => exact .asks n rfl
  | step n =>
    rcases d.move_step n with same | ⟨x, put, stage, turned⟩
    · exact .leaves (by rw [same]) (fun id => appended_eq_nil (by rw [same])) rfl
    · exact .steps n rfl turned
  | abort n =>
    rcases d.move_abort n with same | ⟨x, turned⟩
    · exact .leaves (by rw [same]) (fun id => appended_eq_nil (by rw [same])) rfl
    · exact .givesUp n rfl turned
  | receive other =>
    refine .leaves ?_ (fun id => d.appended_receive other id) rfl
    rcases d.move_receive other with ⟨-, -, taken⟩ | ⟨-, same⟩
    · rw [taken]
    · rw [same]
  | dropReceiver other =>
    refine .leaves ?_ (fun id => d.appended_dropReceiver other id) rfl
    rcases d.move_dropReceiver other with ⟨-, dropped⟩ | ⟨-, same⟩
    · rw [dropped]
    · rw [same]

/-- Only polls of deliveries append. -/
theorem exists_of_appended (puts : d.appended move id ≠ []) : ∃ n, move = .step n := by
  cases d.move_handling move with
  | leaves deliveries nothing => exact absurd (nothing id) puts
  | begins filter stanza begun =>
    subst begun
    exact absurd (appended_eq_nil rfl) puts
  | asks n asked =>
    subst asked
    exact absurd (appended_eq_nil rfl) puts
  | steps n stepped => exact ⟨n, stepped⟩
  | givesUp n given turned =>
    rw [turned.appended] at puts
    simp at puts

/-- A turn changes its own delivery only, and does not complete a completed one again. -/
theorem Turned.ages_delivery {y : Delivery} {m : Nat} (turned : d.Turned n x put stage after)
    (found : d.deliveries[m]? = some y) : ∃ z, after.deliveries[m]? = some z ∧ y.Ages z := by
  have later := turned.getElem? m
  split at later
  next same =>
    subst same
    obtain rfl := Option.some.inj (turned.here.symm.trans found)
    refine ⟨_, later, rfl, fun ended => ?_⟩
    rw [turned.unfinished] at ended
    cases ended
  next other => exact ⟨y, later.trans found, rfl, fun _ => rfl⟩

theorem putBy_step (m : Nat) :
    d.putBy n (.step m) id = if m = n then d.appended (.step m) id else [] := rfl

theorem putBy_eq_nil (nothing : d.appended move id = []) : d.putBy n move id = [] := by
  unfold putBy
  split
  · rw [nothing, ite_self]
  · rfl

theorem getElem?_askToAbort (m : Nat) : (d.askToAbort m).deliveries[n]? =
    (d.deliveries[n]?).map fun x => if m = n then { x with unwanted := true } else x := by
  simp only [askToAbort, List.getElem?_modify]
  split <;> simp

theorem getElem?_begin (filter : FilterId) (stanza : Stanza) :
    (d.begin filter stanza).deliveries[n]? =
      if n = d.deliveries.length then some { filter, stanza } else d.deliveries[n]? := by
  simp only [begin, List.getElem?_append, List.getElem?_singleton]
  by_cases known : n < d.deliveries.length
  · simp [known, Nat.ne_of_lt known]
  · by_cases same : n = d.deliveries.length
    · simp [same]
    · have beyond : d.deliveries.length < n :=
        Nat.lt_of_le_of_ne (Nat.le_of_not_lt known) (Ne.symm same)
      simp [known, same, Nat.sub_ne_zero_of_lt beyond]

theorem delivered_eq (found : d.deliveries[n]? = some x) :
    d.delivered n id = if x.stage = .done true ∧ x.filter = id then [x.stanza] else [] := by
  simp only [delivered, found]

theorem delivered_unfinished (found : d.deliveries[n]? = some x)
    (unfinished : x.stage ≠ .done true) : d.delivered n id = [] := by
  rw [delivered_eq found, if_neg fun both => unfinished both.1]

/-- A turn that appends completes its delivery with success. -/
theorem Turned.delivered (turned : d.Turned n x put stage after) (m : Nat) (id : FilterId) :
    after.delivered m id =
      d.delivered m id ++ if m = n then (if id = x.filter then put else []) else [] := by
  have later := turned.getElem? m
  split at later
  next same =>
    subst same
    have before : d.delivered m id = [] := by
      apply delivered_unfinished turned.here
      intro done
      simpa [done, Delivery.Stage.isOver] using turned.unfinished
    rw [before, delivered_eq later, if_pos rfl, List.nil_append]
    cases turned.turn with
    | puts => simp [eq_comm]
    | fails | waits | aborts => simp
  next other =>
    rw [if_neg other, List.append_nil]
    simp only [Dispatch.delivered, later]

/-- What a delivery has appended is determined by its stage. -/
theorem delivered_move (d : Dispatch) (move : Move) (n : Nat) (id : FilterId) :
    (d.move move).delivered n id = d.delivered n id ++ d.putBy n move id := by
  cases d.move_handling move with
  | leaves deliveries nothing =>
    have unput : d.putBy n move id = [] := putBy_eq_nil (nothing id)
    simp [delivered, deliveries, unput]
  | begins filter stanza begun =>
    subst begun
    have unput : d.putBy n (.begin filter stanza) id = [] := rfl
    rw [unput, List.append_nil]
    have later := d.getElem?_begin (n := n) filter stanza
    split at later
    next fresh =>
      have absent : d.deliveries[n]? = none := by simp [fresh]
      have before : d.delivered n id = [] := by simp [delivered, absent]
      rw [before]
      exact delivered_unfinished later (by simp)
    next known =>
      change (d.begin filter stanza).delivered n id = _
      simp only [delivered, later]
  | asks m asked =>
    subst asked
    have unput : d.putBy n (.askToAbort m) id = [] := rfl
    rw [unput, List.append_nil]
    change (d.askToAbort m).delivered n id = _
    simp only [delivered, getElem?_askToAbort]
    cases d.deliveries[n]? with
    | none => rfl
    | some x => by_cases same : m = n <;> simp [same]
  | steps m stepped turned =>
    subst stepped
    rw [turned.delivered, putBy_step, turned.appended]
    by_cases same : n = m <;> simp [same, eq_comm]
  | givesUp m given turned =>
    subst given
    have unput : d.putBy n (.abort m) id = [] := rfl
    rw [turned.delivered, unput]
    simp

/-- Outcome, filter and stanza of a delivery are final. -/
theorem ages_delivery (found : d.deliveries[n]? = some x) (move : Move) :
    ∃ y, (d.move move).deliveries[n]? = some y ∧ x.Ages y := by
  cases d.move_handling move with
  | leaves deliveries => exact ⟨x, by rw [deliveries, found], rfl, fun _ => rfl⟩
  | begins filter stanza begun =>
    subst begun
    have known : n < d.deliveries.length := (List.getElem?_eq_some_iff.mp found).1
    refine ⟨x, ?_, rfl, fun _ => rfl⟩
    change (d.begin filter stanza).deliveries[n]? = some x
    rw [getElem?_begin, if_neg (Nat.ne_of_lt known), found]
  | asks m asked =>
    subst asked
    refine ⟨if m = n then { x with unwanted := true } else x, ?_, ?_⟩
    · change (d.askToAbort m).deliveries[n]? = _
      rw [getElem?_askToAbort, found]
      rfl
    · split
      · exact ⟨rfl, fun _ => rfl⟩
      · exact ⟨rfl, fun _ => rfl⟩
  | steps m stepped turned => exact turned.ages_delivery found
  | givesUp m given turned => exact turned.ages_delivery found

theorem parcels_modify {change : Delivery → Delivery}
    (same : ∀ x : Delivery, (change x).parcel = x.parcel) (deliveries : List Delivery) :
    (deliveries.modify n change).map Delivery.parcel = deliveries.map Delivery.parcel := by
  apply List.ext_getElem?
  intro m
  simp only [List.getElem?_map, List.getElem?_modify]
  cases deliveries[m]? with
  | none => rfl
  | some x => by_cases here : n = m <;> simp [here, same]

/-- Deliveries are those that have begun, in order. -/
theorem parcels_move (d : Dispatch) (move : Move) :
    (d.move move).deliveries.map Delivery.parcel =
      d.deliveries.map Delivery.parcel ++ move.begun?.toList := by
  cases d.move_handling move with
  | leaves deliveries nothing unbegun => simp [deliveries, unbegun]
  | begins filter stanza begun =>
    subst begun
    simp [Dispatch.move, begin, Move.begun?, Delivery.parcel]
  | asks m asked =>
    subst asked
    change (d.askToAbort m).deliveries.map Delivery.parcel = _
    rw [askToAbort, parcels_modify]
    · simp [Move.begun?]
    · exact fun _ => rfl
  | steps m stepped turned =>
    rw [turned.deliveries, parcels_modify, stepped]
    · simp [Move.begun?]
    · exact fun _ => rfl
  | givesUp m given turned =>
    rw [turned.deliveries, parcels_modify, given]
    · simp [Move.begun?]
    · exact fun _ => rfl

theorem ages_deliveries (found : d.deliveries[n]? = some x) (moves : List Move) :
    ∃ y, (d.run moves).deliveries[n]? = some y ∧ x.Ages y := by
  refine List.foldlRecOn (motive := fun now => ∃ y, now.deliveries[n]? = some y ∧ x.Ages y)
    moves Dispatch.move ⟨x, found, .refl x⟩ ?_
  rintro now ⟨y, later, ages⟩ move -
  obtain ⟨z, last, more⟩ := ages_delivery later move
  exact ⟨z, last, ages.trans more⟩

theorem outcome?_eq_some_iff {delivered : Bool} : d.outcome? n = some delivered ↔
    ∃ x, d.deliveries[n]? = some x ∧ x.stage = .done delivered := by
  unfold outcome?
  split
  next filter stanza result unwanted found => simp [found]
  next other =>
    refine ⟨nofun, fun ⟨x, found, stage⟩ => ?_⟩
    obtain ⟨filter, stanza, _, unwanted⟩ := x
    subst stage
    exact absurd found (other _ _ _ _)

theorem isAborted_iff :
    d.isAborted n = true ↔ ∃ x, d.deliveries[n]? = some x ∧ x.stage = .aborted := by
  unfold isAborted
  split
  next filter stanza unwanted found => simp [found]
  next other =>
    refine ⟨nofun, fun ⟨x, found, stage⟩ => ?_⟩
    obtain ⟨filter, stanza, _, unwanted⟩ := x
    subst stage
    exact absurd found (other _ _ _)

theorem outcome?_of_delivered (puts : d.delivered n id ≠ []) : d.outcome? n = some true := by
  cases found : d.deliveries[n]? with
  | none => simp [delivered, found] at puts
  | some x =>
    rw [delivered_eq found] at puts
    split at puts
    next both => exact outcome?_eq_some_iff.mpr ⟨x, found, both.1⟩
    · exact absurd rfl puts

/-- Nothing is appended to the channel of a removed filter. -/
theorem appended_removed (removed : d.registry.isRemoved id = true) : d.appended move id = [] := by
  have effect := d.move_effect move id
  generalize d.appended move id = appended, d.returned move id = returned,
    d.lost move id = lost at effect ⊢
  cases effect with
  | rests | yields | drops => rfl
  | grows reads kept =>
    rw [removed] at kept
    cases kept

/-- A poll of a pending delivery to a removed filter fails it, whatever slots are free. -/
theorem step_removed (found : d.deliveries[n]? = some x) (unfinished : x.stage.isOver = false)
    (wanted : x.unwanted = false) (removed : d.registry.isRemoved x.filter = true) :
    (d.move (.step n)).outcome? n = some false := by
  have refused : ∀ attempt, d.registry.offerWith x.filter attempt = .refused :=
    fun _ => Registry.offerWith_removed removed
  have stepped : d.step? n = d.deliveryStep? n x := by
    simp only [step?, found, wanted]
    rfl
  change ((d.step? n).getD d).outcome? n = some false
  rw [stepped]
  cases stage : x.stage with
  | fresh => simp [deliveryStep?, stage, Registry.offer, refused, setStage, outcome?, found]
  | waiting => simp [deliveryStep?, stage, refused, withdraw, setStage, outcome?, found]
  | done delivered => simp [stage, Delivery.Stage.isOver] at unfinished
  | aborted => simp [stage, Delivery.Stage.isOver] at unfinished

/-- A removed filter with an empty queue keeps it empty. -/
theorem queueOf_removed (removed : d.registry.isRemoved id = true)
    (empty : d.registry.queueOf id = []) : (d.move move).registry.queueOf id = [] := by
  have effect := d.move_effect move id
  generalize d.appended move id = appended, d.returned move id = returned,
    d.lost move id = lost at effect
  cases effect with
  | rests queue => rw [queue, empty]
  | grows reads kept =>
    rw [removed] at kept
    cases kept
  | yields reads queue => simp [empty] at queue
  | drops reads queue => exact queue

end Dispatch

/-- A receiver sees the end exactly if the filter is removed and the queue empty. -/
theorem Registry.read_eq_ended_iff {r : Registry} {id : FilterId} :
    r.read id = .ended ↔ r.isRemoved id = true ∧ r.queueOf id = [] := by
  constructor
  · exact fun ended => ⟨read_ended ended, read_not_taken (by simp [ended])⟩
  · rintro ⟨removed, empty⟩
    cases read : r.read id with
    | taken stanza after =>
      have first := (read_taken read).1
      simp [empty] at first
    | empty =>
      have kept := (read_empty read).2
      simp [removed] at kept
    | ended => rfl

namespace Dispatch

/-- The moves so far with the state before each, oldest first. -/
abbrev Past := List (Occasion Dispatch Move)

namespace Past

def begun (past : Past) : List (FilterId × Stanza) := past.filterMap fun o => o.move.begun?

def appended (past : Past) (id : FilterId) : List Stanza :=
  past.flatMap fun o => o.before.appended o.move id

def putBy (past : Past) (n : Nat) (id : FilterId) : List Stanza :=
  past.flatMap fun o => o.before.putBy n o.move id

def returned (past : Past) (id : FilterId) : List Stanza :=
  past.flatMap fun o => o.before.returned o.move id

def lost (past : Past) (id : FilterId) : List Stanza :=
  past.flatMap fun o => o.before.lost o.move id

variable {past : Past} {now : Dispatch} {move : Move} {id : FilterId}

theorem returned_append (past more : Past) (id : FilterId) :
    returned (past ++ more) id = past.returned id ++ returned more id :=
  List.flatMap_append

/-- The account of a channel: appended stanzas were returned, are queued, or were discarded with the
receiver. -/
structure Accounts (past : Past) (now : Dispatch) (id : FilterId) : Prop where
  balance : past.appended id = past.returned id ++ past.lost id ++ now.registry.queueOf id
  unread : now.registry.isReceiving id = false → now.registry.queueOf id = []
  dropped : past.lost id ≠ [] →
    id < now.registry.nextId ∧ now.registry.isReceiving id = false

theorem Accounts.lost_eq_nil (accounts : past.Accounts now id)
    (reads : now.registry.isReceiving id = true) : past.lost id = [] := by
  by_contra lost
  rw [(accounts.dropped lost).2] at reads
  cases reads

theorem Accounts.balance_of_reads (accounts : past.Accounts now id)
    (reads : now.registry.isReceiving id = true) :
    past.appended id = past.returned id ++ now.registry.queueOf id := by
  rw [accounts.balance, accounts.lost_eq_nil reads, List.append_nil]

/-- The account is preserved by every move. The cases follow `Effect`. -/
theorem Accounts.step (accounts : past.Accounts now id) (move : Move) :
    Accounts (past ++ [⟨now, move⟩]) (now.move move) id := by
  have appendedThen : appended (past ++ [⟨now, move⟩]) id =
      past.appended id ++ now.appended move id := by simp [appended]
  have returnedThen : returned (past ++ [⟨now, move⟩]) id =
      past.returned id ++ now.returned move id := by simp [returned]
  have lostThen : lost (past ++ [⟨now, move⟩]) id = past.lost id ++ now.lost move id := by
    simp [lost]
  have effect := now.move_effect move id
  generalize now.appended move id = more at appendedThen effect
  generalize now.returned move id = got at returnedThen effect
  generalize now.lost move id = gone at lostThen effect
  cases effect with
  | rests queue reads =>
    simp only [List.append_nil] at appendedThen returnedThen lostThen
    refine ⟨by rw [appendedThen, returnedThen, lostThen, queue, accounts.balance], ?_, ?_⟩
    · intro unread
      rw [queue]
      by_cases known : id < now.registry.nextId
      · exact accounts.unread (by rw [← reads known, unread])
      · apply Registry.queueOf_unknown
        exact Registry.filter?_eq_none_iff.mpr (Nat.le_of_not_lt known)
    · rw [lostThen]
      intro lost
      obtain ⟨known, unread⟩ := accounts.dropped lost
      exact ⟨(ages_move move).lt_nextId known, by rw [reads known, unread]⟩
  | grows reads kept queue still =>
    simp only [List.append_nil] at returnedThen lostThen
    have none := accounts.lost_eq_nil reads
    refine ⟨?_, fun unread => absurd (still.symm.trans unread) (by simp), fun lost => ?_⟩
    · rw [appendedThen, returnedThen, lostThen, none, queue, accounts.balance_of_reads reads]
      simp
    · exact absurd (lostThen.trans none) lost
  | yields reads queue still =>
    simp only [List.append_nil] at appendedThen lostThen
    have none := accounts.lost_eq_nil reads
    refine ⟨?_, fun unread => absurd (still.symm.trans unread) (by simp), fun lost => ?_⟩
    · rw [appendedThen, returnedThen, lostThen, none, accounts.balance_of_reads reads, queue]
      simp
    · exact absurd (lostThen.trans none) lost
  | drops reads queue unread =>
    simp only [List.append_nil] at appendedThen returnedThen
    refine ⟨?_, fun _ => queue, fun _ => ⟨?_, unread⟩⟩
    · rw [appendedThen, returnedThen, lostThen, accounts.lost_eq_nil reads, queue,
        accounts.balance_of_reads reads]
      simp
    · exact (ages_move move).lt_nextId (Registry.lt_nextId_of_isReceiving reads)

/-- Repeated polls of the receiver return the whole queue. -/
theorem returned_replicate {d : Dispatch} (reads : d.registry.isReceiving id = true)
    {queue : List Stanza} (stands : d.registry.queueOf id = queue) :
    returned (trail Dispatch.move d (List.replicate queue.length (.receive id))) id = queue := by
  induction queue generalizing d with
  | nil => rfl
  | cons first rest ih =>
    obtain ⟨got, left, still⟩ := receive_first reads stands
    have others := ih still left
    simp only [returned, List.length_cons, List.replicate_succ, trail, List.flatMap_cons, got]
      at others ⊢
    rw [others]
    rfl

end Past

/-- An execution: a capacity and a sequence of moves. -/
structure Course where
  capacity : Nat
  moves : List Move

namespace Course

/-- The empty registry without deliveries. -/
def origin (k : Course) : Dispatch := { registry := .ofCapacity k.capacity }

def now (k : Course) : Dispatch := k.origin.run k.moves

def past (k : Course) : Past := trail Dispatch.move k.origin k.moves

def andThen (k : Course) (more : List Move) : Course := { k with moves := k.moves ++ more }

variable {k : Course} {id : FilterId} {n : Nat}

theorem now_andThen (k : Course) (more : List Move) : (k.andThen more).now = k.now.run more :=
  List.foldl_append

theorem past_andThen (k : Course) (more : List Move) :
    (k.andThen more).past = k.past ++ trail Dispatch.move k.now more :=
  trail_append k.moves more

theorem wellFormed (k : Course) : k.now.registry.WellFormed :=
  List.foldlRecOn (motive := fun now => now.registry.WellFormed) k.moves Dispatch.move
    (Registry.wellFormed_ofCapacity k.capacity) fun _ sound move _ => wellFormed_move sound move

/-- No channel exceeds its capacity. -/
theorem within (k : Course) : k.now.registry.Every (·.Within (max 1 k.capacity)) := by
  refine List.foldlRecOn (motive := fun now => now.registry.Every (·.Within (max 1 k.capacity)))
    k.moves Dispatch.move ?_ fun _ every move _ => within_move every move
  refine ⟨⟨?_, Nat.zero_le _⟩, fun _ _ found => nomatch found⟩
  change max 1 (max 1 k.capacity) = max 1 k.capacity
  omega

theorem length_queueOf_le (k : Course) (id : FilterId) :
    (k.now.registry.queueOf id).length ≤ max 1 k.capacity :=
  Registry.length_queueOf_le fun f found => (k.within.channels id f found).length_le

theorem accounts (k : Course) (id : FilterId) : k.past.Accounts k.now id :=
  trail_induction (P := fun past now => Past.Accounts past now id)
    ⟨rfl, fun _ => rfl, fun lost => absurd rfl lost⟩
    (fun _ _ move accounts => accounts.step move) k.moves

theorem putBy_eq (k : Course) (n : Nat) (id : FilterId) :
    k.past.putBy n id = k.now.delivered n id := by
  refine trail_induction (P := fun past now => Past.putBy past n id = now.delivered n id) rfl ?_
    k.moves
  intro past now move before
  rw [delivered_move, ← before]
  simp [Past.putBy]

theorem parcels_eq (k : Course) : k.now.deliveries.map Delivery.parcel = k.past.begun := by
  refine trail_induction (P := fun past now =>
    now.deliveries.map Delivery.parcel = Past.begun past) rfl ?_ k.moves
  intro past now move before
  rw [parcels_move, before]
  cases begun : move.begun? <;> simp [Past.begun, begun]

theorem begun_andThen {parcel : FilterId × Stanza} (begun : k.past.begun[n]? = some parcel)
    (more : List Move) : (k.andThen more).past.begun[n]? = some parcel := by
  have known := (List.getElem?_eq_some_iff.mp begun).1
  rw [past_andThen, Past.begun, List.filterMap_append]
  rw [← begun]
  exact List.getElem?_append_left known

theorem exists_of_begun {filter : FilterId} {stanza : Stanza}
    (begun : k.past.begun[n]? = some (filter, stanza)) :
    ∃ x, k.now.deliveries[n]? = some x ∧ x.filter = filter ∧ x.stanza = stanza := by
  rw [← k.parcels_eq, List.getElem?_map, Option.map_eq_some_iff] at begun
  obtain ⟨x, found, parcel⟩ := begun
  exact ⟨x, found, congrArg Prod.fst parcel, congrArg Prod.snd parcel⟩

/-- A delivery that succeeded appended its stanza once, any other nothing. -/
theorem putBy_begun {filter : FilterId} {stanza : Stanza}
    (begun : k.past.begun[n]? = some (filter, stanza)) (id : FilterId) :
    k.past.putBy n id =
      if k.now.outcome? n = some true ∧ filter = id then [stanza] else [] := by
  obtain ⟨x, found, rfl, rfl⟩ := exists_of_begun begun
  have outcome : k.now.outcome? n = some true ↔ x.stage = .done true := by
    rw [outcome?_eq_some_iff]
    constructor
    · rintro ⟨y, foundAlso, stage⟩
      obtain rfl := Option.some.inj (found.symm.trans foundAlso)
      exact stage
    · exact fun stage => ⟨x, found, stage⟩
  rw [putBy_eq, delivered_eq found]
  simp only [outcome]

theorem outcome?_andThen {delivered : Bool} (outcome : k.now.outcome? n = some delivered)
    (more : List Move) : (k.andThen more).now.outcome? n = some delivered := by
  obtain ⟨x, found, stage⟩ := outcome?_eq_some_iff.mp outcome
  obtain ⟨y, later, ages⟩ := ages_deliveries found more
  rw [now_andThen]
  exact outcome?_eq_some_iff.mpr ⟨y, later, (ages.ended (by rw [stage]; rfl)).trans stage⟩

theorem isAborted_andThen (aborted : k.now.isAborted n = true) (more : List Move) :
    (k.andThen more).now.isAborted n = true := by
  obtain ⟨x, found, stage⟩ := isAborted_iff.mp aborted
  obtain ⟨y, later, ages⟩ := ages_deliveries found more
  rw [now_andThen]
  exact isAborted_iff.mpr ⟨y, later, (ages.ended (by rw [stage]; rfl)).trans stage⟩

/-- What only appended stanzas show is final after the removal. -/
theorem unseen_removed (marked : k.now.registry.Marked id)
    {seen : Occasion Dispatch Move → List Stanza}
    (puts : ∀ o, o.before.appended o.move id = [] → seen o = []) (more : List Move) :
    (k.andThen more).past.flatMap seen = k.past.flatMap seen := by
  have quiet (now : Dispatch) (move : Move) (marked : now.registry.Marked id) :
      seen ⟨now, move⟩ = [] ∧ (now.move move).registry.Marked id := by
    constructor
    · exact puts _ (appended_removed (Registry.marked_iff.mp marked).2)
    · exact (ages_move move).marked marked
  rw [past_andThen, List.flatMap_append, (trail_unseen quiet marked more).1, List.append_nil]

theorem marked_andThen (marked : k.now.registry.Marked id) (more : List Move) :
    (k.andThen more).now.registry.Marked id := by
  rw [now_andThen]
  exact (ages_run more).marked marked

/-- A delivery to a removed filter has succeeded before the removal, or never does. -/
theorem succeeded_before {stanza : Stanza} (marked : k.now.registry.Marked id) {more : List Move}
    (begun : (k.andThen more).past.begun[n]? = some (id, stanza))
    (succeeded : (k.andThen more).now.outcome? n = some true) : k.now.outcome? n = some true := by
  have put : (k.andThen more).past.putBy n id = [stanza] := by
    rw [putBy_begun begun, if_pos ⟨succeeded, rfl⟩]
  have before : k.past.putBy n id = [stanza] := by
    rw [← put]
    exact (unseen_removed marked (fun o nothing => putBy_eq_nil nothing) more).symm
  have puts : k.now.delivered n id ≠ [] := by
    rw [← putBy_eq, before]
    simp
  exact outcome?_of_delivered puts

/-- A channel that has ended has ended for ever. -/
theorem ended_andThen (marked : k.now.registry.Marked id) (ended : k.now.registry.read id = .ended)
    (more : List Move) : (k.andThen more).now.registry.read id = .ended := by
  have still : ((k.andThen more).now.registry.Marked id ∧
      (k.andThen more).now.registry.queueOf id = []) := by
    rw [now_andThen]
    refine List.foldlRecOn
      (motive := fun now => now.registry.Marked id ∧ now.registry.queueOf id = []) more
      Dispatch.move ⟨marked, (Registry.read_eq_ended_iff.mp ended).2⟩ ?_
    rintro now ⟨marked, empty⟩ move -
    exact ⟨(ages_move move).marked marked,
      queueOf_removed (Registry.marked_iff.mp marked).2 empty⟩
  exact Registry.read_eq_ended_iff.mpr ⟨(Registry.marked_iff.mp still.1).2, still.2⟩

/-- All appended stanzas are returned to a receiver that keeps polling. -/
theorem returned_all (reads : k.now.registry.isReceiving id = true) :
    (k.andThen (List.replicate (k.now.registry.queueOf id).length (.receive id))).past.returned id =
      k.past.appended id := by
  have rest := Past.returned_replicate reads rfl
  have grown := Past.returned_append k.past
    (trail Dispatch.move k.now (List.replicate (k.now.registry.queueOf id).length (.receive id))) id
  rw [(k.accounts id).balance_of_reads reads, past_andThen, grown, rest]

/-- `remove` and `closeAll` remove the filter. -/
theorem isRemoved_request {request : Registry.Request}
    (removes : request = .remove id ∨ request = .closeAll) :
    (k.andThen [.request request]).now.registry.isRemoved id = true := by
  rw [now_andThen]
  change (k.now.registry.served request).isRemoved id = true
  rcases removes with rfl | rfl
  · cases removed : k.now.registry.remove? id with
    | none =>
      have inactive := (Registry.remove?_eq_none_iff k.wellFormed).mp removed
      rw [k.wellFormed.active_iff] at inactive
      simpa [Registry.served, Registry.perform, removed] using inactive
    | some later =>
      simp [Registry.served, Registry.perform, removed, Registry.isRemoved_remove removed]
  · exact k.wellFormed.isRemoved_close

/-- Exactness of deliveries, for any interleaving. A delivery has succeeded exactly if it has
appended its stanza once to the channel of its filter, and otherwise has appended nothing; its
outcome is final, and only deliveries append. What was appended is, in order, what was returned and
what is queued, and only a dropped receiver discards. Repeated polls return everything, also after
removal. After the removal of a filter nothing is appended and no delivery to it succeeds: the next
poll of a pending one fails, whatever slots are free. The receiver sees the end exactly if the
filter is removed and the queue empty, and from then on nothing else. No channel exceeds its
capacity. -/
theorem deliveries_exact (k : Course) :
    (∀ n filter stanza, k.past.begun[n]? = some (filter, stanza) →
      (k.now.outcome? n = some true ↔ k.past.putBy n filter = [stanza]) ∧
      (∀ id, k.now.outcome? n ≠ some true ∨ id ≠ filter → k.past.putBy n id = []) ∧
      ∀ more, (∀ delivered, k.now.outcome? n = some delivered →
          (k.andThen more).now.outcome? n = some delivered) ∧
        (k.now.isAborted n = true → (k.andThen more).now.isAborted n = true)) ∧
    (∀ o ∈ k.past, ∀ id, o.before.appended o.move id ≠ [] → ∃ n, o.move = .step n) ∧
    (∀ id, k.past.appended id =
        k.past.returned id ++ k.past.lost id ++ k.now.registry.queueOf id ∧
      (k.now.registry.isReceiving id = true → k.past.lost id = [] ∧
        ∃ more, (∀ move ∈ more, move = .receive id) ∧
          (k.andThen more).past.returned id = k.past.appended id) ∧
      (k.now.registry.queueOf id).length ≤ max 1 k.capacity) ∧
    (∀ id, (k.andThen [.request (.remove id)]).now.registry.isRemoved id = true ∧
      (k.andThen [.request .closeAll]).now.registry.isRemoved id = true) ∧
    (∀ id < k.now.registry.nextId, k.now.registry.isRemoved id = true → ∀ more,
      (k.andThen more).now.registry.isRemoved id = true ∧
      (k.andThen more).past.appended id = k.past.appended id ∧
      (∀ n stanza, (k.andThen more).past.begun[n]? = some (id, stanza) →
        (k.andThen more).now.outcome? n = some true → k.now.outcome? n = some true) ∧
      ∀ n x, (k.andThen more).now.deliveries[n]? = some x → x.filter = id →
        x.stage.isOver = false → x.unwanted = false →
        ((k.andThen more).andThen [.step n]).now.outcome? n = some false) ∧
    ∀ id, (k.now.registry.read id = .ended ↔
        k.now.registry.isRemoved id = true ∧ k.now.registry.queueOf id = []) ∧
      (id < k.now.registry.nextId → k.now.registry.read id = .ended → ∀ more,
        (k.andThen more).now.registry.read id = .ended) := by
  refine ⟨fun n filter stanza begun => ⟨?_, fun id other => ?_, fun more => ⟨?_, ?_⟩⟩, ?_,
    fun id => ⟨(k.accounts id).balance, fun reads => ⟨?_, _, ?_, returned_all reads⟩, ?_⟩,
    fun id => ⟨isRemoved_request (.inl rfl), isRemoved_request (.inr rfl)⟩,
    fun id known removed more => ?_, fun id => ⟨Registry.read_eq_ended_iff, fun known ended => ?_⟩⟩
  · rw [putBy_begun begun]
    by_cases succeeded : k.now.outcome? n = some true <;> simp [succeeded]
  · rw [putBy_begun begun, if_neg]
    rintro ⟨succeeded, rfl⟩
    simp [succeeded] at other
  · exact fun delivered outcome => outcome?_andThen outcome more
  · exact fun aborted => isAborted_andThen aborted more
  · exact fun o _ id puts => exists_of_appended puts
  · exact (k.accounts id).lost_eq_nil reads
  · exact fun move member => List.eq_of_mem_replicate member
  · exact k.length_queueOf_le id
  · have marked := Registry.marked_iff.mpr ⟨known, removed⟩
    have still := Registry.marked_iff.mp (marked_andThen marked more)
    refine ⟨still.2, unseen_removed marked (fun o nothing => nothing) more,
      fun n stanza begun => succeeded_before marked begun, ?_⟩
    rintro n x found rfl unfinished wanted
    rw [now_andThen]
    exact step_removed found unfinished wanted still.2
  · have removed := (Registry.read_eq_ended_iff.mp ended).1
    exact ended_andThen (Registry.marked_iff.mpr ⟨known, removed⟩) ended

/-- A filter with the smallest capacity: two stanzas get through, a third delivery waits, a fourth
is cancelled, and the filter is removed. -/
def contested : Course where
  capacity := 0
  moves :=
    [.request (.add .anything), .begin 0 (.message {}), .step 0, .begin 0 (.presence {}), .step 1,
      .receive 0, .step 1, .begin 0 (.error ⟨"reset", none⟩), .step 2, .begin 0 (.message {}),
      .step 3, .abort 3, .request (.remove 0)]

theorem deliveries_exact_contested :
    contested.past.putBy 1 0 = [.presence {}] ∧ contested.past.putBy 3 0 = [] ∧
      contested.past.returned 0 = [.message {}] ∧
      (∀ more, (contested.andThen more).past.appended 0 = [.message {}, .presence {}] ∧
        (contested.andThen more).now.outcome? 2 ≠ some true) ∧
      (contested.andThen [.receive 0, .step 2]).past.returned 0 = [.message {}, .presence {}] ∧
      (contested.andThen [.receive 0, .step 2]).now.outcome? 2 = some false := by
  obtain ⟨told, -, accounts, -, removed, -⟩ := contested.deliveries_exact
  have begun : contested.past.begun[2]? = some (0, .error ⟨"reset", none⟩) := by decide +kernel
  refine ⟨?_, ?_, by decide +kernel, fun more => ?_, by decide +kernel, ?_⟩
  · exact (told 1 0 (.presence {}) (by decide +kernel)).1.mp (by decide +kernel)
  · exact (told 3 0 (.message {}) (by decide +kernel)).2.1 0 (.inl (by decide +kernel))
  · obtain ⟨-, appended, succeeds, -⟩ := removed 0 (by decide +kernel) (by decide +kernel) more
    constructor
    · rw [appended]
      decide +kernel
    · intro succeeded
      have earlier := succeeds 2 _ (begun_andThen begun more) succeeded
      have waits : contested.now.outcome? 2 ≠ some true := by decide +kernel
      exact waits earlier
  · obtain ⟨-, -, -, fails⟩ := removed 0 (by decide +kernel) (by decide +kernel) [.receive 0]
    exact fails 2 ⟨0, .error ⟨"reset", none⟩, .waiting, false⟩ (by decide +kernel) rfl rfl rfl

end Course

end Dispatch

end StanzaExchange
