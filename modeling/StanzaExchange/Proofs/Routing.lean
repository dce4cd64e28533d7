import StanzaExchange.Proofs.Conservation

/-!
Routing of one stanza (section 4.4, steps 4 and 5, of the specification). Between the poll that
reads an element and the poll that finishes its routing, any moves of others can happen: filters are
added, removed, drained or dropped. `Offered` is the invariant of that stretch: how far the snapshot
was served, and that a filter of the served part that accepts the stanza and did not get it is gone.
It is kept by every operation and carried on by every poll of the receiver task.
-/
namespace StanzaExchange

open Inflow (Flow Touch handsTo Advance)

namespace Reader

/-- The stanza that the receiver task is routing. -/
def inHand : Reader → Option Stanza
  | .routing stanza _ _ | .surfacing stanza => some stanza
  | _ => none

/-- The rest of the snapshot, next filter first. -/
def toCome : Reader → List FilterId
  | .routing _ rest _ => rest
  | _ => []

/-- The receiver task is routing the stanza, with the number of deliveries made. -/
def Holds (stanza : Stanza) (takers : List FilterId) : Reader → Prop
  | .routing held _ taken => held = stanza ∧ taken = takers.length
  | .surfacing held => held = stanza ∧ takers = []
  | _ => False

theorem Holds.inHand {r : Reader} {stanza : Stanza} {takers : List FilterId}
    (held : r.Holds stanza takers) : r.inHand = some stanza := by
  cases r with
  | routing other rest taken => exact congrArg some held.1
  | surfacing other => exact congrArg some held.1
  | reading | failing | closing | closed => exact held.elim

theorem Holds.not_reading {r : Reader} {stanza : Stanza} {takers : List FilterId}
    (held : r.Holds stanza takers) : r ≠ .reading := by
  rintro rfl
  exact held

end Reader

namespace Inflow

variable {i after : Inflow} {faults : Faults} {flow : Flow} {snapshot takers : List FilterId}
  {stanza : Stanza}

/-- The snapshot is served up to a point: the takers are in snapshot order, and an accepting filter
of the served part that is no taker is gone. -/
structure Offered (i : Inflow) (snapshot : List FilterId) (stanza : Stanza)
    (takers : List FilterId) : Prop where
  known : ∀ id ∈ snapshot, id < i.registry.nextId
  wanted : ∀ id ∈ takers, i.registry.accepts id stanza = true
  split : ∃ served, snapshot = served ++ i.reader.toCome ∧ takers.Sublist served ∧
    ∀ id ∈ served, i.registry.accepts id stanza = true → id ∈ takers ∨ i.registry.Gone id

namespace Offered

theorem sublist (offered : i.Offered snapshot stanza takers) : takers.Sublist snapshot := by
  obtain ⟨served, rfl, order, -⟩ := offered.split
  exact order.trans (List.sublist_append_left _ _)

theorem pairwise {R : FilterId → FilterId → Prop} (offered : i.Offered snapshot stanza takers)
    (sorted : snapshot.Pairwise R) : (takers ++ i.reader.toCome).Pairwise R := by
  obtain ⟨served, rfl, order, -⟩ := offered.split
  exact sorted.sublist (order.append_right _)

/-- `Offered` is preserved by every operation that does not move the receiver task. -/
theorem of_ages (offered : i.Offered snapshot stanza takers)
    (ages : i.registry.Ages after.registry) (reader : after.reader.toCome = i.reader.toCome) :
    after.Offered snapshot stanza takers := by
  obtain ⟨served, split, order, done⟩ := offered.split
  have same : ∀ id ∈ snapshot,
      after.registry.accepts id stanza = i.registry.accepts id stanza := by
    intro id member
    obtain ⟨f, found⟩ := Registry.exists_of_lt_nextId (offered.known id member)
    exact ages.accepts_eq found
  refine ⟨fun id member => ages.lt_nextId (offered.known id member), fun id member => ?_,
    served, by rw [reader, split], order, fun id member wants => ?_⟩
  · rw [same id (offered.sublist.subset member)]
    exact offered.wanted id member
  · have known : id ∈ snapshot := split ▸ List.mem_append_left _ member
    rw [same id known] at wants
    obtain ⟨f, found⟩ := Registry.exists_of_lt_nextId (offered.known id known)
    exact (done id member wants).imp_right (ages.gone found)

theorem touch (offered : i.Offered snapshot stanza takers) (t : Touch) :
    (i.touch t).Offered snapshot stanza takers :=
  offered.of_ages (ages_touch t) (by rw [reader_touch])

/-- The snapshot at the start is the list of active filters, and none is served. -/
theorem begins (sound : i.registry.WellFormed) (feed : Feed) :
    Offered { i with feed, reader := .routing stanza i.registry.snapshot 0 } i.registry.active
      stanza [] where
  known id member := sound.lt_nextId member
  wanted id member := by cases member
  split := ⟨[], sound.snapshot.symm, .slnil, fun id member => by cases member⟩

/-- `Offered` is preserved by serving one filter, whether or not it takes the stanza. -/
private theorem serves {id : FilterId} {rest taker : List FilterId} {taken more : Nat}
    {registry : Registry} (offered : i.Offered snapshot stanza takers)
    (busy : i.reader = .routing stanza (id :: rest) taken) (ages : i.registry.Ages registry)
    (taker_sublist : taker.Sublist [id]) (wants : ∀ id ∈ taker, registry.accepts id stanza = true)
    (done : registry.accepts id stanza = true → id ∈ taker ∨ registry.Gone id) :
    Offered { i with registry, reader := .routing stanza rest more } snapshot stanza
      (takers ++ taker) := by
  have later : Offered { i with registry } snapshot stanza takers := offered.of_ages ages rfl
  obtain ⟨served, split, order, past⟩ := later.split
  refine ⟨later.known, fun other member => ?_, served ++ [id], ?_, order.append taker_sublist,
    fun other member wanted => ?_⟩
  · exact (List.mem_append.mp member).elim (later.wanted other) (wants other)
  · simp [split, busy, Reader.toCome]
  · rcases List.mem_append.mp member with early | last
    · exact (past other early wanted).imp_left (List.mem_append_left _)
    · obtain rfl := List.mem_singleton.mp last
      exact (done wanted).imp_left (List.mem_append_right _)

/-- `Offered` is preserved by a poll of the receiver task. -/
theorem advance (offered : i.Offered snapshot stanza takers) (held : i.reader.Holds stanza takers)
    (step : Advance faults i flow after) :
    after.Offered snapshot stanza (takers ++ flow.handed.map Prod.fst) := by
  have rests : ∀ {later : Inflow}, later.registry = i.registry →
      later.reader.toCome = i.reader.toCome → later.Offered snapshot stanza (takers ++ []) := by
    intro later registry reader
    rw [List.append_nil]
    exact offered.of_ages (registry ▸ .refl _) reader
  cases step with
  | waits => exact rests rfl rfl
  | reads idle | fails idle | hangsUp idle => exact absurd idle held.not_reading
  | @hands other id rest taken registry busy wanted put =>
    rw [busy] at held
    obtain ⟨rfl, -⟩ := held
    have hands : Advance faults i { handed := [(id, other)] }
        { i with registry, reader := .routing other rest (taken + 1) } := .hands busy wanted put
    have ages : i.registry.Ages registry := hands.ages
    obtain ⟨f, found, -⟩ := Registry.offer_accepted put
    refine offered.serves busy ages (List.Sublist.refl [id]) (fun k member => ?_)
      (fun _ => .inl (List.mem_singleton_self id))
    obtain rfl := List.mem_singleton.mp member
    rw [ages.accepts_eq found, wanted]
  | passes busy missed =>
    rw [busy] at held
    obtain ⟨rfl, -⟩ := held
    exact offered.serves busy (.refl _) (List.nil_sublist _) (fun k member => by cases member)
      (fun wanted => .inr (missed wanted))
  | surfaces busy | ends busy | puts busy | loses busy =>
    exact rests rfl (by simp [busy, Reader.toCome])
  | reports busy | conceals busy | closes busy =>
    rw [busy] at held
    exact held.elim

end Offered

/-- While a stanza is being routed nothing is read, and only it is delivered, to the next filter of
the snapshot. -/
theorem Advance.of_holds (step : Advance faults i flow after)
    (held : i.reader.Holds stanza takers) :
    flow.read = [] ∧
      ∀ hand ∈ flow.handed, hand.2 = stanza ∧ i.reader.toCome.head? = some hand.1 := by
  cases step with
  | reads idle | fails idle => exact absurd idle held.not_reading
  | hands busy wanted put =>
    rw [busy] at held
    refine ⟨rfl, fun hand member => ?_⟩
    obtain rfl := List.mem_singleton.mp member
    exact ⟨held.1, by simp [busy, Reader.toCome]⟩
  | _ => exact ⟨rfl, fun hand member => by cases member⟩

/-- A poll leaves the stanza in routing, or finishes it; then it is on the inbound channel if there
was no taker and there is a receiver. -/
theorem Advance.holds_or_done (step : Advance faults i flow after)
    (held : i.reader.Holds stanza takers) :
    (after.reader.Holds stanza (takers ++ flow.handed.map Prod.fst) ∧ flow.surfaced = []) ∨
      (after.reader = .reading ∧ flow.handed = [] ∧
        flow.surfaced = if takers = [] ∧ i.inbound.receiving = true then [stanza] else []) := by
  cases step with
  | waits => exact .inl ⟨by simpa using held, rfl⟩
  | reads idle | fails idle | hangsUp idle => exact absurd idle held.not_reading
  | hands busy wanted put =>
    rw [busy] at held
    obtain ⟨rfl, rfl⟩ := held
    exact .inl ⟨⟨rfl, by simp⟩, rfl⟩
  | passes busy missed =>
    rw [busy] at held
    exact .inl ⟨by simpa [Reader.Holds] using held, rfl⟩
  | surfaces busy =>
    rw [busy] at held
    obtain ⟨rfl, none⟩ := held
    exact .inl ⟨⟨rfl, by simpa using none.symm⟩, rfl⟩
  | ends busy handed =>
    rw [busy] at held
    obtain ⟨rfl, rfl⟩ := held
    have taken : takers ≠ [] := by simpa using handed
    exact .inr ⟨rfl, rfl, by simp [taken]⟩
  | puts busy put =>
    rw [busy] at held
    obtain ⟨rfl, none⟩ := held
    obtain ⟨reads, -, rfl⟩ := Channel.offerBehind_accepted put
    exact .inr ⟨rfl, rfl, by simp [none, reads]⟩
  | loses busy unread =>
    rw [busy] at held
    exact .inr ⟨rfl, rfl, by simp [unread]⟩
  | reports busy | conceals busy | closes busy =>
    rw [busy] at held
    exact held.elim

end Inflow

namespace Course

/-- The state after one poll of the receiver task. -/
def begun (k : Course) : Conversation := k.now.move (.step .reader)

/-- An execution in which the receiver task reads a stanza and finishes its routing at the end, or
not yet. -/
structure Routes (k : Course) (stanza : Stanza) (during : List Move) : Prop where
  idle : k.now.inflow.reader = .reading
  takes : k.begun.inflow.reader.inHand = some stanza
  busy : ∀ m ∈ k.begun.moments during, m.before.inflow.reader ≠ .reading

end Course

/-- The invariant of such an execution. -/
structure Routed (snapshot : List FilterId) (stanza : Stanza) (past : History)
    (now : Conversation) : Prop where
  offered : now.inflow.Offered snapshot stanza past.takers
  alike : ∀ hand ∈ past.handed, hand.2 = stanza
  stage : (now.inflow.reader.Holds stanza past.takers ∧ past.surfaced = []) ∨
    (now.inflow.reader = .reading ∧ past.surfaced =
      if past.takers = [] ∧ now.inflow.inbound.receiving = true then [stanza] else [])

namespace Routed

variable {snapshot : List FilterId} {stanza : Stanza} {past : History} {m : Moment}

theorem held (routed : Routed snapshot stanza past m.before)
    (busy : m.before.inflow.reader ≠ .reading) :
    m.before.inflow.reader.Holds stanza past.takers ∧ past.surfaced = [] :=
  routed.stage.resolve_right fun done => busy done.1

/-- `Routed` is preserved by moves of others. -/
theorem of_told {touch : Touch} (routed : Routed snapshot stanza past m.before)
    (busy : m.before.inflow.reader ≠ .reading) (told : m.Told touch) :
    Routed snapshot stanza (past ++ [m]) m.after := by
  obtain ⟨-, handed, surfaced⟩ := told.still
  obtain ⟨held, unseen⟩ := routed.held busy
  have takers : History.takers (past ++ [m]) = past.takers := by simp [handed]
  refine ⟨?_, ?_, .inl ⟨?_, ?_⟩⟩
  · rw [takers, told.inflow]
    exact routed.offered.touch touch
  · simpa [handed] using routed.alike
  · rw [takers, told.inflow, Inflow.reader_touch]
    exact held
  · simp [surfaced, unseen]

/-- `Routed` is preserved by the receiver task. -/
theorem of_advances {flow : Flow} (routed : Routed snapshot stanza past m.before)
    (busy : m.before.inflow.reader ≠ .reading) (advances : m.Advances flow) :
    Routed snapshot stanza (past ++ [m]) m.after := by
  obtain ⟨held, unseen⟩ := routed.held busy
  have takers : History.takers (past ++ [m]) = past.takers ++ flow.handed.map Prod.fst := by
    simp [advances.handed]
  have surfaced : History.surfaced (past ++ [m]) = flow.surfaced := by
    simp [unseen, advances.surfaced]
  constructor
  · rw [takers]
    exact routed.offered.advance held advances.step
  · intro hand member
    rw [History.handed_concat, advances.handed] at member
    exact (List.mem_append.mp member).elim (routed.alike hand)
      fun more => ((advances.step.of_holds held).2 hand more).1
  · rw [takers, surfaced]
    rcases advances.step.holds_or_done held with ⟨still, none⟩ | ⟨idle, unhanded, shown⟩
    · exact .inl ⟨still, none⟩
    · have listened := advances.step.inbound.2.1
      rw [unhanded, List.map_nil, List.append_nil, listened]
      exact .inr ⟨idle, shown⟩

end Routed

namespace Course

variable {k : Course} {stanza : Stanza} {during : List Move}

/-- The invariant holds after the poll that reads the element. -/
theorem Routes.snapshot (routes : k.Routes stanza during) :
    k.begun.inflow.Offered k.now.inflow.registry.active stanza [] ∧
      k.begun.inflow.reader.Holds stanza [] := by
  obtain ⟨flow, advances⟩ := Moment.reader_advances k.now
  have step : Advance k.now.faults k.now.inflow flow k.begun.inflow := advances.step
  have takes := routes.takes
  have idle := routes.idle
  generalize k.begun.inflow = after at step takes
  cases step with
  | waits =>
    rw [idle] at takes
    cases takes
  | reads reading first feeding =>
    obtain rfl := Option.some.inj takes
    exact ⟨.begins k.wellFormed _, rfl, rfl⟩
  | fails reading | hangsUp reading => cases takes
  | hands busy | passes busy | surfaces busy | ends busy | puts busy | loses busy | reports busy
  | conceals busy | closes busy =>
    rw [idle] at busy
    cases busy

/-- The invariant holds throughout. -/
theorem Routes.routed (routes : k.Routes stanza during) :
    Routed k.now.inflow.registry.active stanza (k.begun.moments during) (k.begun.run during) := by
  obtain ⟨offered, held⟩ := routes.snapshot
  refine Conversation.run_induction (P := fun past now =>
    (∀ m ∈ past, m.before.inflow.reader ≠ .reading) →
      Routed k.now.inflow.registry.active stanza past now) (fun _ => ?_) ?_ during routes.busy
  · exact ⟨offered, fun hand member => absurd member List.not_mem_nil, .inl ⟨held, rfl⟩⟩
  · intro past now move kept busy
    have before := kept fun m member => busy m (List.mem_append_left _ member)
    have still : now.inflow.reader ≠ .reading := busy ⟨now, move⟩ (by simp)
    rcases Moment.told_or_advances ⟨now, move⟩ with ⟨touch, told⟩ | ⟨flow, advances⟩
    · exact before.of_told still told
    · exact before.of_advances still advances

/-- An active filter that accepts the stanza gets it, is still to be served, or is gone. -/
theorem Routes.misses (routes : k.Routes stanza during) {id : FilterId}
    (active : id ∈ k.now.inflow.registry.active)
    (wants : k.now.inflow.registry.accepts id stanza = true) :
    id ∈ History.takers (k.begun.moments during) ∨
      id ∈ (k.begun.run during).inflow.reader.toCome ∨
      (k.begun.run during).inflow.registry.Gone id := by
  have ages : k.now.inflow.registry.Ages (k.begun.run during).inflow.registry :=
    (Conversation.ages_move _).trans (Conversation.ages_run during)
  obtain ⟨f, found, -⟩ := k.wellFormed.exists_of_active active
  obtain ⟨served, split, order, done⟩ := routes.routed.offered.split
  rcases List.mem_append.mp (split ▸ active) with early | late
  · rw [← ages.accepts_eq found] at wants
    exact (done id early wants).imp_right .inr
  · exact .inr (.inl late)

/-- A stanza whose routing is finished is on the inbound channel exactly if it has no taker. -/
theorem Routes.surfaced (routes : k.Routes stanza during) :
    History.surfaced (k.begun.moments during) =
      if (k.begun.run during).inflow.reader = .reading ∧
          History.takers (k.begun.moments during) = [] ∧
          (k.begun.run during).inflow.inbound.receiving = true then
        [stanza]
      else [] := by
  rcases routes.routed.stage with ⟨held, unseen⟩ | ⟨idle, shown⟩
  · rw [unseen, if_neg fun done => held.not_reading done.1]
  · rw [shown]
    simp [idle]

/-- Routing is exclusive and complete, for any moves while it goes on. The takers are in snapshot
order, newest first, and accept the stanza; an accepting filter of the snapshot that does not get it
was removed or has no receiver; an older filter is served only after the newer ones; and once
routing is finished the stanza is on the inbound channel exactly if there is no taker and the
channel has a receiver. -/
theorem routing_exclusive (k : Course) (stanza : Stanza) (during : List Move)
    (routes : k.Routes stanza during) :
    let registry := k.now.inflow.registry
    let past := k.begun.moments during
    let now := k.begun.run during
    past.takers.Pairwise (· > ·) ∧
    (∀ hand ∈ past.handed, hand.2 = stanza ∧ hand.1 ∈ registry.active ∧
      hand.1 < registry.nextId ∧ registry.accepts hand.1 stanza = true) ∧
    (∀ id ∈ registry.active, registry.accepts id stanza = true →
      id ∈ past.takers ∨ id ∈ now.inflow.reader.toCome ∨ now.inflow.registry.Gone id) ∧
    (∃ served, registry.active = served ++ now.inflow.reader.toCome ∧
      past.takers.Sublist served) ∧
    (∀ move, now.inflow.reader ≠ .reading → ∀ hand ∈ Moment.handed ⟨now, move⟩,
      now.inflow.reader.toCome.head? = some hand.1) ∧
    past.surfaced =
      if now.inflow.reader = .reading ∧ past.takers = [] ∧ now.inflow.inbound.receiving = true then
        [stanza]
      else [] := by
  intro registry past now
  have routed : Routed registry.active stanza past now := routes.routed
  have ages : registry.Ages now.inflow.registry :=
    (Conversation.ages_move _).trans (Conversation.ages_run during)
  have same : ∀ id ∈ registry.active,
      now.inflow.registry.accepts id stanza = registry.accepts id stanza := by
    intro id member
    obtain ⟨f, found, -⟩ := k.wellFormed.exists_of_active member
    exact ages.accepts_eq found
  have sorted : (past.takers ++ now.inflow.reader.toCome).Pairwise (· > ·) :=
    routed.offered.pairwise k.wellFormed.newestFirst
  refine ⟨(List.pairwise_append.mp sorted).1, fun hand member => ?_, fun id member wants => ?_, ?_,
    fun move busy hand member => ?_, ?_⟩
  · have taker : hand.1 ∈ past.takers := List.mem_map_of_mem member
    have active := routed.offered.sublist.subset taker
    refine ⟨routed.alike hand member, active, k.wellFormed.lt_nextId active, ?_⟩
    rw [← same hand.1 active]
    exact routed.offered.wanted hand.1 taker
  · obtain ⟨served, split, order, done⟩ := routed.offered.split
    rcases List.mem_append.mp (split ▸ member) with early | late
    · rw [← same id member] at wants
      exact (done id early wants).imp_right .inr
    · exact .inr (.inl late)
  · obtain ⟨served, split, order, done⟩ := routed.offered.split
    exact ⟨served, split, order⟩
  · have held := (routed.stage.resolve_right fun done => busy done.1).1
    rcases Moment.told_or_advances ⟨now, move⟩ with ⟨touch, told⟩ | ⟨flow, advances⟩
    · rw [told.still.2.1] at member
      cases member
    · rw [advances.handed] at member
      exact ((advances.step.of_holds held).2 hand member).2
  · rcases routed.stage with ⟨held, unseen⟩ | ⟨idle, shown⟩
    · rw [unseen, if_neg fun done => held.not_reading done.1]
    · rw [shown]
      simp [idle]

/-- Three filters with full channels accept a second message, and one between them does not. -/
def crowded : Course where
  jid := ⟨none, "example", none⟩
  settings := { filterCapacity := 1 }
  moves :=
    [.outside (.addFilter .own .anything), .outside (.addFilter .own (.named "message")),
      .outside (.addFilter .own .failures), .outside (.addFilter .own .anything),
      .outside (.push (.element (.named "message")))] ++ List.replicate 6 (.step .reader) ++
      [.outside (.push (.element (.named "message")))]

/-- While the second message is routed, one filter is drained, one removed, one dropped and one
added. -/
def shuffle : List Move :=
  [.step .reader, .outside (.receiveFrom 3), .step .reader, .outside (.removeFilter .own 1),
    .outside (.addFilter .own .anything), .step .reader, .step .reader, .step .reader,
    .outside (.dropReceiver 0), .step .reader, .step .reader]

theorem routing_exclusive_crowded :
    (crowded.begun.run (shuffle.take 2)).inflow.reader.toCome.head? = some 3 ∧
      crowded.Routes (.message {}) shuffle ∧ crowded.now.inflow.registry.active = [3, 2, 1, 0] ∧
      History.takers (crowded.begun.moments shuffle) = [3] ∧
      ((crowded.begun.run shuffle).inflow.registry.Gone 1 ∧
        (crowded.begun.run shuffle).inflow.registry.Gone 0) ∧
      History.surfaced (crowded.begun.moments shuffle) = [] := by
  have routes : crowded.Routes (.message {}) shuffle :=
    ⟨by decide +kernel, by decide +kernel, by decide +kernel⟩
  have underway : crowded.Routes (.message {}) (shuffle.take 2) :=
    ⟨by decide +kernel, by decide +kernel, by decide +kernel⟩
  obtain ⟨-, -, -, -, next, -⟩ :=
    crowded.routing_exclusive (.message {}) (shuffle.take 2) underway
  obtain ⟨-, -, misses, -, -, surfaced⟩ := crowded.routing_exclusive (.message {}) shuffle routes
  have gone : ∀ id ∈ [1, 0], (crowded.begun.run shuffle).inflow.registry.Gone id := by
    intro id member
    refine ((misses id ?_ ?_).resolve_left ?_).resolve_left ?_ <;> revert id <;> decide +kernel
  refine ⟨next (.step .reader) (by decide +kernel) (3, .message {}) (by decide +kernel), routes,
    by decide +kernel, by decide +kernel, ⟨gone 1 (by decide), gone 0 (by decide)⟩, ?_⟩
  rw [surfaced]
  decide +kernel

end Course

end StanzaExchange
