import StanzaExchange.Conversation.Inflow
import StanzaExchange.Proofs.Registry

/-!
The inbound half as a state machine. Its moves are the polls of the receiver task and the operations
of everybody else (`Touch`). `Advance` is the inversion of a poll: it lists all that one can do,
with the values it moves (`Flow`), and every fact about a poll is read off it. Only the receiver
task sends on the inbound channel and on delivery channels, and only the others receive from them.
-/
namespace StanzaExchange

/-- The classification of an element, as a function of the element alone; with a decode fault the
body is lost first. -/
def Element.readAs (faults : Faults) (e : Element) : Stanza :=
  match Tag.ofName? e.name with
  | none => .unknown e.name
  | some tag =>
    match if faults.decode then .error (.missingBody e.name) else e.decode tag with
    | .ok stanza => stanza
    | .error error => .malformed tag (e.attr? "id") error.message

namespace Inflow

/-- An operation on the inbound half by the application, a call or the peer. -/
inductive Touch where
  | nothing
  | push (arrival : Arrival)
  | hangUp
  /-- A receive on the inbound channel. -/
  | take
  /-- The inbound receiver is dropped. -/
  | shut
  | add (matcher : Matcher)
  | remove (id : FilterId)
  /-- A receive on a delivery channel. -/
  | takeFrom (id : FilterId)
  /-- The receiver of a delivery channel is dropped. -/
  | drop (id : FilterId)
  /-- The drop guard of a correlation filter, after a receive or without one. -/
  | leave (id : FilterId) (reads : Bool)

def touch (i : Inflow) : Touch → Inflow
  | .nothing => i
  | .push arrival => { i with feed := { i.feed with arrivals := i.feed.arrivals ++ [arrival] } }
  | .hangUp => { i with feed := i.feed.hangUp }
  | .take => { i with inbound := { i.inbound with queue := i.inbound.queue.tail } }
  | .shut => { i with inbound := i.inbound.shut }
  | .add matcher => { i with registry := i.registry.add matcher }
  | .remove id => { i with registry := (i.registry.remove? id).getD i.registry }
  | .takeFrom id =>
    { i with registry := i.registry.modifyChannel id fun c => { c with queue := c.queue.tail } }
  | .drop id => { i with registry := i.registry.modifyChannel id .shut }
  | .leave id _ => { i with registry := i.registry.leave id }

namespace Touch

/-- The arrivals fed. -/
def fed : Touch → List Arrival
  | .push arrival => [arrival]
  | _ => []

/-- The stanzas received from the inbound channel. -/
def received (i : Inflow) : Touch → List Stanza
  | .take => i.inbound.queue.head?.toList
  | _ => []

/-- The stanzas received from a delivery channel. -/
def returned (i : Inflow) (id : FilterId) : Touch → List Stanza
  | .takeFrom other | .leave other true =>
    if id = other then (i.registry.queueOf id).head?.toList else []
  | _ => []

/-- Neither feeds nor receives. -/
def isSilent : Touch → Bool
  | .push _ | .take | .takeFrom _ | .leave _ true => false
  | _ => true

def hangsUp : Touch → Bool
  | .hangUp => true
  | _ => false

def isRemoval : Touch → Bool
  | .remove _ => true
  | _ => false

/-- A silent update shows nothing. -/
theorem silent (touch : Touch) (i : Inflow) (silent : touch.isSilent = true) :
    touch.fed = [] ∧ touch.received i = [] ∧ ∀ id, touch.returned i id = [] := by
  cases touch with
  | leave id reads =>
    cases reads with
    | false => exact ⟨rfl, rfl, fun _ => rfl⟩
    | true => cases silent
  | push | take | takeFrom => cases silent
  | nothing | hangUp | shut | add | remove | drop => exact ⟨rfl, rfl, fun _ => rfl⟩

end Touch

variable {i : Inflow} {faults : Faults} {id : FilterId}

@[simp] theorem reader_touch (t : Touch) : (i.touch t).reader = i.reader := by
  cases t <;> rfl

@[simp] theorem arrivals_touch (t : Touch) :
    (i.touch t).feed.arrivals = i.feed.arrivals ++ t.fed := by
  cases t <;> simp [touch, Touch.fed, Feed.hangUp]

/-- Only `hangUp` closes the feed. -/
theorem feeding_touch (t : Touch) :
    (i.touch t).feed.feeding = (i.feed.feeding && !t.hangsUp) := by
  cases t <;> simp [touch, Touch.hangsUp, Feed.hangUp]

/-- No update changes the matcher of a filter, revives it, or gives it a receiver again. -/
theorem ages_touch (t : Touch) : i.registry.Ages (i.touch t).registry := by
  cases t with
  | add matcher => exact Registry.ages_add matcher
  | remove id =>
    cases removed : i.registry.remove? id with
    | none => simpa [touch, removed] using Registry.Ages.refl i.registry
    | some after => simpa [touch, removed] using Registry.ages_remove removed
  | takeFrom id => exact Registry.ages_modifyChannel fun _ dropped => dropped
  | drop id => exact Registry.ages_modifyChannel fun _ _ => rfl
  | leave id reads => exact Registry.ages_leave
  | nothing | push | hangUp | take | shut => exact .refl i.registry

theorem wellFormed_touch (sound : i.registry.WellFormed) (t : Touch) :
    (i.touch t).registry.WellFormed := by
  cases t with
  | add matcher => exact sound.add matcher
  | remove id =>
    cases removed : i.registry.remove? id with
    | none => simpa [touch, removed] using sound
    | some after => simpa [touch, removed] using sound.remove removed
  | takeFrom id => exact sound.modifyChannel fun c => { c with queue := c.queue.tail }
  | drop id => exact sound.modifyChannel .shut
  | leave id reads => exact sound.leave
  | nothing | push | hangUp | take | shut => exact sound

private theorem head_append_tail {α : Type} (queue : List α) :
    queue = queue.head?.toList ++ queue.tail := by
  cases queue <;> rfl

/-- Other operations receive from the front of the inbound channel; they lose queued stanzas only by
dropping its receiver. -/
theorem inbound_touch (t : Touch) :
    ∃ lost, i.inbound.queue = t.received i ++ (i.touch t).inbound.queue ++ lost ∧
      ((i.touch t).inbound.receiving = true → i.inbound.receiving = true ∧ lost = []) := by
  cases t with
  | take => exact ⟨[], by simpa [touch, Touch.received] using head_append_tail _, by simp [touch]⟩
  | shut => exact ⟨i.inbound.queue, by simp [touch, Touch.received, Channel.shut],
      by simp [touch, Channel.shut]⟩
  | nothing | push | hangUp | add | remove | takeFrom | drop | leave =>
    exact ⟨[], by simp [touch, Touch.received], by simp [touch]⟩

/-- The same for a delivery channel. -/
theorem queueOf_touch (t : Touch) (id : FilterId) :
    ∃ lost, i.registry.queueOf id =
        t.returned i id ++ (i.touch t).registry.queueOf id ++ lost ∧
      ((i.touch t).registry.isReceiving id = true → lost = []) := by
  cases t with
  | add matcher => exact ⟨[], by simp [touch, Touch.returned], by simp⟩
  | remove other =>
    refine ⟨[], ?_, by simp⟩
    cases removed : i.registry.remove? other with
    | none => simp [touch, Touch.returned, removed]
    | some after => simp [touch, Touch.returned, removed, Registry.queueOf_remove removed]
  | takeFrom other =>
    refine ⟨[], ?_, by simp⟩
    by_cases same : id = other
    · subst same
      simpa [touch, Touch.returned] using head_append_tail _
    · simp [touch, Touch.returned, same, Registry.queueOf_modifyChannel_of_ne same]
  | drop other =>
    by_cases same : id = other
    · subst same
      cases found : i.registry.filter? id with
      | none =>
        refine ⟨[], ?_, by simp⟩
        simp [touch, Touch.returned, Registry.queueOf, Registry.filter?_modifyChannel, found]
      | some f =>
        refine ⟨i.registry.queueOf id, ?_, ?_⟩
        · simp [touch, Touch.returned, Registry.queueOf_modifyChannel_self found, Channel.shut]
        · simp [touch, Registry.isReceiving, Registry.filter?_modifyChannel, found, Channel.shut]
    · refine ⟨[], ?_, by simp⟩
      simp [touch, Touch.returned, Registry.queueOf_modifyChannel_of_ne same]
  | leave other reads =>
    by_cases same : id = other
    · subst same
      cases reads with
      | false =>
        exact ⟨i.registry.queueOf id, by simp [touch, Touch.returned],
          by simp [touch]⟩
      | true =>
        refine ⟨(i.registry.queueOf id).tail, ?_, by simp [touch]⟩
        simpa [touch, Touch.returned] using head_append_tail _
    · refine ⟨[], ?_, by simp⟩
      cases reads <;> simp [touch, Touch.returned, same]
  | nothing | push | hangUp | take | shut => exact ⟨[], by simp [touch, Touch.returned], by simp⟩

/-- Whether an operation leaves a delivery channel alone. -/
def Touch.Spares (id : FilterId) : Touch → Prop
  | .takeFrom other | .drop other | .leave other _ => id ≠ other
  | _ => True

theorem Touch.returned_of_spares {t : Touch} (spares : t.Spares id) : t.returned i id = [] := by
  cases t with
  | leave other reads => cases reads <;> simp_all [Touch.Spares, Touch.returned]
  | takeFrom other => simp_all [Touch.Spares, Touch.returned]
  | _ => rfl

@[simp] theorem closed_touch (t : Touch) : (i.touch t).registry.closed = i.registry.closed := by
  have closed : ∀ {r : Registry} {other : FilterId},
      ((r.remove? other).getD r).closed = r.closed := by
    intro r other
    by_cases listed : other ∈ r.entries <;> simp [Registry.remove?, listed]
  cases t with
  | remove other | leave other => exact closed
  | _ => rfl

/-- An update keeps the receivers of the filters that it spares. -/
theorem isReceiving_touch {t : Touch} (spares : t.Spares id) (known : id < i.registry.nextId) :
    (i.touch t).registry.isReceiving id = i.registry.isReceiving id := by
  cases t with
  | add matcher => exact Registry.isReceiving_add matcher (Nat.ne_of_lt known)
  | remove other =>
    cases removed : i.registry.remove? other with
    | none => simp [touch, removed]
    | some after => simp [touch, removed, Registry.isReceiving_remove removed]
  | takeFrom other | drop other => exact Registry.isReceiving_modifyChannel spares _
  | leave other reads =>
    rw [touch, Registry.isReceiving_leave]
    exact if_neg spares
  | nothing | push | hangUp | take | shut => rfl

/-- An update removes no filter that it spares, unless by id. -/
theorem isRemoved_touch {t : Touch} (spares : t.Spares id) (known : id < i.registry.nextId)
    (kept : t ≠ .remove id) :
    (i.touch t).registry.isRemoved id = i.registry.isRemoved id := by
  cases t with
  | add matcher =>
    rw [touch, Registry.isRemoved_add]
    exact if_neg (Nat.ne_of_lt known)
  | remove other =>
    have different : id ≠ other := fun same => kept (same ▸ rfl)
    cases removed : i.registry.remove? other with
    | none => simp [touch, removed]
    | some after => simp [touch, removed, Registry.isRemoved_remove removed, different]
  | takeFrom other | drop other => exact Registry.isRemoved_modifyChannel _
  | leave other reads => exact Registry.isRemoved_leave spares
  | nothing | push | hangUp | take | shut => rfl

/-- A poll of the receiver task, which changes nothing if the task is pending. -/
def advance (faults : Faults) (i : Inflow) : Inflow :=
  if i.reader = .closing then i.tearDown else ((i.step? faults false).map Prod.fst).getD i

/-- The deliveries to one filter. -/
def handsTo (id : FilterId) (hands : List (FilterId × Stanza)) : List Stanza :=
  hands.filterMap fun hand => if hand.1 = id then some hand.2 else none

/-- What one poll reads, delivers to filters and puts on the inbound channel. -/
structure Flow where
  read : List Arrival := []
  handed : List (FilterId × Stanza) := []
  surfaced : List Stanza := []

/-- The effects of one poll of the receiver task. -/
inductive Advance (faults : Faults) (i : Inflow) : Flow → Inflow → Prop
  | waits : Advance faults i {} i
  | reads {element : Element} {feed : Feed} (idle : i.reader = .reading)
      (first : i.feed.arrivals = .element element :: feed.arrivals)
      (feeding : feed.feeding = i.feed.feeding) :
      Advance faults i { read := [.element element] }
        { i with feed, reader := .routing (element.readAs faults) i.registry.snapshot 0 }
  | fails {failure : Failure} {feed : Feed} (idle : i.reader = .reading)
      (first : i.feed.arrivals = .failure failure :: feed.arrivals)
      (feeding : feed.feeding = i.feed.feeding) :
      Advance faults i { read := [.failure failure] } { i with feed, reader := .failing failure }
  | hangsUp (idle : i.reader = .reading) (empty : i.feed.arrivals = [])
      (silent : i.feed.feeding = false) :
      Advance faults i {} { i with reader := .failing .closed }
  | hands {stanza : Stanza} {id : FilterId} {rest : List FilterId} {taken : Nat}
      {registry : Registry} (busy : i.reader = .routing stanza (id :: rest) taken)
      (wanted : i.registry.accepts id stanza = true)
      (put : i.registry.offer id stanza = .accepted registry) :
      Advance faults i { handed := [(id, stanza)] }
        { i with registry, reader := .routing stanza rest (taken + 1) }
  | passes {stanza : Stanza} {id : FilterId} {rest : List FilterId} {taken : Nat}
      (busy : i.reader = .routing stanza (id :: rest) taken)
      (missed : i.registry.accepts id stanza = true → i.registry.Gone id) :
      Advance faults i {} { i with reader := .routing stanza rest taken }
  | surfaces {stanza : Stanza} (busy : i.reader = .routing stanza [] 0) :
      Advance faults i {} { i with reader := .surfacing stanza }
  | ends {stanza : Stanza} {taken : Nat} (busy : i.reader = .routing stanza [] taken)
      (handed : taken ≠ 0) : Advance faults i {} { i with reader := .reading }
  | puts {stanza : Stanza} {inbound : Channel Stanza} (busy : i.reader = .surfacing stanza)
      (put : i.inbound.offer stanza = .accepted inbound) :
      Advance faults i { surfaced := [stanza] } { i with inbound, reader := .reading }
  | loses {stanza : Stanza} (busy : i.reader = .surfacing stanza)
      (unread : i.inbound.receiving = false) : Advance faults i {} { i with reader := .reading }
  | reports {failure : Failure} {inbound : Channel Stanza} (busy : i.reader = .failing failure)
      (put : i.inbound.offer (.failure failure) = .accepted inbound) :
      Advance faults i { surfaced := [.failure failure] } { i with inbound, reader := .closing }
  | conceals {failure : Failure} (busy : i.reader = .failing failure)
      (unread : i.inbound.receiving = false) : Advance faults i {} { i with reader := .closing }
  | closes (busy : i.reader = .closing) : Advance faults i {} i.tearDown

/-- The trace setting affects the events only. -/
theorem step?_fst (trace : Bool) :
    (i.step? faults trace).map Prod.fst = (i.step? faults false).map Prod.fst := by
  cases reader : i.reader with
  | routing stanza rest taken =>
    cases rest with
    | nil => simp [step?, reader]
    | cons id rest => simp [step?, reader]
  | reading | surfacing | failing | closing | closed => simp [step?, reader]

/-- The classification of an element whose body is pending is `Element.readAs`; arrivals and feed
stay. -/
theorem interpret_spec (faults : Faults) {f : Feed} {e : Element} (body : f.body = some e) :
    (interpret faults f e.startTag).1 = e.readAs faults ∧
      (interpret faults f e.startTag).2.1.arrivals = f.arrivals ∧
      (interpret faults f e.startTag).2.1.feeding = f.feeding := by
  unfold interpret Element.readAs
  have name : e.startTag.name = e.name := rfl
  have attr : e.startTag.attr? "id" = e.attr? "id" := rfl
  rw [name, attr]
  cases known : Tag.ofName? e.name with
  | none =>
    cases idle : faults.idleSkip <;> cases skipping : faults.skip <;>
      simp [skipBody, Feed.skip, body, name, idle, skipping]
  | some tag =>
    cases lost : faults.decode with
    | true => simp [Feed.skip, Feed.decode, body, name]
    | false =>
      cases decoded : e.decode tag with
      | ok stanza => simp [Feed.decode, body, name, decoded]
      | error error => simp [Feed.decode, body, name, decoded]

/-- The poll that reads an element starts its routing with the snapshot taken then. -/
theorem step?_reads (faults : Faults) (trace : Bool) {e : Element} {rest : List Arrival}
    (idle : i.reader = .reading) (first : i.feed.arrivals = .element e :: rest) :
    ∃ feed events, i.step? faults trace = some
        ({ i with feed, reader := .routing (e.readAs faults) i.registry.snapshot 0 }, events) ∧
      feed.arrivals = rest ∧ feed.feeding = i.feed.feeding := by
  let opened : Feed := { i.feed with arrivals := rest, body := some e }
  have body : opened.body = some e := rfl
  obtain ⟨stanza, remaining, feeding⟩ := interpret_spec faults body
  refine ⟨(interpret faults opened e.startTag).2.1, (interpret faults opened e.startTag).2.2, ?_,
    remaining, feeding⟩
  rw [← stanza]
  simp only [step?, idle, Feed.next?, first]
  rfl

/-- A poll of a receiver task that reads. -/
private theorem advance_reading (faults : Faults) (idle : i.reader = .reading) :
    ∃ flow, Advance faults i flow (((i.step? faults false).map Prod.fst).getD i) := by
  cases arrivals : i.feed.arrivals with
  | nil =>
    refine ⟨{}, ?_⟩
    cases feeding : i.feed.feeding with
    | true => simpa [step?, idle, Feed.next?, arrivals, feeding] using .waits
    | false =>
      have ended : Advance faults i {} { i with reader := .failing .closed } :=
        .hangsUp idle arrivals feeding
      simpa [step?, idle, Feed.next?, arrivals, feeding] using ended
  | cons arrival rest =>
    cases arrival with
    | failure failure =>
      refine ⟨{ read := [.failure failure] }, ?_⟩
      simp only [step?, idle, Feed.next?, arrivals, Option.map_some, Option.getD_some]
      exact .fails idle arrivals rfl
    | element element =>
      obtain ⟨feed, events, step, remaining, feeding⟩ := step?_reads faults false idle arrivals
      refine ⟨{ read := [.element element] }, ?_⟩
      rw [step, Option.map_some, Option.getD_some]
      apply Advance.reads idle
      · rw [remaining, arrivals]
      · exact feeding

/-- A poll of a receiver task that delivers to the next filter of the snapshot. -/
private theorem advance_routing {stanza : Stanza} {rest : List FilterId} {taken : Nat}
    (faults : Faults) (busy : i.reader = .routing stanza rest taken) :
    ∃ flow, Advance faults i flow (((i.step? faults false).map Prod.fst).getD i) := by
  cases rest with
  | nil =>
    refine ⟨{}, ?_⟩
    by_cases untaken : taken = 0
    · subst untaken
      simpa [step?, busy] using .surfaces busy
    · simpa [step?, busy, untaken] using .ends busy untaken
  | cons id rest =>
    cases wanted : i.registry.accepts id stanza with
    | false => exact ⟨{}, by simpa [step?, busy, wanted] using .passes busy (by simp [wanted])⟩
    | true =>
      cases offer : i.registry.offer id stanza with
      | accepted registry =>
        refine ⟨{ handed := [(id, stanza)] }, ?_⟩
        simpa [step?, busy, wanted, offer] using .hands busy wanted offer
      | refused =>
        have gone := Registry.offer_refused offer
        exact ⟨{}, by simpa [step?, busy, wanted, offer] using .passes busy fun _ => gone⟩
      | full => exact ⟨{}, by simpa [step?, busy, wanted, offer] using .waits⟩

/-- Inversion: every poll is one of the cases of `Advance`. -/
theorem advance_spec (faults : Faults) (i : Inflow) :
    ∃ flow, Advance faults i flow (i.advance faults) := by
  unfold advance
  split
  next busy => exact ⟨{}, .closes busy⟩
  next unfinished =>
    cases reader : i.reader with
    | reading => exact advance_reading faults reader
    | routing stanza rest taken => exact advance_routing faults reader
    | surfacing stanza =>
      cases offer : i.inbound.offer stanza with
      | accepted inbound =>
        exact ⟨{ surfaced := [stanza] }, by simpa [step?, reader, offer] using .puts reader offer⟩
      | refused =>
        have unread := Channel.offerBehind_refused offer
        exact ⟨{}, by simpa [step?, reader, offer] using .loses reader unread⟩
      | full => exact ⟨{}, by simpa [step?, reader, offer] using .waits⟩
    | failing failure =>
      cases offer : i.inbound.offer (.failure failure) with
      | accepted inbound =>
        refine ⟨{ surfaced := [.failure failure] }, ?_⟩
        simpa [step?, reader, offer] using .reports reader offer
      | refused =>
        have unread := Channel.offerBehind_refused offer
        exact ⟨{}, by simpa [step?, reader, offer] using .conceals reader unread⟩
      | full => exact ⟨{}, by simpa [step?, reader, offer] using .waits⟩
    | closing => exact absurd reader unfinished
    | closed => exact ⟨{}, by simpa [step?, reader] using .waits⟩

namespace Advance

variable {flow : Flow} {after : Inflow}

theorem arrivals (step : Advance faults i flow after) :
    i.feed.arrivals = flow.read ++ after.feed.arrivals := by
  cases step with
  | reads idle first feeding | fails idle first feeding => exact first
  | _ => rfl

theorem feeding (step : Advance faults i flow after) :
    after.feed.feeding = i.feed.feeding := by
  cases step with
  | reads idle first feeding | fails idle first feeding => exact feeding
  | _ => rfl

/-- A poll appends to the inbound channel, and only while there is a receiver. -/
theorem inbound (step : Advance faults i flow after) :
    after.inbound.queue = i.inbound.queue ++ flow.surfaced ∧
      after.inbound.receiving = i.inbound.receiving ∧
      (flow.surfaced = [] ∨ i.inbound.receiving = true) := by
  cases step with
  | puts busy put | reports busy put =>
    obtain ⟨reads, -, rfl⟩ := Channel.offerBehind_accepted put
    exact ⟨rfl, rfl, .inr reads⟩
  | _ => exact ⟨(List.append_nil _).symm, rfl, .inl rfl⟩

theorem ages (step : Advance faults i flow after) : i.registry.Ages after.registry := by
  cases step with
  | hands busy wanted put =>
    obtain ⟨f, found, kept, reads, room, rfl⟩ := Registry.offer_accepted put
    exact Registry.ages_modifyChannel fun _ dropped => dropped
  | closes busy => exact Registry.ages_close
  | _ => exact .refl i.registry

theorem wellFormed (step : Advance faults i flow after) (sound : i.registry.WellFormed) :
    after.registry.WellFormed := by
  cases step with
  | hands busy wanted put =>
    obtain ⟨f, found, kept, reads, room, rfl⟩ := Registry.offer_accepted put
    exact sound.modifyChannel fun c => { c with queue := c.queue ++ [_] }
  | closes busy => exact sound.close
  | _ => exact sound

/-- The registry is closed by the last poll only. -/
theorem closed (step : Advance faults i flow after) (unfinished : i.reader ≠ .closing) :
    after.registry.closed = i.registry.closed := by
  cases step with
  | hands busy wanted put =>
    obtain ⟨f, found, kept, reads, room, rfl⟩ := Registry.offer_accepted put
    rfl
  | closes busy => exact absurd busy unfinished
  | _ => rfl

theorem closed_mono (step : Advance faults i flow after) (closed : i.registry.closed = true) :
    after.registry.closed = true := by
  cases step with
  | hands busy wanted put =>
    obtain ⟨f, found, kept, reads, room, rfl⟩ := Registry.offer_accepted put
    exact closed
  | closes busy => rfl
  | _ => exact closed

/-- The registry is closed exactly in the last poll of the receiver task. -/
theorem closed_iff (step : Advance faults i flow after)
    (before : i.registry.closed = true ↔ i.reader = .closed) :
    after.registry.closed = true ↔ after.reader = .closed := by
  have goes : i.reader ≠ .closed → i.registry.closed ≠ true := fun busy closed =>
    busy (before.mp closed)
  cases step with
  | waits => exact before
  | closes busy => exact iff_of_true rfl rfl
  | hands busy wanted put =>
    obtain ⟨f, found, kept, reads, room, rfl⟩ := Registry.offer_accepted put
    exact iff_of_false (goes (by simp [busy])) (nomatch ·)
  | reads busy | fails busy | hangsUp busy | passes busy | surfaces busy | ends busy | puts busy
  | loses busy | reports busy | conceals busy =>
    exact iff_of_false (goes (by simp [busy])) (nomatch ·)

/-- A poll removes filters only by closing the registry. -/
theorem isRemoved (step : Advance faults i flow after) (id : FilterId)
    (removed : after.registry.isRemoved id = true) :
    i.registry.isRemoved id = true ∨ after.registry.closed = true := by
  cases step with
  | hands busy wanted put =>
    obtain ⟨f, found, kept, reads, room, rfl⟩ := Registry.offer_accepted put
    rw [Registry.isRemoved_modifyChannel] at removed
    exact .inl removed
  | closes busy => exact .inr rfl
  | _ => exact .inl removed

/-- A poll appends to the queues of delivery channels. -/
theorem queueOf (step : Advance faults i flow after) (id : FilterId) :
    after.registry.queueOf id = i.registry.queueOf id ++ handsTo id flow.handed := by
  cases step with
  | @hands stanza other rest taken registry busy wanted put =>
    obtain ⟨f, found, kept, reads, room, rfl⟩ := Registry.offer_accepted put
    by_cases same : id = other
    · subst same
      simp [handsTo, Registry.queueOf_modifyChannel_self found, Registry.queueOf_eq found]
    · simp [handsTo, Registry.queueOf_modifyChannel_of_ne same, Ne.symm same]
  | closes busy => simp [tearDown, handsTo]
  | _ => exact (List.append_nil _).symm

/-- The receiver task drops no receiver. -/
theorem isReceiving (step : Advance faults i flow after) (id : FilterId) :
    after.registry.isReceiving id = i.registry.isReceiving id := by
  cases step with
  | hands busy wanted put =>
    obtain ⟨f, found, kept, reads, room, rfl⟩ := Registry.offer_accepted put
    exact Registry.isReceiving_modifyChannel_of_same fun _ => rfl
  | closes busy => exact Registry.isReceiving_close
  | _ => rfl

/-- A poll makes at most one delivery: to a registered filter that accepts the stanza, is not
removed and has a receiver. -/
theorem handed (step : Advance faults i flow after) :
    flow.handed = [] ∨ ∃ id stanza, flow.handed = [(id, stanza)] ∧ id < i.registry.nextId ∧
      i.registry.accepts id stanza = true ∧ i.registry.isReceiving id = true := by
  cases step with
  | @hands stanza id rest taken registry busy wanted put =>
    obtain ⟨f, found, kept, reads, room, rfl⟩ := Registry.offer_accepted put
    have known := Registry.lt_nextId_of_filter? found
    exact .inr ⟨id, stanza, rfl, known, wanted, by rw [Registry.isReceiving_eq found, reads]⟩
  | _ => exact .inl rfl

end Advance

end Inflow

end StanzaExchange
