import Mathlib.Data.List.Count
import Mathlib.Data.List.Nodup
import StanzaExchange.Proofs.OutboundMoves
import StanzaExchange.Proofs.Queries

/-!
The filter events of the journal (section 10.3 of the specification). Every change of the set of
active filters is logged in the same step, and no other step logs such an event: `Books` proves this
of every move. Hence the journal alone determines the number of active filters, as `Ledger` states
of every prefix of it.
-/
namespace StanzaExchange

open Inflow (Touch)

namespace Event

/-- The event is a registration, a removal, or the closing of the receiver task. -/
def tellsFilters : Event → Bool
  | .filterAdded _ _ | .filterAddedLate _ | .filterRemoved _ _ | .readerClosed _ => true
  | _ => false

/-- The id allocated, active or not. -/
def numbered? : Event → Option FilterId
  | .filterAdded id _ | .filterAddedLate id => some id
  | _ => none

/-- The filter that becomes active. -/
def added? : Event → Option FilterId
  | .filterAdded id _ => some id
  | _ => none

/-- The filter that is removed. -/
def removed? : Event → Option FilterId
  | .filterRemoved id _ => some id
  | _ => none

/-- The field `active` of the event. -/
def active? : Event → Option Nat
  | .filterAdded _ active | .filterRemoved _ active => some active
  | _ => none

variable {event : Event}

theorem tellsFilters_of_tellsOut (tells : event.tellsOut = true) : event.tellsFilters = false := by
  cases event <;> first | rfl | cases tells

theorem tellsFilters_of_tellsIn (tells : event.tellsIn = true) : event.tellsFilters = false := by
  cases event <;> first | rfl | cases tells

theorem name_eq_add_iff : event.name = "conversation.filter.add" ↔ event.added?.isSome = true := by
  cases event <;> simp [name, added?]

theorem name_eq_remove_iff :
    event.name = "conversation.filter.remove" ↔ event.removed?.isSome = true := by
  cases event <;> simp [name, removed?]

end Event

/-- The number of registrations in the log. -/
def additions (log : List Event) : Nat := log.countP (·.name = "conversation.filter.add")

/-- The number of removals in the log. -/
def removals (log : List Event) : Nat := log.countP (·.name = "conversation.filter.remove")

theorem additions_concat (log : List Event) (event : Event) :
    additions (log ++ [event]) = additions log + if event.added?.isSome then 1 else 0 := by
  simp only [additions, Event.name_eq_add_iff, List.countP_append, List.countP_singleton,
    Bool.decide_eq_true]

theorem removals_concat (log : List Event) (event : Event) :
    removals (log ++ [event]) = removals log + if event.removed?.isSome then 1 else 0 := by
  simp only [removals, Event.name_eq_remove_iff, List.countP_append, List.countP_singleton,
    Bool.decide_eq_true]

theorem filterMap_concat_of_none {see : Event → Option FilterId} {event : Event}
    (unseen : see event = none) (log : List Event) :
    (log ++ [event]).filterMap see = log.filterMap see := by
  rw [filterMap_concat, unseen]
  exact List.append_nil _

/-- The events logged for a change of the registry. -/
inductive Registry.Enters (r after : Registry) : List Event → Prop
  | nothing (nextId : after.nextId = r.nextId) (active : after.active = r.active)
      (closed : after.closed = r.closed) : Enters r after []
  | adds (opened : r.closed = false) (nextId : after.nextId = r.nextId + 1)
      (active : after.active = r.nextId :: r.active) (closed : after.closed = false) :
      Enters r after [.filterAdded r.nextId after.active.length]
  | addsLate (shut : r.closed = true) (nextId : after.nextId = r.nextId + 1)
      (active : after.active = r.active) (closed : after.closed = true) :
      Enters r after [.filterAddedLate r.nextId]
  | removes {id : FilterId} (known : id ∈ r.active) (nextId : after.nextId = r.nextId)
      (active : after.active = r.active.erase id) (closed : after.closed = r.closed) :
      Enters r after [.filterRemoved id after.active.length]
  | closes (opened : r.closed = false) (nextId : after.nextId = r.nextId)
      (active : after.active = []) (closed : after.closed = true) :
      Enters r after [.readerClosed r.active.length]

namespace Registry

variable {r after : Registry} {id : FilterId}

theorem WellFormed.open_of_mem (sound : r.WellFormed) (known : id ∈ r.active) :
    r.closed = false := by
  refine Bool.eq_false_iff.mpr fun closed => ?_
  rw [sound.closed closed] at known
  cases known

/-- `add` logs its registration, with the size or as late. -/
theorem enters_add (r : Registry) (matcher : Matcher) :
    r.Enters (r.add matcher) [r.addEvent] := by
  cases shut : r.closed with
  | true =>
    rw [show r.addEvent = .filterAddedLate r.nextId by simp [addEvent, shut]]
    exact .addsLate shut (nextId_add matcher) (by simp [add, shut]) shut
  | false =>
    have active : (r.add matcher).active = r.nextId :: r.active := by simp [add, shut]
    rw [show r.addEvent = .filterAdded r.nextId (r.add matcher).active.length by
      simp [addEvent, shut, active]]
    exact .adds shut (nextId_add matcher) active shut

theorem enters_remove (sound : r.WellFormed) (removed : r.remove? id = some after) :
    r.Enters after [after.removeEvent id] := by
  have known : id ∈ r.active := by
    refine sound.entries.mem_iff.mp ?_
    by_contra absent
    simp [remove?, absent] at removed
  have same := eq_of_remove? removed
  exact .removes known (by simp [same, nextId]) (by rw [same]) (by rw [same])

/-- Only ids, active filters and the closed flag matter. -/
theorem Enters.congr {earlier later : Registry} {events : List Event}
    (enters : r.Enters after events)
    (before : earlier.nextId = r.nextId ∧ earlier.active = r.active ∧ earlier.closed = r.closed)
    (behind : later.nextId = after.nextId ∧ later.active = after.active ∧
      later.closed = after.closed) : earlier.Enters later events := by
  obtain ⟨numbers, actives, opens⟩ := before
  obtain ⟨numbersThen, activesThen, opensThen⟩ := behind
  cases enters with
  | nothing => constructor <;> simp_all
  | adds => rw [← numbers, ← activesThen]; constructor <;> simp_all
  | addsLate => rw [← numbers]; constructor <;> simp_all
  | removes => rw [← activesThen]; constructor <;> simp_all
  | closes => rw [← actives]; constructor <;> simp_all

theorem same_modifyChannel (r : Registry) (id : FilterId)
    (change : Channel Stanza → Channel Stanza) :
    (r.modifyChannel id change).nextId = r.nextId ∧
      (r.modifyChannel id change).active = r.active ∧
      (r.modifyChannel id change).closed = r.closed :=
  ⟨by simp [Registry.modifyChannel, Registry.nextId], rfl, rfl⟩

theorem Enters.refl (r : Registry) : r.Enters r [] := .nothing rfl rfl rfl

end Registry

/-- The receiver task changes no registration before teardown. -/
theorem Inflow.registry_step? {faults : Faults} {trace : Bool} {i after : Inflow}
    {events : List Event} (step : i.step? faults trace = some (after, events)) :
    after.registry.nextId = i.registry.nextId ∧ after.registry.active = i.registry.active ∧
      after.registry.closed = i.registry.closed := by
  unfold step? at step
  split at step
  · split at step <;> cases step <;> exact ⟨rfl, rfl, rfl⟩
  · cases step
    exact ⟨rfl, rfl, rfl⟩
  next stanza id rest taken routing =>
    split at step
    · split at step
      next registry put =>
        cases step
        obtain ⟨f, -, -, -, -, rfl⟩ := Registry.offer_accepted put
        exact i.registry.same_modifyChannel id _
      all_goals cases step
      exact ⟨rfl, rfl, rfl⟩
    · cases step
      exact ⟨rfl, rfl, rfl⟩
  · split at step <;> cases step <;> exact ⟨rfl, rfl, rfl⟩
  · split at step <;> cases step <;> exact ⟨rfl, rfl, rfl⟩
  · cases step
  · cases step

namespace Conversation

variable {c after : Conversation} {n : Nat} {call : Call} {work : Work}

/-- The journal, oldest event first. -/
def log (c : Conversation) : List Event := (c.journal.map Report.event).reverse

@[simp] theorem log_report (reporter : Reporter) (events : List Event) :
    (c.report reporter events).log = c.log ++ events := by
  simp [log, journal_report, Function.comp_def]

/-- A step that changes no registration and logs no filter event. -/
structure Aside (c after : Conversation) : Prop where
  registry : after.inflow.registry = c.inflow.registry
  told : ∃ events, after.log = c.log ++ events ∧ ∀ event ∈ events, event.tellsFilters = false

theorem Aside.silent (registry : after.inflow.registry = c.inflow.registry)
    (log : after.log = c.log) : c.Aside after :=
  ⟨registry, [], log.trans (List.append_nil _).symm, by simp⟩

theorem Aside.report {event : Event} (registry : after.inflow.registry = c.inflow.registry)
    (log : after.log = c.log ++ [event]) (other : event.tellsFilters = false) : c.Aside after :=
  ⟨registry, [event], log, by simpa using other⟩

/-- The step logs its changes of the registrations. -/
def Books (c after : Conversation) : Prop :=
  ∃ events, after.log = c.log ++ events ∧
    c.inflow.registry.Enters after.inflow.registry (events.filter Event.tellsFilters)

theorem Aside.books (aside : c.Aside after) : c.Books after := by
  obtain ⟨registry, events, log, others⟩ := aside
  have silent : events.filter Event.tellsFilters = [] :=
    List.filter_eq_nil_iff.mpr fun event member => by simp [others event member]
  exact ⟨events, log, by rw [registry, silent]; exact .refl _⟩

theorem Books.refl (c : Conversation) : c.Books c := (Aside.silent rfl rfl).books

/-- A step beside the registry keeps the books. -/
theorem Books.later {last : Conversation} (books : c.Books after) (aside : after.Aside last) :
    c.Books last := by
  obtain ⟨events, told, enters⟩ := books
  obtain ⟨registry, more, log, others⟩ := aside
  have silent : more.filter Event.tellsFilters = [] :=
    List.filter_eq_nil_iff.mpr fun event member => by simp [others event member]
  refine ⟨events ++ more, by rw [log, told, List.append_assoc], ?_⟩
  rw [registry, List.filter_append, silent, List.append_nil]
  exact enters

theorem books_addFilter (c : Conversation) (matcher : Matcher) :
    c.Books (c.addFilter matcher) := by
  have tells : c.inflow.registry.addEvent.tellsFilters = true := by
    unfold Registry.addEvent
    split <;> rfl
  refine ⟨_, log_report _ _, ?_⟩
  rw [List.filter_cons_of_pos tells]
  exact Registry.enters_add c.inflow.registry matcher

theorem books_removeFilter? (sound : c.inflow.registry.WellFormed) {id : FilterId}
    (removed : c.removeFilter? id = some after) : c.Books after := by
  obtain ⟨registry, found, rfl⟩ := Option.map_eq_some_iff.mp removed
  exact ⟨_, log_report _ _, Registry.enters_remove sound found⟩

theorem books_leaveFilter (sound : c.inflow.registry.WellFormed) (id : FilterId) :
    c.Books (c.leaveFilter id) := by
  have books : c.Books ((c.removeFilter? id).getD c) := by
    cases removed : c.removeFilter? id with
    | none => exact .refl c
    | some after => exact books_removeFilter? sound removed
  obtain ⟨events, told, enters⟩ := books
  exact ⟨events, told, enters.congr ⟨rfl, rfl, rfl⟩ (Registry.same_modifyChannel _ id .shut)⟩

theorem books_endQuery (sound : c.inflow.registry.WellFormed) (query : Query) (work : Work) :
    c.Books (c.endQuery n query work) :=
  (books_leaveFilter (c := c.withdraw n) sound query.filter).later (.silent rfl rfl)

theorem books_abandon (sound : c.inflow.registry.WellFormed) (work : Work) :
    c.Books (c.abandon n work) := by
  cases work with
  | queryOffering query | queryWaiting query | queryAwaiting query =>
    exact books_endQuery sound query _
  | _ => exact (Aside.silent rfl rfl).books

theorem aside_finishOwn (c : Conversation) : c.Aside c.finishOwn := by
  unfold finishOwn
  split
  · exact .report rfl (log_report _ _) rfl
  · exact .silent rfl rfl

/-- Every poll of a call logs the change of its correlation filter. -/
theorem WorkStep.books (sound : c.inflow.registry.WellFormed) {sender : Bool}
    (step : WorkStep c n sender work after) : c.Books after := by
  cases step with
  | @registers iq limit =>
    exact (c.books_addFilter (.replyTo iq.id)).later (.report rfl (log_report _ _) rfl)
  | refused | deserted => exact books_endQuery sound _ _
  | @answered query stanza registry read =>
    obtain ⟨-, tail⟩ := Registry.read_taken read
    have same := c.inflow.registry.same_modifyChannel query.filter
      fun channel => { channel with queue := channel.queue.tail }
    rw [← tail] at same
    have kept : registry.WellFormed := tail ▸ sound.modifyChannel _
    obtain ⟨events, told, enters⟩ := books_endQuery (c := c.setRegistry registry) (n := n) kept
      query (.done (.ofReply (some stanza)))
    obtain ⟨nextId, active, closed⟩ := same
    exact ⟨events, told, enters.congr ⟨nextId.symm, active.symm, closed.symm⟩ ⟨rfl, rfl, rfl⟩⟩
  | finishes => exact c.aside_finishOwn.books.later (.silent rfl rfl)
  | joins =>
    have aside : c.Aside (c.report .application [.joined c.jid]) :=
      .report rfl (log_report _ _) rfl
    exact aside.books.later (.silent rfl rfl)
  | _ => exact (Aside.silent rfl rfl).books

theorem books_callStep? (sound : c.inflow.registry.WellFormed)
    (step : c.callStep? n = some after) : c.Books after := by
  obtain ⟨call, -, ⟨-, rfl⟩ | ⟨-, further⟩⟩ := callStep?_spec step
  · exact books_abandon sound call.work
  · exact further.books sound

theorem books_timerStep? (sound : c.inflow.registry.WellFormed)
    (step : c.timerStep? n = some after) : c.Books after := by
  obtain ⟨call, query, deadline, -, -, -, -, -, rfl⟩ := timerStep?_spec step
  exact books_endQuery sound query _

theorem aside_close (c : Conversation) (origin : Reporter) : c.Aside (c.close origin).2 := by
  have closed : (c.close origin).2 =
      ({ c with outflow := (c.outflow.close c.faults origin).2.1 } : Conversation).report origin
        (c.outflow.close c.faults origin).2.2 := rfl
  refine ⟨rfl, _, by rw [closed]; exact log_report _ _, fun event member => ?_⟩
  have tells := event.tellsOut_of_tellsEnd (Outflow.tellsEnd_close event member)
  exact Event.tellsFilters_of_tellsOut tells

theorem aside_writerStep? (step : c.writerStep? = some after) : c.Aside after := by
  obtain ⟨⟨outflow, events⟩, wrote, rfl⟩ := Option.map_eq_some_iff.mp step
  refine ⟨rfl, events, log_report _ _, fun event member => ?_⟩
  exact Event.tellsFilters_of_tellsOut ((Outflow.step?_advance wrote).tellsOut event member)

/-- The last poll of the receiver task logs the number of remaining filters. -/
theorem books_readerStep? (sound : c.inflow.registry.WellFormed)
    (opened : c.inflow.registry.closed = false) (step : c.readerStep? = some after) :
    c.Books after := by
  unfold readerStep? at step
  split at step
  next closing =>
    obtain rfl := Option.some.inj step
    have closes : c.inflow.registry.Enters c.inflow.registry.close
        [.readerClosed c.inflow.registry.active.length] :=
      .closes opened (by simp [Registry.nextId, Registry.close]) rfl rfl
    rw [← sound.entries.length_eq] at closes
    obtain ⟨-, events, told, others⟩ := c.aside_close .reader
    refine ⟨events ++ [.readerClosed c.inflow.registry.entries.length], ?_, ?_⟩
    · rw [log_report]
      exact (congrArg (· ++ _) told).trans (List.append_assoc _ _ _)
    · have silent : events.filter Event.tellsFilters = [] :=
        List.filter_eq_nil_iff.mpr fun event member => by simp [others event member]
      rw [List.filter_append, silent]
      exact closes
  · obtain ⟨⟨inflow, events⟩, read, rfl⟩ := Option.map_eq_some_iff.mp step
    have silent : events.filter Event.tellsFilters = [] := by
      refine List.filter_eq_nil_iff.mpr fun event member => ?_
      simp [Event.tellsFilters_of_tellsIn (Inflow.tellsIn_step? read event member)]
    obtain ⟨nextId, active, closed⟩ := Inflow.registry_step? read
    exact ⟨events, log_report _ _, by rw [silent]; exact .nothing nextId active closed⟩

private theorem books_reaching {via : Via} {result : Answer × Conversation}
    (books : c.Books result.2) : c.Books (c.reaching via result).2 :=
  reaching_keeps (P := c.Books) (.refl c) fun _ => books

private theorem books_ofPeer {result : Answer × Conversation} (aside : c.Aside result.2) :
    c.Books (c.ofPeer result).2 :=
  ofPeer_keeps (P := c.Books) (.refl c) aside.books

private theorem books_ofReceiver {id : FilterId} {result : Answer × Conversation}
    (books : c.Books result.2) : c.Books (c.ofReceiver id result).2 :=
  ofReceiver_keeps (P := c.Books) (.refl c) books

theorem books_modifyChannel (c : Conversation) (id : FilterId)
    (change : Channel Stanza → Channel Stanza) :
    c.Books (c.setRegistry (c.inflow.registry.modifyChannel id change)) := by
  obtain ⟨nextId, active, closed⟩ := c.inflow.registry.same_modifyChannel id change
  exact ⟨[], (List.append_nil _).symm, .nothing nextId active closed⟩

/-- Every action logs its change of the registrations. The cases follow the actions. -/
theorem books_act (sound : c.inflow.registry.WellFormed) (action : Action) :
    c.Books (c.act action).2 := by
  cases action with
  | push arrival =>
    apply books_ofPeer
    unfold push
    split <;> exact .silent rfl rfl
  | hangUp | dropPeer | takeWrites => exact books_ofPeer (.silent rfl rfl)
  | takeWrite =>
    apply books_ofPeer
    unfold takeWrite
    split <;> exact .silent rfl rfl
  | receive =>
    apply books_reaching
    unfold receive
    cases c.inflow.inbound.read (c.inflow.reader = .closed) <;>
      exact (Aside.silent rfl rfl).books
  | receiveFrom id =>
    apply books_ofReceiver
    unfold receiveFrom
    cases read : c.inflow.registry.read id with
    | taken stanza registry =>
      obtain ⟨-, rfl⟩ := Registry.read_taken read
      exact c.books_modifyChannel id _
    | empty | ended => exact .refl c
  | dropReceiver id => exact books_ofReceiver (c.books_modifyChannel id .shut)
  | setJid jid =>
    have aside : c.Aside ({ c with jid }.report .application [.renamed c.jid jid]) :=
      .report rfl (log_report _ _) rfl
    exact books_reaching aside.books
  | finish => exact books_reaching c.aside_finishOwn.books
  | handle =>
    apply books_reaching
    split <;> exact (Aside.silent rfl rfl).books
  | cloneHandle | dropHandle | send | query | join | dropOwn =>
    exact books_reaching (Aside.silent rfl rfl).books
  | drop n =>
    rw [act]
    split
    next call here => exact books_abandon sound call.work
    · exact .refl c
  | addFilter via matcher => exact books_reaching (c.books_addFilter matcher)
  | removeFilter via id =>
    apply books_reaching
    cases removed : c.removeFilter? id with
    | none => exact .refl c
    | some after => exact books_removeFilter? sound removed
  | close via => exact books_reaching (c.aside_close .application).books
  | stall | abort | advance => exact (Aside.silent rfl rfl).books

end Conversation

/-- Every move logs its changes of the registrations, and no others. -/
theorem Course.books (k : Course) (move : Move) : k.now.Books (k.now.move move) := by
  have keeps : ∀ stepped : Option Conversation,
      (∀ after, stepped = some after → k.now.Books after) →
        k.now.Books (stepped.getD k.now) := by
    rintro (none | after) books
    · exact .refl k.now
    · exact books after rfl
  cases move with
  | outside action => exact Conversation.books_act k.wellFormed action
  | step agent =>
    refine keeps _ fun after step => ?_
    cases agent with
    | writer => exact (Conversation.aside_writerStep? step).books
    | reader =>
      have opened : k.now.inflow.registry.closed = false := by
        refine Bool.eq_false_iff.mpr fun closed => ?_
        have ended := k.closed_iff.mp closed
        simp [Conversation.step?, Conversation.readerStep?, Inflow.step?, ended] at step
      exact Conversation.books_readerStep? k.wellFormed opened step
    | call n => exact Conversation.books_callStep? k.wellFormed step
    | timer n => exact Conversation.books_timerStep? k.wellFormed step

/-- At most one filter event per move. -/
theorem Registry.Enters.length_le {r after : Registry} {events : List Event}
    (enters : r.Enters after events) : events.length ≤ 1 := by
  cases enters <;> simp

/-- A filter event logged in a step is the only one of that step. -/
theorem Registry.Enters.alone {r after : Registry} {early late : List Event} {event : Event}
    (enters : r.Enters after ((early ++ event :: late).filter Event.tellsFilters))
    (tells : event.tellsFilters = true) :
    r.Enters after [event] ∧ early.filter Event.tellsFilters = [] := by
  rw [List.filter_append, List.filter_cons_of_pos tells] at enters
  have few := enters.length_le
  rw [List.length_append, List.length_cons] at few
  have before : early.filter Event.tellsFilters = [] := List.eq_nil_of_length_eq_zero (by omega)
  have behind : late.filter Event.tellsFilters = [] := List.eq_nil_of_length_eq_zero (by omega)
  rw [before, behind] at enters
  exact ⟨enters, before⟩

/-- A filter event of the log stems from one move; what that move logged before it is no filter
event. -/
theorem Course.exists_entry (k : Course) {before after : List Event} {event : Event}
    (split : k.now.log = before ++ event :: after) (tells : event.tellsFilters = true) :
    ∃ (j : Course) (move : Move) (more : List Move) (early late : List Event),
      k = j.andThen (move :: more) ∧ before = j.now.log ++ early ∧
        (j.now.move move).log = before ++ event :: late ∧
        early.filter Event.tellsFilters = [] ∧
        j.now.inflow.registry.Enters (j.now.move move).inflow.registry [event] := by
  obtain ⟨jid, settings, faults, moves⟩ := k
  induction moves using List.reverseRecOn generalizing after with
  | nil =>
    have first : [Event.started jid] = before ++ event :: after := split
    have member : event ∈ [Event.started jid] := first ▸ by simp
    rw [List.mem_singleton.mp member] at tells
    cases tells
  | append_singleton moves move ih =>
    let j : Course := ⟨jid, settings, faults, moves⟩
    obtain ⟨events, told, enters⟩ := j.books move
    have last : ∀ early late, before = j.now.log ++ early → events = early ++ event :: late →
        ∃ (i : Course) (move' : Move) (more : List Move) (early late : List Event),
          j.andThen [move] = i.andThen (move' :: more) ∧ before = i.now.log ++ early ∧
            (i.now.move move').log = before ++ event :: late ∧
            early.filter Event.tellsFilters = [] ∧
            i.now.inflow.registry.Enters (i.now.move move').inflow.registry [event] := by
      rintro early late here rfl
      obtain ⟨alone, silent⟩ := enters.alone tells
      exact ⟨j, move, [], early, late, rfl, here, by rw [told, here, List.append_assoc], silent,
        alone⟩
    have now : (j.andThen [move]).now.log = before ++ event :: after := split
    rw [Course.now_move, told] at now
    obtain ⟨early, here, there⟩ | ⟨rest, there, here⟩ := List.append_eq_append_iff.mp now
    · exact last early after here there
    · cases rest with
      | nil => exact last [] after (by simpa using there.symm) here.symm
      | cons first others =>
        obtain ⟨rfl, -⟩ := List.cons.inj here
        obtain ⟨i, move', more, early, late, rfl', found⟩ := ih there
        refine ⟨i, move', more ++ [move], early, late, ?_, found⟩
        have longer : j = i.andThen (move' :: more) := rfl'
        change j.andThen [move] = _
        rw [longer]
        exact (i.andThen_concat (move' :: more) move).symm

namespace Event

variable {event : Event} {id : FilterId} {active : Nat}

theorem tellsFilters_of_numbered (numbered : event.numbered? = some id) :
    event.tellsFilters = true := by
  cases event <;> first | rfl | cases numbered

theorem tellsFilters_of_removed (removed : event.removed? = some id) :
    event.tellsFilters = true := by
  cases event <;> first | rfl | cases removed

theorem mem_fields_active {text : String} : ("active", text) ∈ event.fields ↔
    ∃ active, event.active? = some active ∧ text = active.repr := by
  cases event <;> simp [fields, active?]

theorem mem_fields_orphans {text : String} : ("orphaned_filters", text) ∈ event.fields ↔
    ∃ orphans, event = .readerClosed orphans ∧ text = orphans.repr := by
  cases event <;> simp [fields]

end Event

/-- The invariant between the log and the registry. -/
structure Ledger (log : List Event) (r : Registry) : Prop where
  numbers : log.filterMap Event.numbered? = List.range r.nextId
  entered : ∀ id ∈ r.active, ∃ event ∈ log, event.added? = some id
  struck : ∀ id ∈ log.filterMap Event.removed?, id < r.nextId ∧ id ∉ r.active
  once : (log.filterMap Event.removed?).Nodup
  balance : r.closed = false → r.active.length + removals log = additions log
  ended : ∀ orphans, .readerClosed orphans ∈ log → r.closed = true

/-- The field `active` of an event is the size of the registry after its move, which is open before.
-/
theorem Registry.Enters.told {r after : Registry} {event : Event} {active : Nat}
    (sound : r.WellFormed) (enters : r.Enters after [event]) (tells : event.active? = some active) :
    after.closed = false ∧ after.size = active := by
  cases enters with
  | adds opened nextId actives closed => exact ⟨closed, Option.some.inj tells⟩
  | removes known nextId actives closed =>
    exact ⟨closed.trans (sound.open_of_mem known), Option.some.inj tells⟩
  | addsLate | closes => cases tells

namespace Ledger

variable {log events : List Event} {r after : Registry}

theorem unended (ledger : Ledger log r) (opened : r.closed = false) (orphans : Nat) :
    .readerClosed orphans ∉ log := fun told =>
  Bool.false_ne_true (opened.symm.trans (ledger.ended orphans told))

/-- The invariant is preserved. -/
theorem concat (ledger : Ledger log r) (sound : r.WellFormed) (enters : r.Enters after events) :
    Ledger (log ++ events) after := by
  cases enters with
  | nothing nextId active closed =>
    rw [List.append_nil]
    exact ⟨nextId ▸ ledger.numbers, active ▸ ledger.entered, nextId ▸ active ▸ ledger.struck,
      ledger.once, by rw [active, closed]; exact ledger.balance, closed ▸ ledger.ended⟩
  | adds opened nextId active closed =>
    refine ⟨?_, fun id known => ?_, fun id gone => ?_, ?_, fun _ => ?_, fun orphans told => ?_⟩
    · rw [nextId, List.range_succ, ← ledger.numbers, List.filterMap_append]
      rfl
    · rw [active] at known
      rcases List.mem_cons.mp known with rfl | older
      · exact ⟨_, List.mem_append_right _ (List.mem_singleton_self _), rfl⟩
      · obtain ⟨event, member, added⟩ := ledger.entered id older
        exact ⟨event, List.mem_append_left _ member, added⟩
    · rw [filterMap_concat_of_none rfl] at gone
      obtain ⟨below, inactive⟩ := ledger.struck id gone
      rw [nextId, active, List.mem_cons, not_or]
      exact ⟨Nat.lt_succ_of_lt below, Nat.ne_of_lt below, inactive⟩
    · rw [filterMap_concat_of_none rfl]
      exact ledger.once
    · rw [additions_concat, removals_concat, active]
      have before := ledger.balance opened
      simp only [Event.added?, Event.removed?, Option.isSome, List.length_cons]
      grind
    · have earlier : .readerClosed orphans ∈ log := by simpa using told
      exact absurd earlier (ledger.unended opened orphans)
  | addsLate shut nextId active closed =>
    refine ⟨?_, fun id known => ?_, fun id gone => ?_, ?_, fun opened => ?_, fun _ _ => closed⟩
    · rw [nextId, List.range_succ, ← ledger.numbers, List.filterMap_append]
      rfl
    · obtain ⟨event, member, added⟩ := ledger.entered id (active ▸ known)
      exact ⟨event, List.mem_append_left _ member, added⟩
    · rw [filterMap_concat_of_none rfl] at gone
      obtain ⟨below, inactive⟩ := ledger.struck id gone
      exact ⟨nextId ▸ Nat.lt_succ_of_lt below, active ▸ inactive⟩
    · rw [filterMap_concat_of_none rfl]
      exact ledger.once
    · cases closed.symm.trans opened
  | @removes id known nextId active closed =>
    have opened : r.closed = false := sound.open_of_mem known
    refine ⟨?_, fun other kept => ?_, fun other gone => ?_, ?_, fun _ => ?_, fun orphans told => ?_⟩
    · rw [nextId, filterMap_concat_of_none rfl]
      exact ledger.numbers
    · obtain ⟨event, member, added⟩ :=
        ledger.entered other (List.mem_of_mem_erase (active ▸ kept))
      exact ⟨event, List.mem_append_left _ member, added⟩
    · rw [nextId, active]
      rw [List.filterMap_append, List.mem_append] at gone
      rcases gone with earlier | last
      · obtain ⟨below, inactive⟩ := ledger.struck other earlier
        exact ⟨below, fun kept => inactive (List.mem_of_mem_erase kept)⟩
      · obtain rfl : other = id := List.mem_singleton.mp last
        exact ⟨sound.lt_nextId known, sound.nodup_active.not_mem_erase⟩
    · rw [List.filterMap_append]
      refine List.nodup_append.mpr ⟨ledger.once, List.pairwise_singleton _ id, ?_⟩
      rintro other earlier _ last rfl
      obtain rfl : other = id := List.mem_singleton.mp last
      exact (ledger.struck other earlier).2 known
    · rw [additions_concat, removals_concat, active, List.length_erase_of_mem known]
      have before := ledger.balance opened
      have some := List.length_pos_of_mem known
      simp only [Event.added?, Event.removed?, Option.isSome]
      grind
    · have earlier : .readerClosed orphans ∈ log := by simpa using told
      exact absurd earlier (ledger.unended opened orphans)
  | closes opened nextId active closed =>
    refine ⟨?_, fun id known => ?_, fun id gone => ?_, ?_, fun opened => ?_, fun _ _ => closed⟩
    · rw [nextId, filterMap_concat_of_none rfl]
      exact ledger.numbers
    · rw [active] at known
      cases known
    · rw [filterMap_concat_of_none rfl] at gone
      obtain ⟨below, -⟩ := ledger.struck id gone
      rw [nextId, active]
      exact ⟨below, List.not_mem_nil⟩
    · rw [filterMap_concat_of_none rfl]
      exact ledger.once
    · cases closed.symm.trans opened

end Ledger

/-- Filter events are found among themselves. -/
theorem filterMap_entries {see : Event → Option FilterId}
    (told : ∀ event id, see event = some id → event.tellsFilters = true) (log : List Event) :
    (log.filter Event.tellsFilters).filterMap see = log.filterMap see := by
  rw [List.filterMap_filter]
  congr 1
  funext event
  cases tells : event.tellsFilters with
  | true => rfl
  | false =>
    cases seen : see event with
    | none => rfl
    | some id => exact absurd (told event id seen) (by simp [tells])

theorem additions_entries (log : List Event) :
    additions (log.filter Event.tellsFilters) = additions log := by
  rw [additions, List.countP_filter, additions]
  refine List.countP_congr fun event _ => ?_
  simp only [Event.name_eq_add_iff]
  cases event <;> simp [Event.added?, Event.tellsFilters]

theorem removals_entries (log : List Event) :
    removals (log.filter Event.tellsFilters) = removals log := by
  rw [removals, List.countP_filter, removals]
  refine List.countP_congr fun event _ => ?_
  simp only [Event.name_eq_remove_iff]
  cases event <;> simp [Event.removed?, Event.tellsFilters]

namespace Course

variable {before after : List Event} {event : Event}

/-- The ledger holds in every reachable state. -/
theorem ledger (k : Course) :
    Ledger (k.now.log.filter Event.tellsFilters) k.now.inflow.registry := by
  refine k.induction (P := fun _ now =>
    Ledger (now.log.filter Event.tellsFilters) now.inflow.registry) ?_ fun moves move ledger => ?_
  · exact ⟨rfl, fun id => (nomatch ·), fun id => (nomatch ·), List.nodup_nil, fun _ => rfl,
      fun _ => (nomatch ·)⟩
  · let j : Course := { k with moves }
    obtain ⟨events, told, enters⟩ := j.books move
    have grown : (j.now.move move).log = j.now.log ++ events := told
    rw [grown, List.filter_append]
    exact ledger.concat j.wellFormed enters

/-- The move that logged a filter event, with the invariant before it. -/
theorem exists_moment (k : Course) (split : k.now.log = before ++ event :: after)
    (tells : event.tellsFilters = true) :
    ∃ (j : Course) (move : Move) (more : List Move), k = j.andThen (move :: more) ∧
      j.now.log <+: before ∧ before ++ [event] <+: (j.now.move move).log ∧
      j.now.inflow.registry.Enters (j.now.move move).inflow.registry [event] ∧
      Ledger (before.filter Event.tellsFilters) j.now.inflow.registry := by
  obtain ⟨j, move, more, early, late, rfl, here, told, silent, enters⟩ := k.exists_entry split tells
  refine ⟨j, move, more, rfl, ⟨early, here.symm⟩, ⟨late, by rw [told]; simp⟩, enters, ?_⟩
  rw [here, List.filter_append, silent, List.append_nil]
  exact j.ledger

/-- After the closing of the receiver task no registration and no removal is logged. -/
theorem nothing_entered (k : Course) {orphans : Nat}
    (split : k.now.log = before ++ .readerClosed orphans :: after) :
    ∀ event ∈ after, event.added? = none ∧ event.removed? = none := by
  intro event member
  obtain ⟨early, late, rfl⟩ := List.append_of_mem member
  have later : k.now.log = (before ++ .readerClosed orphans :: early) ++ event :: late := by
    rw [split]
    simp
  cases tells : event.tellsFilters with
  | false => cases event <;> first | exact ⟨rfl, rfl⟩ | cases tells
  | true =>
    obtain ⟨j, move, more, rfl, -, -, enters, ledger⟩ := k.exists_moment later tells
    have closed : j.now.inflow.registry.closed = true :=
      ledger.ended orphans (by simp [Event.tellsFilters])
    cases enters with
    | adds opened => exact absurd (closed.symm.trans opened) (by decide)
    | removes known =>
      exact absurd (closed.symm.trans (j.wellFormed.open_of_mem known)) (by decide)
    | addsLate | closes => exact ⟨rfl, rfl⟩

/-- The filter events are an exact ledger. Every allocated id has exactly one registration event,
possibly as registered after close, and at most one removal event, behind its registration. Every
field `active` is the size of the registry after the move that logged it, and the number of
registrations less removals up to it; the field `orphaned_filters` is the number of registrations
less removals before it, and after it none is logged. -/
theorem filters_accounted (k : Course) :
    (∀ id, k.now.log.countP (·.numbered? == some id) =
      if id < k.now.inflow.registry.nextId then 1 else 0) ∧
    (∀ id, k.now.log.countP (·.removed? == some id) ≤ 1) ∧
    ∀ before event after, k.now.log = before ++ event :: after →
      (∀ id, event.removed? = some id → ∃ earlier ∈ before, earlier.added? = some id) ∧
      (∀ text, ("active", text) ∈ event.fields →
        ∃ (j : Course) (move : Move) (more : List Move) (active : Nat),
          k = j.andThen (move :: more) ∧ j.now.log <+: before ∧
            before ++ [event] <+: (j.now.move move).log ∧ text = active.repr ∧
            (j.now.move move).inflow.registry.size = active ∧
            active + removals (before ++ [event]) = additions (before ++ [event])) ∧
      (∀ text, ("orphaned_filters", text) ∈ event.fields →
        ∃ orphans, event = .readerClosed orphans ∧ text = orphans.repr ∧
          orphans + removals before = additions before ∧
          additions after = 0 ∧ removals after = 0) := by
  have numbers : k.now.log.filterMap Event.numbered? = List.range k.now.inflow.registry.nextId := by
    rw [← filterMap_entries fun _ _ => Event.tellsFilters_of_numbered]
    exact k.ledger.numbers
  have once : (k.now.log.filterMap Event.removed?).Nodup := by
    rw [← filterMap_entries fun _ _ => Event.tellsFilters_of_removed]
    exact k.ledger.once
  refine ⟨fun id => ?_, fun id => ?_, fun before event after split =>
    ⟨fun id removed => ?_, fun text told => ?_, fun text told => ?_⟩⟩
  · have count := List.nodup_range.count (a := id) (l := List.range k.now.inflow.registry.nextId)
    rw [← numbers, List.count_filterMap] at count
    simpa [numbers] using count
  · have count := List.nodup_iff_count_le_one.mp once id
    rw [List.count_filterMap] at count
    exact count
  · obtain ⟨j, move, more, rfl, begun, done, enters, ledger⟩ :=
      k.exists_moment split (Event.tellsFilters_of_removed removed)
    cases enters with
    | removes known =>
      obtain rfl := Option.some.inj removed
      obtain ⟨earlier, member, added⟩ := ledger.entered _ known
      exact ⟨earlier, (List.mem_filter.mp member).1, added⟩
    | adds | addsLate | closes => cases removed
  · obtain ⟨active, tells, rfl⟩ := Event.mem_fields_active.mp told
    have entry : event.tellsFilters = true := by
      cases event <;> first | rfl | cases tells
    obtain ⟨j, move, more, rfl, begun, done, enters, ledger⟩ := k.exists_moment split entry
    obtain ⟨opened, size⟩ := enters.told j.wellFormed tells
    have balance := (ledger.concat j.wellFormed enters).balance opened
    have last : before.filter Event.tellsFilters ++ [event] =
        (before ++ [event]).filter Event.tellsFilters := by simp [entry]
    rw [last, removals_entries, additions_entries] at balance
    exact ⟨j, move, more, active, rfl, begun, done, rfl, size, size ▸ balance⟩
  · obtain ⟨orphans, rfl, rfl⟩ := Event.mem_fields_orphans.mp told
    obtain ⟨j, move, more, rfl, -, -, enters, ledger⟩ := k.exists_moment split rfl
    have nothing := Course.nothing_entered _ split
    refine ⟨orphans, rfl, rfl, ?_, ?_, ?_⟩
    · cases enters with
      | closes opened nextId active closed =>
        have balance := ledger.balance opened
        rwa [removals_entries, additions_entries] at balance
    · exact List.countP_eq_zero.mpr fun event member => by
        simp [Event.name_eq_add_iff, (nothing event member).1]
    · exact List.countP_eq_zero.mpr fun event member => by
        simp [Event.name_eq_remove_iff, (nothing event member).2]

/-- Filters of the application and of a query are added and removed, once in vain; the query is
cancelled, the stream ends, and one more filter is added. -/
def audited : Course where
  jid := ⟨none, "example", none⟩
  settings := {}
  moves :=
    [.outside (.addFilter .own (.named "message")), .outside (.addFilter .own (.named "presence")),
      .outside (.query .own (.get "first" (.named "ping")) none), .step (.call 0),
      .outside (.removeFilter .own 0), .outside (.removeFilter .own 0), .outside (.drop 0),
      .outside .hangUp, .step .reader, .step .reader, .step .reader,
      .outside (.addFilter .own (.named "message")), .outside (.removeFilter .own 1)]

theorem filters_accounted_audited :
    let log := audited.now.log
    audited.now.inflow.registry.nextId = 4 ∧ log.countP (·.numbered? == some 3) = 1 ∧
      log = log.take 6 ++ .filterRemoved 2 1 :: log.drop 7 ∧
      (∃ earlier ∈ log.take 6, earlier.added? = some 2) ∧
      (∃ active : Nat, "1" = active.repr ∧
        active + removals (log.take 6 ++ [.filterRemoved 2 1]) =
          additions (log.take 6 ++ [.filterRemoved 2 1])) ∧
      log = log.take 10 ++ .readerClosed 1 :: log.drop 11 ∧
      1 + removals (log.take 10) = additions (log.take 10) ∧
      additions (log.drop 11) = 0 ∧ removals (log.drop 11) = 0 := by
  intro log
  obtain ⟨numbers, -, entries⟩ := audited.filters_accounted
  have known : audited.now.inflow.registry.nextId = 4 := by decide +kernel
  have removal : log = log.take 6 ++ .filterRemoved 2 1 :: log.drop 7 := by decide +kernel
  have ending : log = log.take 10 ++ .readerClosed 1 :: log.drop 11 := by decide +kernel
  have third := numbers 3
  rw [known, if_pos (by decide)] at third
  obtain ⟨added, counted, -⟩ := entries _ _ _ removal
  obtain ⟨-, -, -, active, -, -, -, text, -, balance⟩ := counted "1" (by decide)
  obtain ⟨-, -, orphaned⟩ := entries _ _ _ ending
  obtain ⟨orphans, same, -, left, nothing⟩ := orphaned "1" (by decide)
  obtain rfl := Event.readerClosed.inj same
  exact ⟨known, third, removal, added 2 rfl, ⟨active, text, balance⟩, ending, left, nothing⟩

end Course

end StanzaExchange
