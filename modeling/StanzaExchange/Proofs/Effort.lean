import Mathlib.Data.List.TakeWhile
import StanzaExchange.Proofs.Deeds
import StanzaExchange.Proofs.Stalls

/-!
Termination of the scheduling (section 5 of the specification). `effort` is a measure that every
step of an agent decreases, in any reachable state: an arrival pays for its reading, for the offers
to all filters that can be active by then, and for the inbound channel; an outbound stanza for being
taken and written; a call for its own polls and the stanza it puts. So every schedule makes finitely
many steps, and a fair one reaches a state at rest.
-/
namespace StanzaExchange

open Inflow (Touch)

namespace Call

def total (weight : Call → Nat) (calls : List Call) : Nat :=
  calls.foldr (fun call rest => weight call + rest) 0

/-- A sum over the calls after a change of one call. -/
theorem total_modify (weight : Call → Nat) {calls : List Call} {n : Nat} {call : Call}
    (here : calls[n]? = some call) (change : Call → Call) :
    total weight (calls.modify n change) + weight call =
      total weight calls + weight (change call) := by
  induction calls generalizing n with
  | nil => cases here
  | cons first rest ih =>
    cases n with
    | zero =>
      obtain rfl := Option.some.inj here
      simp only [List.modify_zero_cons, total, List.foldr_cons]
      omega
    | succ n =>
      have later := ih (n := n) here
      simp only [total] at later
      simp only [List.modify_succ_cons, total, List.foldr_cons]
      omega

theorem countP_eq_total (p : Call → Bool) (calls : List Call) :
    calls.countP p = total (fun call => if p call then 1 else 0) calls := by
  induction calls with
  | nil => rfl
  | cons call rest ih =>
    rw [List.countP_cons, ih]
    exact Nat.add_comm _ _

end Call

/-- A step of the receiver task decreases its share. -/
theorem Inflow.effort_step? {faults : Faults} {trace : Bool} {i after : Inflow}
    {events : List Event} {bound : Nat} (few : i.registry.active.length ≤ bound)
    (step : i.step? faults trace = some (after, events)) :
    after.registry.active = i.registry.active ∧
      after.feed.arrivals.length * (bound + 3) + after.reader.effort <
        i.feed.arrivals.length * (bound + 3) + i.reader.effort := by
  cases reader : i.reader with
  | reading =>
    cases arrivals : i.feed.arrivals with
    | nil =>
      cases feeding : i.feed.feeding with
      | true => simp [step?, reader, Feed.next?, arrivals, feeding] at step
      | false =>
        simp only [step?, reader, Feed.next?, arrivals, feeding] at step
        cases step
        exact ⟨rfl, by simp [arrivals, Reader.effort]⟩
    | cons arrival rest =>
      cases arrival with
      | failure failure =>
        simp only [step?, reader, Feed.next?, arrivals] at step
        cases step
        refine ⟨rfl, ?_⟩
        simp only [List.length_cons, Nat.succ_mul, Reader.effort]
        omega
      | element element =>
        obtain ⟨feed, reports, made, remaining, -⟩ := step?_reads faults trace reader arrivals
        rw [made] at step
        cases step
        refine ⟨rfl, ?_⟩
        have listed : i.registry.snapshot.length ≤ i.registry.active.length :=
          List.length_filter_le _ _
        simp only [remaining, List.length_cons, Nat.succ_mul, Reader.effort]
        omega
  | routing stanza rest taken =>
    cases rest with
    | nil =>
      simp only [step?, reader] at step
      cases step
      refine ⟨rfl, ?_⟩
      by_cases untaken : taken = 0 <;> simp [untaken, Reader.effort]
    | cons id rest =>
      simp only [step?, reader] at step
      split at step
      · split at step
        next registry put =>
          cases step
          obtain ⟨f, found, kept, reads, room, rfl⟩ := Registry.offer_accepted put
          exact ⟨rfl, by simp [Reader.effort]⟩
        · cases step
          exact ⟨rfl, by simp [Reader.effort]⟩
        · cases step
      · cases step
        exact ⟨rfl, by simp [Reader.effort]⟩
  | surfacing stanza | failing failure =>
    simp only [step?, reader] at step
    split at step
    · cases step
      exact ⟨rfl, by simp [Reader.effort]⟩
    · cases step
      exact ⟨rfl, by simp [Reader.effort]⟩
    · cases step
  | closing | closed => simp [step?, reader] at step

/-- A step of the sender task decreases its share. -/
theorem Outflow.effort_step? {faults : Faults} {trace producing : Bool} {o after : Outflow}
    {events : List Event} (step : o.step? faults trace producing = some (after, events)) :
    2 * after.outbound.queue.length + after.writer.effort <
      2 * o.outbound.queue.length + o.writer.effort := by
  cases step?_advance step with
  | waits idle => cases step.symm.trans (step?_eq_none_iff.mpr idle)
  | takes idle goes first =>
    simp only [idle, first, List.length_cons, Writer.effort]
    omega
  | writes busy | loses busy => simp [busy, Writer.effort]
  | stops idle | ends idle => simp [idle, stop, Channel.shut, Writer.effort]

namespace Conversation

variable {c after : Conversation} {n : Nat} {call : Call} {agent : Agent}

theorem effort_eq (c : Conversation) : c.effort =
    c.inflow.feed.arrivals.length * (c.filterBound + 3) + c.inflow.reader.effort +
      (2 * c.outflow.outbound.queue.length + c.outflow.writer.effort) +
      Call.total (fun call => call.work.effort) c.calls :=
  congrArg (· + _) (Nat.add_assoc _ _ _)

/-- A step of the receiver task decreases the measure. -/
theorem effort_readerStep? (step : c.readerStep? = some after) : after.effort < c.effort := by
  unfold readerStep? at step
  split at step
  next closing =>
    obtain rfl := Option.some.inj step
    have bound : (c.calls.countP fun call => call.work.addsFilter) ≤ c.filterBound :=
      Nat.le_add_left _ _
    have arrived := Nat.mul_le_mul_left c.inflow.feed.arrivals.length (Nat.add_le_add_right bound 3)
    rw [filterBound] at arrived
    simp only [effort_eq, filterBound, report, close, Inflow.tearDown, Registry.close,
      Outflow.outbound_close, Outflow.writer_close, closing, Reader.effort, List.length_nil,
      Nat.zero_add]
    omega
  · obtain ⟨⟨inflow, events⟩, made, rfl⟩ := Option.map_eq_some_iff.mp step
    have few : c.inflow.registry.active.length ≤ c.filterBound := Nat.le_add_right _ _
    obtain ⟨active, less⟩ := Inflow.effort_step? few made
    simp only [effort_eq, filterBound, report, active] at less ⊢
    omega

theorem effort_writerStep? (step : c.writerStep? = some after) : after.effort < c.effort := by
  obtain ⟨⟨outflow, events⟩, made, rfl⟩ := Option.map_eq_some_iff.mp step
  have less := Outflow.effort_step? made
  simp only [effort_eq, filterBound, report] at less ⊢
  omega

/-- The measure across one poll of a call. A filter that the call has yet to register is counted in
what an arrival pays for. -/
structure Spends (c : Conversation) (n : Nat) (work : Work) (after : Conversation) (later : Work) :
    Prop where
  calls : after.calls = c.calls.modify n fun call => { call with work := later }
  inflow : after.inflow = c.touched (work.touch? later)
  writer : after.outflow.writer = c.outflow.writer
  less : 2 * after.outflow.outbound.queue.length + later.effort <
    2 * c.outflow.outbound.queue.length + work.effort
  adds : later.addsFilter = false ∧
    (later.query? ≠ none → work.query? ≠ none ∨ work.addsFilter = true)

/-- A poll of a call adds no arrival and at most the filter it had yet to register. -/
theorem Spends.inflow_le {work later : Work} (spends : c.Spends n work after later) :
    after.inflow.feed.arrivals = c.inflow.feed.arrivals ∧
      after.inflow.reader = c.inflow.reader ∧
      after.inflow.registry.active.length ≤
        c.inflow.registry.active.length + if work.addsFilter then 1 else 0 := by
  rw [spends.inflow, Work.touch?]
  split
  next fresh has =>
    have adds := (spends.adds.2 (by simp [has])).resolve_left (by simp [fresh])
    refine ⟨rfl, rfl, ?_⟩
    simp only [adds, if_true, touched, Option.elim_some, Inflow.touch, Registry.add]
    split
    · exact Nat.le_succ _
    · exact Nat.le_refl _
  next asked has ended =>
    refine ⟨rfl, rfl, Nat.le_trans ?_ (Nat.le_add_right _ _)⟩
    simp only [touched, Option.elim_some, Inflow.touch, Registry.leave, Registry.modifyChannel]
    cases removed : c.inflow.registry.remove? asked.filter with
    | none => exact Nat.le_refl _
    | some registry =>
      rw [Option.getD_some, Registry.eq_of_remove? removed]
      exact List.length_erase_le
  · split <;> exact ⟨rfl, rfl, Nat.le_add_right _ _⟩

/-- A poll of a call decreases the measure. -/
theorem effort_of_spends {later : Work} (here : c.calls[n]? = some call)
    (spends : c.Spends n call.work after later) : after.effort < c.effort := by
  obtain ⟨arrivals, reader, active⟩ := spends.inflow_le
  have works : Call.total _ _ + call.work.effort = Call.total _ _ + later.effort :=
    Call.total_modify (fun call => call.work.effort) here
      fun call => { call with work := later }
  have adders : Call.total _ _ + (if call.work.addsFilter then 1 else 0) =
      Call.total _ _ + (if later.addsFilter then 1 else 0) :=
    Call.total_modify (fun call => if call.work.addsFilter then 1 else 0) here
      fun call => { call with work := later }
  rw [spends.adds.1, if_neg Bool.false_ne_true] at adders
  have bound : after.filterBound ≤ c.filterBound := by
    simp only [filterBound, Call.countP_eq_total, spends.calls]
    omega
  have arrived := Nat.mul_le_mul_left c.inflow.feed.arrivals.length (Nat.add_le_add_right bound 3)
  have less := spends.less
  rw [effort_eq, effort_eq, spends.calls, arrivals, reader, spends.writer]
  omega

theorem writer_endQuery (query : Query) (work : Work) :
    (c.endQuery n query work).outflow.writer = c.outflow.writer := by
  change ((c.withdraw n).leaveFilter query.filter).outflow.writer = _
  rw [outflow_leaveFilter]
  rfl

/-- The end of a query spends what was left of it. -/
theorem spends_endQuery {work later : Work} {query : Query} (has : work.query? = some query)
    (ended : later.isRunning = false) : c.Spends n work (c.endQuery n query later) later := by
  have idle : later.query? = none ∧ later.effort = 0 ∧ later.addsFilter = false := by
    cases later <;> first | exact ⟨rfl, rfl, rfl⟩ | cases ended
  have busy : 0 < work.effort := by
    cases work <;> first | exact Nat.succ_pos _ | cases has
  refine ⟨calls_endQuery query later, ?_, writer_endQuery query later, ?_, idle.2.2,
    fun asks => absurd idle.1 asks⟩
  · rw [inflow_endQuery query later false, Work.touch?, has, idle.1]
    rfl
  · rw [queue_endQuery, idle.2.1]
    omega

/-- Every poll of a call spends some of the measure. The cases follow `WorkStep`. -/
theorem WorkStep.spends {sender : Bool} {work : Work} (step : WorkStep c n sender work after) :
    ∃ later, c.Spends n work after later := by
  have adds : ∀ {work later : Work}, later.addsFilter = false → later.query? = none →
      later.addsFilter = false ∧
        (later.query? ≠ none → work.query? ≠ none ∨ work.addsFilter = true) :=
    fun none fresh => ⟨none, fun has => absurd fresh has⟩
  cases step with
  | fails | sendWaits | failsLate | leaves | joins =>
    exact ⟨_, rfl, rfl, rfl, Nat.add_lt_add_left (by simp [Work.effort]) _, adds rfl rfl⟩
  | sends | sendsLate =>
    refine ⟨_, rfl, rfl, rfl, ?_, adds rfl rfl⟩
    simp [putting, setOutbound, setWork, withdraw, Channel.withdraw, Work.effort]
    omega
  | registers =>
    exact ⟨_, rfl, rfl, rfl, Nat.add_lt_add_left (by simp [Work.effort]) _, rfl, fun _ => .inr rfl⟩
  | queues | queuesLate =>
    refine ⟨_, rfl, rfl, rfl, ?_, rfl, fun _ => .inl (Option.some_ne_none _)⟩
    simp [putting, setOutbound, setWork, withdraw, Channel.withdraw, Work.effort]
    omega
  | queryWaits =>
    exact ⟨_, rfl, rfl, rfl, Nat.add_lt_add_left (by simp [Work.effort]) _, rfl,
      fun _ => .inl (Option.some_ne_none _)⟩
  | refused unsent => rcases unsent with rfl | rfl <;> exact ⟨_, spends_endQuery rfl rfl⟩
  | deserted => exact ⟨_, spends_endQuery rfl rfl⟩
  | @answered query stanza registry read =>
    obtain ⟨-, rfl⟩ := Registry.read_taken read
    refine ⟨_, calls_endQuery query _, ?_, writer_endQuery query _, ?_, adds rfl rfl⟩
    · rw [inflow_endQuery query _ false]
      simp only [Inflow.touch, setRegistry, Registry.leave_tail]
      rfl
    · rw [queue_endQuery]
      exact Nat.add_lt_add_left (by simp [Work.effort]) _
  | finishes =>
    obtain ⟨outflow, inflow, calls, -⟩ := c.finishOwn_keeps
    refine ⟨.leaving, by rw [setWork, calls], inflow, congrArg Outflow.writer outflow, ?_,
      adds rfl rfl⟩
    change 2 * c.finishOwn.outflow.outbound.queue.length + _ < _
    rw [outflow]
    exact Nat.add_lt_add_left (by simp [Work.effort]) _

theorem spends_abandon {work : Work} (running : work.isRunning = true) :
    ∃ later, c.Spends n work (c.abandon n work) later := by
  cases work with
  | queryOffering | queryWaiting | queryAwaiting => exact ⟨_, spends_endQuery rfl rfl⟩
  | done | cancelled => cases running
  | _ =>
    exact ⟨.cancelled, rfl, rfl, rfl, Nat.add_lt_add_left (by simp [Work.effort]) _, rfl,
      fun has => absurd rfl has⟩

/-- Every step of an agent decreases the measure. -/
theorem effort_step? (step : c.step? agent = some after) : after.effort < c.effort := by
  cases agent with
  | writer => exact effort_writerStep? step
  | reader => exact effort_readerStep? step
  | call n =>
    obtain ⟨call, here, ⟨given, rfl⟩ | ⟨-, further⟩⟩ := callStep?_spec step
    · obtain ⟨later, spends⟩ := spends_abandon (c := c) (n := n) (Bool.and_eq_true_iff.mp given).2
      exact effort_of_spends here spends
    · obtain ⟨later, spends⟩ := further.spends
      exact effort_of_spends here spends
  | timer n =>
    obtain ⟨call, query, deadline, here, waits, -, -, -, rfl⟩ := timerStep?_spec step
    have has : call.work.query? = some query := by
      rcases waits with asked | asked <;> simp [asked, Work.query?]
    exact effort_of_spends here (spends_endQuery has rfl)

/-- A turn costs at least one if the agent is ready, and never increases the measure. -/
theorem effort_move (c : Conversation) (agent : Agent) :
    (if c.canStep agent then 1 else 0) + (c.move (.step agent)).effort ≤ c.effort := by
  rw [canStep, move]
  cases step : c.step? agent with
  | none => simp
  | some after =>
    simp only [Option.isSome_some, if_true, Option.getD_some]
    have less := effort_step? step
    omega

/-- The number of turns in which the agent is ready. -/
def stepsMade (c : Conversation) : List Agent → Nat
  | [] => 0
  | agent :: rest => (if c.canStep agent then 1 else 0) + (c.move (.step agent)).stepsMade rest

/-- The measure bounds the number of steps. -/
theorem stepsMade_le (c : Conversation) (turns : List Agent) :
    c.stepsMade turns + (c.run (turns.map .step)).effort ≤ c.effort := by
  induction turns generalizing c with
  | nil => exact Nat.le_of_eq (Nat.zero_add _)
  | cons agent rest ih =>
    have first := c.effort_move agent
    have later := ih (c.move (.step agent))
    simp only [stepsMade, List.map_cons]
    change _ + ((c.move (.step agent)).run (rest.map .step)).effort ≤ _
    omega

/-- The state after the first turns of an infinite schedule. -/
def afterTurns (c : Conversation) (schedule : Nat → Agent) : Nat → Conversation
  | 0 => c
  | m + 1 => (c.afterTurns schedule m).move (.step (schedule m))

theorem move_of_waits (waits : c.canStep agent = false) : c.move (.step agent) = c := by
  rw [canStep, Option.isSome_eq_false_iff, Option.isNone_iff_eq_none] at waits
  rw [move, waits, Option.getD_none]

theorem effort_afterTurns_le (schedule : Nat → Agent) {m m' : Nat} (later : m ≤ m') :
    (c.afterTurns schedule m').effort ≤ (c.afterTurns schedule m).effort := by
  induction later with
  | refl => exact Nat.le_refl _
  | @step m' later ih =>
    have turn := (c.afterTurns schedule m').effort_move (schedule m')
    rw [afterTurns]
    omega

/-- From some turn on no scheduled agent is ready. -/
theorem exists_quiet (c : Conversation) (schedule : Nat → Agent) :
    ∃ m, ∀ m' ≥ m, (c.afterTurns schedule m').canStep (schedule m') = false := by
  -- strong induction on the measure: every step still to come decreases it
  have quiet : ∀ effort m, (c.afterTurns schedule m).effort = effort →
      ∃ m, ∀ m' ≥ m, (c.afterTurns schedule m').canStep (schedule m') = false := by
    intro effort
    induction effort using Nat.strongRecOn with
    | ind effort ih =>
      intro m left
      by_cases busy : ∃ m' ≥ m, (c.afterTurns schedule m').canStep (schedule m') = true
      · obtain ⟨m', later, makes⟩ := busy
        have turn := (c.afterTurns schedule m').effort_move (schedule m')
        have before := c.effort_afterTurns_le schedule later
        rw [if_pos makes] at turn
        refine ih _ ?_ (m' + 1) rfl
        rw [afterTurns]
        omega
      · refine ⟨m, fun m' later => Bool.eq_false_iff.mpr fun makes => ?_⟩
        exact busy ⟨m', later, makes⟩
  exact quiet _ 0 rfl

theorem afterTurns_of_quiet {schedule : Nat → Agent} {m : Nat}
    (quiet : ∀ m' ≥ m, (c.afterTurns schedule m').canStep (schedule m') = false) {m' : Nat}
    (later : m ≤ m') : c.afterTurns schedule m' = c.afterTurns schedule m := by
  induction later with
  | refl => rfl
  | @step m' later ih => rw [afterTurns, move_of_waits (quiet m' later), ih]

/-- The agents that exist: the tasks, the calls, and the timers of limited queries. -/
def hasAgent (c : Conversation) : Agent → Bool
  | .writer | .reader => true
  | .call n | .timer n => n < c.calls.length

/-- Every existing agent is scheduled infinitely often. -/
def Fair (c : Conversation) (schedule : Nat → Agent) : Prop :=
  ∀ agent, c.hasAgent agent = true → ∀ m, ∃ m' ≥ m, schedule m' = agent

theorem waits_of_stranger (stranger : c.hasAgent agent = false) : c.step? agent = none := by
  cases agent with
  | writer | reader => cases stranger
  | call n | timer n =>
    have absent : c.calls[n]? = none := by simpa [hasAgent] using stranger
    simp [step?, callStep?, timerStep?, absent]

theorem length_calls_step (c : Conversation) (agent : Agent) :
    (c.move (.step agent)).calls.length = c.calls.length := by
  have turns : ∀ {work n}, c.Turns n work (c.move (.step agent)) →
      (c.move (.step agent)).calls.length = c.calls.length := by
    rintro work n ⟨later, calls, -⟩
    rw [calls, List.length_modify]
  cases agent with
  | reader => exact congrArg List.length (Moment.move_reader c).2
  | writer =>
    rw [move, step?, writerStep?]
    cases c.outflow.step? c.faults c.trace c.producing <;> rfl
  | call n =>
    rcases Moment.still_or_turns (c := c) (.inl rfl) with still | ⟨call, -, turned⟩
    · rw [still]
    · exact turns turned
  | timer n =>
    rcases Moment.still_or_turns (c := c) (.inr (.inl rfl)) with still | ⟨call, -, turned⟩
    · rw [still]
    · exact turns turned

theorem hasAgent_afterTurns (schedule : Nat → Agent) (m : Nat) :
    (c.afterTurns schedule m).hasAgent agent = c.hasAgent agent := by
  have same : (c.afterTurns schedule m).calls.length = c.calls.length := by
    induction m with
    | zero => rfl
    | succ m ih => rw [afterTurns, length_calls_step, ih]
  cases agent <;> simp [hasAgent, same]

/-- A fair schedule without further steps is at rest. -/
theorem Fair.atRest {schedule : Nat → Agent} (fair : c.Fair schedule) {m : Nat}
    (quiet : ∀ m' ≥ m, (c.afterTurns schedule m').canStep (schedule m') = false) :
    (c.afterTurns schedule m).AtRest := by
  intro agent
  cases known : c.hasAgent agent with
  | false => exact waits_of_stranger ((hasAgent_afterTurns schedule m).trans known)
  | true =>
    obtain ⟨m', later, turn⟩ := fair agent known m
    have waits := quiet m' later
    rw [turn, afterTurns_of_quiet quiet later] at waits
    exact Option.isNone_iff_eq_none.mp (Option.isSome_eq_false_iff.mp waits)

end Conversation

namespace Turns

variable {α : Type} [BEq α] {canStep aside : α → Bool} {everybody queue : List α}

theorem canStep_of_upcoming {a : α} {rest : List α}
    (first : upcoming canStep aside everybody queue = a :: rest) : canStep a = true := by
  have head := List.head?_dropWhile_not (p := fun a => !canStep a)
    ((enqueue canStep everybody queue).filter (!aside ·))
  rw [show List.dropWhile _ _ = a :: rest from first] at head
  simpa using head

/-- An empty run queue means that no agent is ready. -/
theorem canStep_of_upcoming_nil [LawfulBEq α]
    (none : upcoming canStep (fun _ => false) everybody queue = []) {a : α}
    (member : a ∈ everybody) : canStep a = false := by
  rw [upcoming, List.dropWhile_eq_nil_iff] at none
  refine Bool.eq_false_iff.mpr fun able => ?_
  have queued : a ∈ enqueue canStep everybody queue := by
    by_cases early : a ∈ queue
    · exact List.mem_append_left _ early
    · refine List.mem_append_right _ (List.mem_filter.mpr ⟨member, ?_⟩)
      simp [able, early]
  have waits := none a (List.mem_filter.mpr ⟨queued, rfl⟩)
  simp [able] at waits

end Turns

namespace Conversation

variable {c : Conversation}

/-- Every existing agent is among the workers or the timers. -/
theorem mem_workers_or_timers {agent : Agent} (known : c.hasAgent agent = true) :
    agent ∈ c.workers ∨ agent ∈ c.timers := by
  have inserted : ∀ {n m : Nat} {numbers : List Nat},
      n ∈ c.insertByDeadline m numbers ↔ n = m ∨ n ∈ numbers := by
    intro n m numbers
    induction numbers with
    | nil => simp [insertByDeadline]
    | cons first rest ih =>
      rw [insertByDeadline]
      split
      · simp
      · simp only [List.mem_cons, ih]
        tauto
  cases agent with
  | reader | writer => exact .inl (by simp [workers])
  | call n =>
    have number : n ∈ c.callNumbers := by simpa [hasAgent, callNumbers] using known
    refine .inl (List.mem_cons_of_mem _ (List.mem_cons_of_mem _ (List.mem_map_of_mem ?_)))
    by_cases waits : n ∈ c.outflow.outbound.waiting
    · exact List.mem_append_left _ waits
    · exact List.mem_append_right _ (List.mem_filter.mpr ⟨number, by simpa using waits⟩)
  | timer n =>
    have number : n ∈ c.callNumbers := by simpa [hasAgent, callNumbers] using known
    refine .inr (List.mem_map_of_mem ?_)
    have sorted : ∀ numbers : List Nat, n ∈ numbers → n ∈ numbers.foldr c.insertByDeadline [] := by
      intro numbers
      induction numbers with
      | nil => exact fun absent => absurd absent List.not_mem_nil
      | cons first rest ih =>
        intro member
        exact inserted.mpr ((List.mem_cons.mp member).imp_right ih)
    exact sorted _ number

/-- An empty run queue means a state at rest. -/
theorem atRest_of_upcoming_nil {queue : List Agent}
    (none : c.upcoming (fun _ => false) queue = []) : c.AtRest := by
  intro agent
  cases known : c.hasAgent agent with
  | false => exact waits_of_stranger known
  | true =>
    unfold upcoming at none
    split at none
    next nobody =>
      refine Option.isNone_iff_eq_none.mp (Option.isSome_eq_false_iff.mp ?_)
      rcases mem_workers_or_timers known with worker | timer
      · exact Turns.canStep_of_upcoming_nil nobody worker
      · exact Bool.eq_false_iff.mpr (List.filter_eq_nil_iff.mp none agent timer)
    next some => exact absurd none some

theorem canStep_of_upcoming {queue rest : List Agent} {aside : Agent → Bool} {agent : Agent}
    (first : c.upcoming aside queue = agent :: rest) : c.canStep agent = true := by
  unfold upcoming at first
  split at first
  · exact (List.mem_filter.mp (first ▸ List.mem_cons_self)).2
  · exact Turns.canStep_of_upcoming first

/-- The scheduler of the conversation comes to rest within the measure. -/
theorem atRest_runSteps {steps : Nat} (enough : c.effort ≤ steps) (reached : Nat)
    (queue : List Agent) : (runSteps (fun _ => false) reached steps queue c).AtRest := by
  induction steps generalizing c queue with
  | zero =>
    intro agent
    rw [runSteps]
    refine Option.eq_none_iff_forall_ne_some.mpr fun after step => ?_
    have less := effort_step? step
    omega
  | succ steps ih =>
    rw [runSteps]
    split
    next nobody => exact atRest_of_upcoming_nil nobody
    next agent rest first =>
      obtain ⟨after, step⟩ := Option.isSome_iff_exists.mp (canStep_of_upcoming first)
      rw [step]
      have less := effort_step? step
      exact ih (by omega) _

end Conversation

namespace Course

/-- The engine comes to rest. From every reachable state, for every order of turns of the tasks, the
calls and their timers, the number of steps is bounded; from some turn on nothing changes, and if
the order is fair that state is at rest. The scheduler used by `settle` reaches a state at rest,
too. -/
theorem comes_to_rest (k : Course) :
    (∀ turns, k.now.stepsMade turns ≤ k.now.effort) ∧
    (∀ schedule : Nat → Agent, ∃ m, ∀ m' ≥ m,
      k.now.afterTurns schedule m' = k.now.afterTurns schedule m ∧
      (k.now.Fair schedule → (k.now.afterTurns schedule m').AtRest)) ∧
    (∀ reached queue, (k.now.settleSince reached queue).AtRest) := by
  refine ⟨fun turns => ?_, fun schedule => ?_, fun reached queue => ?_⟩
  · exact Nat.le_trans (Nat.le_add_right _ _) (k.now.stepsMade_le turns)
  · obtain ⟨m, quiet⟩ := k.now.exists_quiet schedule
    refine ⟨m, fun m' later => ⟨Conversation.afterTurns_of_quiet quiet later, fun fair => ?_⟩⟩
    exact fair.atRest fun m'' further => quiet m'' (Nat.le_trans later further)
  · exact Conversation.atRest_runSteps (Nat.le_refl _) reached queue

/-- Two elements are fed, a stanza and a query wait for one slot, and the application joins. -/
def crammed : Course where
  jid := ⟨none, "example", none⟩
  settings := {}
  moves :=
    [.outside (.push (.element (.named "message"))),
      .outside (.push (.element (.named "presence"))), .outside (.send .own (.message {})),
      .outside (.query .own (.get "first" (.named "ping")) (some 0)), .outside .join,
      .outside .hangUp]

/-- Round robin. -/
def roundabout (i : Nat) : Agent :=
  [.timer 0, .call 0, .writer, .timer 1, .call 1, .reader, .timer 2, .call 2].getD (i % 8) .reader

theorem comes_to_rest_crammed :
    crammed.now.effort = 25 ∧ crammed.now.stepsMade ((List.range 80).map roundabout) = 22 ∧
      crammed.now.Fair roundabout ∧ ∃ m, (crammed.now.afterTurns roundabout m).AtRest := by
  have fair : crammed.now.Fair roundabout := by
    have three : crammed.now.calls.length = 3 := by decide +kernel
    have place : ∀ j < 8, ∀ m, ∃ m' ≥ m, roundabout m' = roundabout j := by
      intro j small m
      refine ⟨8 * m + j, by omega, ?_⟩
      simp [roundabout]
    intro agent known
    cases agent with
    | writer => exact place 2 (by decide)
    | reader => exact place 5 (by decide)
    | call n =>
      have small : n < 3 := by simpa [Conversation.hasAgent, three] using known
      match n, small with
      | 0, _ => exact place 1 (by decide)
      | 1, _ => exact place 4 (by decide)
      | 2, _ => exact place 7 (by decide)
    | timer n =>
      have small : n < 3 := by simpa [Conversation.hasAgent, three] using known
      match n, small with
      | 0, _ => exact place 0 (by decide)
      | 1, _ => exact place 3 (by decide)
      | 2, _ => exact place 6 (by decide)
  obtain ⟨-, schedules, -⟩ := crammed.comes_to_rest
  obtain ⟨m, quiet⟩ := schedules roundabout
  exact ⟨by decide +kernel, by decide +kernel, fair, m, (quiet m (Nat.le_refl m)).2 fair⟩

end Course

end StanzaExchange
