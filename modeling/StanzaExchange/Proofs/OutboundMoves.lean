import StanzaExchange.Proofs.Moves
import StanzaExchange.Proofs.Outflow

/-!
Inversion of the moves of an execution, on the outbound side. Every move other than a poll of the
sender task performs one `Outflow.Touch` (`Stirs`); together with `Writes` for the sender task,
`stirs_or_writes` is the case split on which the invariants rest. The events of a step about the
stream are determined by the originator of a termination in it (`closer?`).
-/
namespace StanzaExchange

open Outflow (Touch)

/-- The events of a termination. -/
def Event.tellsEnd : Event → Bool
  | .closing _ | .alreadyClosed _ | .endFailed _ _ | .endWritten => true
  | _ => false

/-- The events of the outbound half: those of a termination and those of the sender task. -/
def Event.tellsOut : Event → Bool
  | .writerStopped _ | .writing | .writeFailed _ _ | .outboundClosed => true
  | event => event.tellsEnd

theorem Event.tellsOut_of_tellsEnd {event : Event} (tells : event.tellsEnd = true) :
    event.tellsOut = true := by
  cases event <;> first | rfl | cases tells

/-- The events of reading and routing. -/
def Event.tellsIn : Event → Bool
  | .readFailed _ | .failureUnobserved | .inboundDropped | .unknownElement _ | .skipFailed _ _
  | .decodeFailed _ _ _ | .filterGone _ | .routed _ => true
  | _ => false

theorem Event.tellsOut_of_tellsIn {event : Event} (tells : event.tellsIn = true) :
    event.tellsOut = false := by
  cases event <;> first | rfl | cases tells

/-- The events of a termination by an originator. -/
def Outflow.announces (faults : Faults) (o : Outflow) (origin : Reporter) : List Report :=
  (o.close faults origin).2.2.map (⟨origin, ·⟩)

theorem Outflow.tellsEnd_close {faults : Faults} {o : Outflow} {origin : Reporter} :
    ∀ event ∈ (o.close faults origin).2.2, event.tellsEnd = true := by
  unfold close
  split
  · simp [Event.tellsEnd]
  · intro event member
    have told : ∀ event ∈ (writeEnd faults o.wire).2.2, event.tellsEnd = true := by
      unfold writeEnd
      split
      · simp
      · dsimp only
        split <;> simp [Event.tellsEnd]
    rcases List.mem_append.mp member with early | failed
    · rcases List.mem_cons.mp early with rfl | written
      · rfl
      · exact told event written
    · split at failed
      · cases failed
      · rw [List.mem_singleton.mp failed]
        rfl

namespace Outflow

variable {o after : Outflow} {faults : Faults} {producing : Bool} {events : List Event}

theorem Advance.tellsOut (step : Advance faults producing o events after) :
    ∀ event ∈ events, event.tellsOut = true := by
  cases step with
  | takes idle goes first traces => rcases traces with rfl | rfl <;> simp [Event.tellsOut]
  | ends =>
    refine List.forall_mem_cons.mpr ⟨rfl, fun event member => ?_⟩
    exact event.tellsOut_of_tellsEnd (tellsEnd_close event member)
  | _ => simp [Event.tellsOut]

/-- Among the events of a poll of the sender task, those of a termination are what `announces`
tells. -/
theorem Advance.tellsEnd (step : Advance faults producing o events after) :
    events.filter Event.tellsEnd =
      if o.asks producing then (o.close faults .writer).2.2 else [] := by
  cases step with
  | waits idle => rw [idle.asks]; rfl
  | takes idle goes first traces =>
    rcases traces with rfl | rfl <;> simp [asks, first, Event.tellsEnd]
  | writes busy | loses busy => simp [asks, busy, Event.tellsEnd]
  | stops idle ended => simp [asks, ended, Event.tellsEnd]
  | ends idle goes empty alone =>
    rw [List.filter_cons_of_neg (by simp [Event.tellsEnd]),
      List.filter_eq_self.mpr tellsEnd_close]
    simp [asks, idle, goes, empty, alone]

end Outflow

/-- An operation that concerns neither the channel nor its waiting senders. -/
def Outflow.Touch.isAside : Touch → Bool
  | .nothing | .observe _ | .abandon | .stall _ | .close _ => true
  | _ => false

/-- Neither a termination nor a receive of the peer. -/
def Action.isMild : Action → Bool
  | .close _ | .takeWrite | .takeWrites => false
  | _ => true

def Answer.observed : Answer → List Write
  | .write found => [found]
  | .writes found => found
  | _ => []

/-- The receiver task logs no outbound event. -/
theorem Inflow.tellsIn_step? {faults : Faults} {trace : Bool} {i after : Inflow}
    {events : List Event} (step : i.step? faults trace = some (after, events)) :
    ∀ event ∈ events, event.tellsIn = true := by
  have skips : ∀ feed start, ∀ event ∈ (skipBody faults feed start).2, event.tellsIn = true := by
    intro feed start
    unfold skipBody
    split
    · simp
    · split <;> simp [Event.tellsIn]
  have interprets : ∀ feed start, ∀ event ∈ (interpret faults feed start).2.2,
      event.tellsIn = true := by
    intro feed start
    unfold interpret
    split
    · exact List.forall_mem_cons.mpr ⟨rfl, skips feed start⟩
    · dsimp only
      split <;> simp [Event.tellsIn]
  unfold step? at step
  split at step
  · split at step
    · cases step
    · cases step
      simp [Event.tellsIn]
    next start feed read =>
      cases step
      exact interprets feed start
  · cases step
    split <;> simp [Event.tellsIn]
  · split at step
    · split at step <;> cases step <;> simp [Event.tellsIn]
    · cases step
      simp
  · split at step <;> cases step <;> simp [Event.tellsIn]
  · split at step <;> cases step <;> simp [Event.tellsIn]
  · cases step
  · cases step

theorem Inflow.tellsOut_step? {faults : Faults} {trace : Bool} {i after : Inflow}
    {events : List Event} (step : i.step? faults trace = some (after, events)) :
    ∀ event ∈ events, event.tellsOut = false :=
  fun event member => event.tellsOut_of_tellsIn (tellsIn_step? step event member)

namespace Conversation

variable {c after : Conversation} {n : Nat} {call : Call} {touch : Touch} {work : Work}

def waits (c : Conversation) (n : Nat) : Bool := (c.stands? n).any fun standing =>
  standing.2.isWaiting

/-- The reports of terminations, earliest first. -/
def endReports (c : Conversation) : List Report := (c.journal.filter (·.event.tellsEnd)).reverse

/-- The reports of the outbound half, earliest first. -/
def outReports (c : Conversation) : List Report := (c.journal.filter (·.event.tellsOut)).reverse

theorem endReports_eq : c.endReports = c.outReports.filter (·.event.tellsEnd) := by
  rw [outReports, List.filter_reverse, List.filter_filter, endReports]
  congr 1
  refine List.filter_congr fun report _ => ?_
  have among := report.event.tellsOut_of_tellsEnd
  cases tells : report.event.tellsEnd <;> simp_all

theorem journal_report (reporter : Reporter) (events : List Event) :
    (c.report reporter events).journal = (events.map (⟨reporter, ·⟩)).reverse ++ c.journal := by
  have grown : ∀ journal : List Report, events.foldl (fun journal event => ⟨reporter, event⟩ ::
      journal) journal = (events.map (⟨reporter, ·⟩)).reverse ++ journal := by
    induction events with
    | nil => exact fun _ => rfl
    | cons event rest ih => exact fun journal => by simp [ih]
  exact grown c.journal

@[simp] theorem outReports_report (reporter : Reporter) (events : List Event) :
    (c.report reporter events).outReports =
      c.outReports ++ (events.filter Event.tellsOut).map (⟨reporter, ·⟩) := by
  simp [outReports, journal_report, List.filter_map, Function.comp_def]

theorem outReports_close (origin : Reporter) :
    (c.close origin).2.outReports = c.outReports ++ c.outflow.announces c.faults origin := by
  have closed : (c.close origin).2 =
      ({ c with outflow := (c.outflow.close c.faults origin).2.1 } : Conversation).report origin
        (c.outflow.close c.faults origin).2.2 := rfl
  rw [closed, outReports_report, List.filter_eq_self.mpr fun event member =>
    event.tellsOut_of_tellsEnd (Outflow.tellsEnd_close event member)]
  rfl

theorem outReports_report_other {reporter : Reporter} {event : Event}
    (other : event.tellsOut = false) : (c.report reporter [event]).outReports = c.outReports := by
  rw [outReports_report, List.filter_cons_of_neg (by simp [other])]
  exact List.append_nil _

theorem outReports_addFilter (matcher : Matcher) :
    (c.addFilter matcher).outReports = c.outReports := by
  apply outReports_report_other
  unfold Registry.addEvent
  split <;> rfl

theorem outReports_removeFilter? {id : FilterId} (removed : c.removeFilter? id = some after) :
    after.outReports = c.outReports := by
  obtain ⟨registry, found, rfl⟩ := Option.map_eq_some_iff.mp removed
  exact outReports_report_other rfl

theorem outReports_leaveFilter (id : FilterId) :
    (c.leaveFilter id).outReports = c.outReports := by
  unfold leaveFilter
  cases removed : c.removeFilter? id with
  | none => rfl
  | some after =>
    have kept := outReports_removeFilter? removed
    exact kept

theorem outReports_endQuery (query : Query) :
    (c.endQuery n query work).outReports = c.outReports :=
  outReports_leaveFilter query.filter

theorem outReports_startQuery (iq : Iq) (limit : Option Nat) :
    (c.startQuery n iq limit).outReports = c.outReports :=
  (outReports_report_other rfl).trans (outReports_addFilter _)

theorem finishOwn_keeps : c.finishOwn.outflow = c.outflow ∧ c.finishOwn.inflow = c.inflow ∧
    c.finishOwn.calls = c.calls ∧ c.finishOwn.outReports = c.outReports := by
  unfold finishOwn
  split
  · exact ⟨rfl, rfl, rfl, outReports_report_other rfl⟩
  · exact ⟨rfl, rfl, rfl, rfl⟩

/-- The effect of a move on the outbound half, other than a poll of the sender task. -/
structure Stirred (c after : Conversation) (touch : Touch) : Prop where
  outflow : after.outflow = c.outflow.touch c.faults touch
  fits : touch.Fits c.outflow
  row : ∀ n, after.waits n = touch.row c.waits n
  fresh : ∀ n, touch = .await n → c.waits n = false
  told : after.outReports =
    c.outReports ++ (touch.closer?.map (c.outflow.announces c.faults)).getD []

/-- Such a move without a termination and without a receive of the peer. -/
def Mild (c after : Conversation) (put : List Stanza) : Prop :=
  ∃ touch, c.Stirred after touch ∧ touch.isMild = true ∧ touch.put? = put

/-- The effect of a turn on the place of the call among the waiting senders. -/
def Queues (n : Nat) (before after : Work) : Touch → Prop
  | .await ticket => ticket = n ∧ before.isWaiting = false ∧ after.isWaiting = true
  | .redeem ticket _ | .withdraw ticket => ticket = n ∧ after.isWaiting = false
  | .nothing | .put _ => after.isWaiting = before.isWaiting
  | _ => False

theorem waits_eq (here : c.calls[n]? = some call) : c.waits n = call.work.isWaiting := by
  simp [waits, stands?, here]

/-- A change of one call and a matching update of the outbound half. -/
theorem Stirred.of_call (here : c.calls[n]? = some call)
    (calls : after.calls = c.calls.modify n fun call => { call with work })
    (outflow : after.outflow = c.outflow.touch c.faults touch)
    (told : after.outReports = c.outReports) (fits : touch.Fits c.outflow)
    (queues : Queues n call.work work touch) : c.Stirred after touch := by
  have stands := stands?_modify here calls
  have now : ∀ k, after.waits k = if k = n then work.isWaiting else c.waits k := by
    intro k
    rw [waits, stands]
    split <;> rfl
  refine ⟨outflow, fits, fun k => ?_, fun k awaits => ?_, ?_⟩
  · rw [now]
    by_cases mine : k = n
    · subst mine
      cases touch <;> simp_all [Queues, Touch.row, waits_eq here]
    · cases touch <;> simp_all [Queues, Touch.row]
  · subst awaits
    obtain ⟨rfl, before, -⟩ := queues
    rw [waits_eq here, before]
  · rw [told]
    cases touch <;> first | exact (List.append_nil _).symm | exact queues.elim

theorem stirred_endQuery (here : c.calls[n]? = some call) (query : Query)
    (ended : work.isWaiting = false) : c.Stirred (c.endQuery n query work) (.withdraw n) :=
  .of_call here (calls_endQuery query work) (outflow_leaveFilter query.filter)
    (outReports_endQuery query) trivial ⟨rfl, ended⟩

theorem stirred_abandon (here : c.calls[n]? = some call) :
    c.Mild (c.abandon n call.work) [] := by
  have waiting : ∀ {work}, call.work = work → call.work.isWaiting = work.isWaiting :=
    congrArg Work.isWaiting
  cases asked : call.work with
  | queryOffering query | queryWaiting query | queryAwaiting query =>
    exact ⟨_, stirred_endQuery here query rfl, rfl, rfl⟩
  | sendWaiting stanza =>
    exact ⟨.withdraw n, .of_call here rfl rfl rfl trivial ⟨rfl, rfl⟩, rfl, rfl⟩
  | send | query | joining | leaving | join =>
    exact ⟨.nothing, .of_call here rfl rfl rfl trivial (waiting asked).symm, rfl, rfl⟩
  | done | cancelled =>
    refine ⟨.nothing, ⟨rfl, trivial, fun _ => rfl, fun _ awaits => ?_, ?_⟩, rfl, rfl⟩
    · cases awaits
    · exact (List.append_nil _).symm

/-- Every poll of a call updates the outbound half mildly. The cases follow `WorkStep`. -/
theorem WorkStep.stirred {sender : Bool} (here : c.calls[n]? = some call)
    (step : WorkStep c n sender call.work after) : ∃ put, c.Mild after put := by
  generalize asked : call.work = before at step
  have waiting : call.work.isWaiting = before.isWaiting := congrArg Work.isWaiting asked
  have idle : ∀ {work : Work}, before.isWaiting = work.isWaiting →
      work.isWaiting = call.work.isWaiting := fun same => (waiting.trans same).symm
  cases step with
  | fails => exact ⟨_, .nothing, .of_call here rfl rfl rfl trivial (idle rfl), rfl, rfl⟩
  | @sends stanza access reads room =>
    exact ⟨_, .put stanza, .of_call here rfl rfl rfl ⟨reads, room⟩ (idle rfl), rfl, rfl⟩
  | @queues query access reads room =>
    exact ⟨_, .put (.iq query.iq), .of_call here rfl rfl rfl ⟨reads, room⟩ (idle rfl), rfl, rfl⟩
  | sendWaits | queryWaits =>
    exact ⟨_, .await n, .of_call here rfl rfl rfl trivial ⟨rfl, waiting, rfl⟩, rfl, rfl⟩
  | failsLate => exact ⟨_, .withdraw n, .of_call here rfl rfl rfl trivial ⟨rfl, rfl⟩, rfl, rfl⟩
  | @sendsLate stanza reads room =>
    exact ⟨_, .redeem n stanza, .of_call here rfl rfl rfl ⟨reads, room⟩ ⟨rfl, rfl⟩, rfl, rfl⟩
  | @queuesLate query reads room =>
    exact ⟨_, .redeem n (.iq query.iq), .of_call here rfl rfl rfl ⟨reads, room⟩ ⟨rfl, rfl⟩, rfl,
      rfl⟩
  | @registers iq limit =>
    exact ⟨_, .nothing, .of_call here rfl rfl (outReports_startQuery iq limit) trivial (idle rfl),
      rfl, rfl⟩
  | @refused work query | @deserted query =>
    exact ⟨_, _, stirred_endQuery here query rfl, rfl, rfl⟩
  | @answered query stanza registry read =>
    have kept : (c.setRegistry registry).calls[n]? = some call := here
    have ended : (Work.done (.ofReply (some stanza))).isWaiting = false := rfl
    have rest := stirred_endQuery kept query ended
    exact ⟨_, _, ⟨rest.outflow, rest.fits, rest.row, rest.fresh, rest.told⟩, rfl, rfl⟩
  | finishes =>
    obtain ⟨outflow, -, calls, told⟩ := c.finishOwn_keeps
    have further : (c.finishOwn.setWork n .leaving).calls =
        c.calls.modify n fun call => { call with work := .leaving } := by rw [setWork, calls]
    exact ⟨_, .nothing, .of_call here further outflow told trivial (idle rfl), rfl, rfl⟩
  | leaves => exact ⟨_, .nothing, .of_call here rfl rfl rfl trivial (idle rfl), rfl, rfl⟩
  | joins =>
    exact ⟨_, .nothing, .of_call here rfl rfl (outReports_report_other rfl) trivial (idle rfl),
      rfl, rfl⟩

theorem stirred_callStep? (step : c.callStep? n = some after) : ∃ put, c.Mild after put := by
  obtain ⟨call, here, ⟨-, rfl⟩ | ⟨-, further⟩⟩ := callStep?_spec step
  · exact ⟨[], stirred_abandon here⟩
  · exact further.stirred here

theorem stirred_timerStep? (step : c.timerStep? n = some after) : c.Mild after [] := by
  obtain ⟨call, query, deadline, here, -, -, -, -, rfl⟩ := timerStep?_spec step
  exact ⟨_, stirred_endQuery here query rfl, rfl, rfl⟩

/-- An update beside the outbound channel, with at most the events of a termination attempt. -/
theorem Stirred.of_aside (waits : ∀ n, after.waits n = c.waits n)
    (outflow : after.outflow = c.outflow.touch c.faults touch) (aside : touch.isAside = true)
    (told : after.outReports =
      c.outReports ++ (touch.closer?.map (c.outflow.announces c.faults)).getD []) :
    c.Stirred after touch := by
  refine ⟨outflow, ?_, fun n => ?_, fun n awaits => ?_, told⟩
  · cases touch <;> trivial
  · rw [waits]
    cases touch <;> first | rfl | cases aside
  · subst awaits
    cases aside

theorem waits_of_calls (calls : after.calls = c.calls) (n : Nat) : after.waits n = c.waits n := by
  rw [waits, stands?, calls, waits, stands?]

theorem Mild.still (outflow : after.outflow = c.outflow)
    (waits : ∀ n, after.waits n = c.waits n) (told : after.outReports = c.outReports) :
    c.Mild after [] :=
  ⟨.nothing, .of_aside waits outflow rfl (told.trans (List.append_nil _).symm), rfl, rfl⟩

theorem Mild.refl (c : Conversation) : c.Mild c [] :=
  .still rfl (fun _ => rfl) rfl

theorem waits_addCall (call : Call) (fresh : call.work.isWaiting = false)
    (calls : after.calls = c.calls ++ [call]) (n : Nat) : after.waits n = c.waits n := by
  unfold waits stands?
  rw [calls, List.getElem?_append]
  split
  · rfl
  next beyond =>
    rw [List.getElem?_eq_none (Nat.le_of_not_lt beyond), List.getElem?_singleton]
    split
    · simp [fresh]
    · rfl

private theorem stirred_reaching {via : Via} {result : Answer × Conversation}
    (step : c.Mild result.2 []) :
    c.Mild (c.reaching via result).2 [] :=
  reaching_keeps (P := (c.Mild · [])) (.refl c) fun _ => step

private theorem stirred_ofPeer {result : Answer × Conversation}
    (step : c.Mild result.2 []) :
    c.Mild (c.ofPeer result).2 [] :=
  ofPeer_keeps (P := (c.Mild · [])) (.refl c) step

private theorem stirred_ofReceiver {id : FilterId} {result : Answer × Conversation}
    (step : c.Mild result.2 []) :
    c.Mild (c.ofReceiver id result).2 [] :=
  ofReceiver_keeps (P := (c.Mild · [])) (.refl c) step

/-- An action that neither terminates nor lets the peer receive updates the outbound half mildly and
puts nothing on the channel. The cases follow the actions. -/
theorem stirred_act {action : Action} (mild : action.isMild = true) :
    c.Mild (c.act action).2 [] := by
  cases action with
  | push arrival =>
    apply stirred_ofPeer
    unfold push
    split <;> exact .still rfl (fun _ => rfl) rfl
  | hangUp => exact stirred_ofPeer (.still rfl (fun _ => rfl) rfl)
  | dropPeer =>
    exact stirred_ofPeer
      ⟨.abandon, .of_aside (fun _ => rfl) rfl rfl (List.append_nil _).symm, rfl, rfl⟩
  | stall value =>
    exact ⟨.stall value, .of_aside (fun _ => rfl) rfl rfl (List.append_nil _).symm, rfl, rfl⟩
  | receive =>
    apply stirred_reaching
    unfold receive
    cases c.inflow.inbound.read (c.inflow.reader = .closed) <;> exact .still rfl (fun _ => rfl) rfl
  | receiveFrom id =>
    apply stirred_ofReceiver
    unfold receiveFrom
    cases c.inflow.registry.read id <;> exact .still rfl (fun _ => rfl) rfl
  | dropReceiver id => exact stirred_ofReceiver (.still rfl (fun _ => rfl) rfl)
  | setJid jid =>
    exact stirred_reaching (.still rfl (fun _ => rfl) (outReports_report_other rfl))
  | finish =>
    obtain ⟨outflow, -, calls, told⟩ := c.finishOwn_keeps
    exact stirred_reaching (.still outflow (waits_of_calls calls) told)
  | handle =>
    apply stirred_reaching
    split <;> exact .still rfl (fun _ => rfl) rfl
  | cloneHandle number | dropHandle number =>
    exact stirred_reaching (.still rfl (fun _ => rfl) rfl)
  | send via stanza =>
    exact stirred_reaching (.still rfl
      (waits_addCall ⟨c.canSend via, .send stanza, false⟩ rfl rfl) rfl)
  | query via iq limit =>
    exact stirred_reaching (.still rfl
      (waits_addCall ⟨c.canSend via, .query iq limit, false⟩ rfl rfl) rfl)
  | join =>
    exact stirred_reaching (.still rfl (waits_addCall ⟨false, .join, false⟩ rfl rfl) rfl)
  | dropOwn => exact stirred_reaching (.still rfl (fun _ => rfl) rfl)
  | abort call =>
    refine .still rfl (fun n => ?_) rfl
    simp only [act, waits, stands?, List.getElem?_modify]
    split
    · cases c.calls[n]? <;> rfl
    · simp
  | drop n =>
    rw [act]
    split
    next call here => exact stirred_abandon here
    · exact .refl c
  | addFilter via matcher =>
    exact stirred_reaching (.still rfl (fun _ => rfl) (outReports_addFilter matcher))
  | removeFilter via id =>
    apply stirred_reaching
    cases removed : c.removeFilter? id with
    | none => exact .refl c
    | some after =>
      obtain ⟨registry, found, rfl⟩ := Option.map_eq_some_iff.mp removed
      exact .still rfl (fun _ => rfl) (outReports_report_other rfl)
  | close | takeWrite | takeWrites => cases mild
  | advance milliseconds => exact .still rfl (fun _ => rfl) rfl

theorem stirred_observe (count : Nat) :
    c.Stirred (c.setWire { c.outflow.wire with writes := c.outflow.wire.writes.drop count })
      (.observe count) :=
  .of_aside (fun _ => rfl) rfl rfl (List.append_nil _).symm

theorem stirred_close (origin : Reporter) : c.Stirred (c.close origin).2 (.close origin) :=
  .of_aside (fun _ => rfl) rfl rfl (outReports_close origin)

end Conversation

open Conversation

namespace Moment

variable {m : Moment} {touch : Touch}

/-- The originator of a termination attempt in a step: the application, the sender task on a closed
and empty channel, or the receiver task in its last step. -/
def closer? (m : Moment) : Option Reporter :=
  match m.move with
  | .outside (.close via) =>
    if m.before.unreachable? via = none then some .application else none
  | .step .reader => if m.before.inflow.reader = .closing then some .reader else none
  | .step .writer => if m.before.outflow.asks m.before.producing then some .writer else none
  | _ => none

/-- The writes that the peer received in a step. -/
def observed (m : Moment) : List Write :=
  match m.move with
  | .outside .takeWrite => (m.before.act .takeWrite).1.observed
  | .outside .takeWrites => (m.before.act .takeWrites).1.observed
  | _ => []

/-- The operation that a step performs on the outbound half. -/
structure Stirs (m : Moment) (touch : Touch) : Prop where
  stirred : m.before.Stirred m.after touch
  closer? : m.closer? = touch.closer?
  other : m.closer? ≠ some .writer
  observed : m.observed = touch.observed m.before.outflow.wire
  puts : touch.put? ≠ [] → ∃ n, m.move = .step (.call n)

/-- A poll of the sender task with its events. -/
structure Writes (m : Moment) (events : List Event) : Prop where
  advance : Outflow.Advance m.before.faults m.before.producing m.before.outflow events
    m.after.outflow
  closer? : m.closer? = if m.before.outflow.asks m.before.producing then some .writer else none
  observed : m.observed = []
  row : ∀ n, m.after.waits n = m.before.waits n
  told : m.after.outReports = m.before.outReports ++ events.map (⟨.writer, ·⟩)

private theorem stirs_of_mild {put : List Stanza} (mild : m.before.Mild m.after put)
    (unasked : m.closer? = none) (unobserved : m.observed = [])
    (puts : put ≠ [] → ∃ n, m.move = .step (.call n)) : ∃ touch, m.Stirs touch := by
  obtain ⟨touch, stirred, still, rfl⟩ := mild
  obtain ⟨quiet, unseen⟩ := Touch.of_isMild still m.before.outflow.wire
  exact ⟨touch, stirred, unasked.trans quiet.symm, by simp [unasked], unobserved.trans unseen.symm,
    puts⟩

/-- The observations of the peer take writes off the wire. -/
private theorem stirs_ofPeer {c : Conversation} {action : Action} {result : Answer × Conversation}
    (acts : c.act action = c.ofPeer result)
    (unasked : closer? ⟨c, .outside action⟩ = none)
    (sees : observed ⟨c, .outside action⟩ = (c.act action).1.observed)
    (count : Nat) (writes : result.1.observed = c.outflow.wire.writes.take count)
    (after : result.2 =
      c.setWire { c.outflow.wire with writes := c.outflow.wire.writes.drop count }) :
    ∃ touch, Stirs ⟨c, .outside action⟩ touch := by
  cases listens : c.outflow.wire.listening with
  | false =>
    have gone : c.act action = (.gone .peer, c) := by simp [acts, ofPeer, listens]
    have void : Moment.after ⟨c, .outside action⟩ = c := congrArg Prod.snd gone
    refine stirs_of_mild ?_ unasked ?_ fun any => absurd rfl any
    · rw [void]
      exact .refl c
    · rw [sees, gone]
      rfl
  | true =>
    have acted : c.act action = result := by simp [acts, ofPeer, listens]
    have reached : Moment.after ⟨c, .outside action⟩ = _ := (congrArg Prod.snd acted).trans after
    refine ⟨.observe count, ?_, unasked, by simp [unasked], ?_, fun any => absurd rfl any⟩
    · rw [reached]
      exact stirred_observe count
    · rw [sees, acted, writes]
      rfl

/-- Every action updates the outbound half once. -/
private theorem stirs_outside (c : Conversation) (action : Action) :
    ∃ touch, Stirs ⟨c, .outside action⟩ touch := by
  cases mild : action.isMild with
  | true =>
    refine stirs_of_mild (stirred_act mild) ?_ ?_ (absurd rfl ·) <;>
    · cases action <;> first | rfl | cases mild
  | false =>
    cases action with
    | close via =>
      cases gone : c.unreachable? via with
      | some missing =>
        have void : after ⟨c, .outside (.close via)⟩ = c := by
          simp [after, Conversation.move, act, reaching, gone]
        exact stirs_of_mild (by rw [void]; exact .refl c) (by simp [closer?, gone]) rfl
          (absurd rfl ·)
      | none =>
        have reached : after ⟨c, .outside (.close via)⟩ = (c.close .application).2 := by
          simp [after, Conversation.move, act, reaching, gone]
        refine ⟨.close .application, ?_, by simp [closer?, gone, Touch.closer?],
          by simp [closer?, gone], rfl, (absurd rfl ·)⟩
        rw [reached]
        exact stirred_close .application
    | takeWrite =>
      cases writes : c.outflow.wire.writes with
      | nil =>
        have nothing : c.takeWrite.1.observed = [] ∧ c.takeWrite.2 = c := by
          rw [takeWrite, Wire.take?, writes]
          cases c.linked <;> exact ⟨rfl, rfl⟩
        exact stirs_ofPeer rfl rfl rfl 0 nothing.1 nothing.2
      | cons first rest =>
        refine stirs_ofPeer rfl rfl rfl 1 ?_ ?_ <;> rw [takeWrite, Wire.take?, writes] <;> rfl
    | takeWrites =>
      refine stirs_ofPeer rfl rfl rfl c.outflow.wire.writes.length ?_ ?_
      · exact List.take_length.symm
      · rw [List.drop_length]
    | _ => cases mild

/-- The receiver task touches the outbound half only by its termination attempt. -/
private theorem stirs_reader (c : Conversation) : ∃ touch, Stirs ⟨c, .step .reader⟩ touch := by
  by_cases closing : c.inflow.reader = .closing
  · have stirred := stirred_close (c := c) .reader
    refine ⟨.close .reader, ?_, by simp [closer?, closing, Touch.closer?],
      by simp [closer?, closing], rfl, (absurd rfl ·)⟩
    simp only [after, Conversation.move, step?, readerStep?, closing, if_true, Option.getD_some]
    refine ⟨stirred.outflow, stirred.fits, stirred.row, stirred.fresh, Eq.trans ?_ stirred.told⟩
    exact outReports_report_other rfl
  · have mild : c.Mild (c.move (.step .reader)) [] := by
      simp only [Conversation.move, step?, readerStep?, if_neg closing]
      cases moved : c.inflow.step? c.faults c.trace with
      | none => exact .refl c
      | some read =>
        have quiet := Inflow.tellsOut_step? moved
        refine .still rfl (fun _ => rfl) ?_
        have silent : read.2.filter Event.tellsOut = [] :=
          List.filter_eq_nil_iff.mpr fun event member => by simp [quiet event member]
        simp only [Option.map_some, Option.getD_some, outReports_report, silent]
        exact List.append_nil _
    exact stirs_of_mild mild (by simp [closer?, closing]) rfl (absurd rfl ·)

private theorem stirs_call (c : Conversation) (n : Nat) :
    ∃ touch, Stirs ⟨c, .step (.call n)⟩ touch := by
  have moved : ∃ put, c.Mild (c.move (.step (.call n))) put := by
    rw [Conversation.move, step?]
    cases stepped : c.callStep? n with
    | none => exact ⟨[], .refl c⟩
    | some after => exact stirred_callStep? stepped
  obtain ⟨put, mild⟩ := moved
  exact stirs_of_mild mild rfl rfl fun _ => ⟨n, rfl⟩

private theorem stirs_timer (c : Conversation) (n : Nat) :
    ∃ touch, Stirs ⟨c, .step (.timer n)⟩ touch := by
  have mild : c.Mild (c.move (.step (.timer n))) [] := by
    rw [Conversation.move, step?]
    cases stepped : c.timerStep? n with
    | none => exact .refl c
    | some after => exact stirred_timerStep? stepped
  exact stirs_of_mild mild rfl rfl (absurd rfl ·)

/-- A step of the sender task is described by its events. -/
private theorem writes_writer (c : Conversation) : ∃ events, Writes ⟨c, .step .writer⟩ events := by
  cases wrote : c.outflow.step? c.faults c.trace c.producing with
  | none =>
    have idle := Outflow.step?_eq_none wrote
    have still : after ⟨c, .step .writer⟩ = c := by
      simp [after, Conversation.move, step?, writerStep?, wrote]
    refine ⟨[], ?_, rfl, rfl, fun n => ?_, ?_⟩ <;> rw [still]
    · exact .waits idle
    · exact (List.append_nil _).symm
  | some written =>
    obtain ⟨outflow, events⟩ := written
    have advance := Outflow.step?_advance wrote
    have stepped : after ⟨c, .step .writer⟩ = { c with outflow }.report .writer events := by
      simp [after, Conversation.move, step?, writerStep?, wrote]
    refine ⟨events, ?_, rfl, rfl, fun n => ?_, ?_⟩ <;> rw [stepped]
    · exact advance
    · rfl
    · rw [outReports_report, List.filter_eq_self.mpr advance.tellsOut]
      rfl

/-- Inversion of a move on the outbound side. -/
theorem stirs_or_writes (m : Moment) : (∃ touch, m.Stirs touch) ∨ ∃ events, m.Writes events := by
  obtain ⟨c, move⟩ := m
  cases move with
  | outside action => exact .inl (stirs_outside c action)
  | step agent =>
    cases agent with
    | reader => exact .inl (stirs_reader c)
    | writer => exact .inr (writes_writer c)
    | call n => exact .inl (stirs_call c n)
    | timer n => exact .inl (stirs_timer c n)

/-- The reports of terminations in a step are those of its originator. -/
theorem endReports_after (m : Moment) :
    m.after.endReports = m.before.endReports ++
      (m.closer?.map (m.before.outflow.announces m.before.faults)).getD [] := by
  rw [endReports_eq, endReports_eq]
  rcases m.stirs_or_writes with ⟨touch, stirs⟩ | ⟨events, writes⟩
  · have announced : ∀ origin, (m.before.outflow.announces m.before.faults origin).filter
        (·.event.tellsEnd) = m.before.outflow.announces m.before.faults origin := by
      intro origin
      refine List.filter_eq_self.mpr fun report member => ?_
      obtain ⟨event, told, rfl⟩ := List.mem_map.mp member
      exact Outflow.tellsEnd_close event told
    rw [stirs.closer?, stirs.stirred.told, List.filter_append]
    cases touch.closer? with
    | none => rfl
    | some origin => exact congrArg _ (announced origin)
  · rw [writes.told, writes.closer?, List.filter_append, List.filter_map]
    congr 1
    rw [Function.comp_def, writes.advance.tellsEnd]
    cases m.before.outflow.asks m.before.producing <;> rfl

end Moment

end StanzaExchange
