import StanzaExchange.Proofs.Deeds

/-!
Independence of the two directions: the tasks coordinate only through the registry and the end of
the stream (section 2 of the specification). Moves of the outbound side leave the inbound half
unchanged, so executions that differ in such moves only have equal inbound halves. Calls of
`send_recv` belong to both sides: their polls are outbound as long as they keep the correlation
filter, and its removal is inbound. Conversely, the receiver task leaves the outbound half unchanged
before its last poll.
-/
namespace StanzaExchange

open Conversation
open Inflow (Touch Deed)

def Work.isSend : Work → Bool
  | .send _ | .sendWaiting _ => true
  | _ => false

/-- The actions about sending, handles and the end of the stream. -/
def Action.isOutbound : Action → Bool
  | .send _ _ | .finish | .handle | .cloneHandle _ | .dropHandle _ | .close _ | .abort _
  | .takeWrite | .takeWrites | .stall _ => true
  | _ => false

namespace Moment

variable {m : Moment} {n : Nat}

/-- The call is a `send`, or a query that keeps its filter in this step. -/
def handsOut (m : Moment) (n : Nat) : Bool := (m.before.stands? n).any fun standing =>
  standing.2.isSend || standing.2.query?.isSome && m.after.query? n = standing.2.query?

/-- The moves of the outbound side: polls and cancellation of sending calls, the sender task, and
the actions about handles and the end of the stream. -/
def isOutbound (m : Moment) : Bool :=
  match m.move with
  | .step .writer => true
  | .step .reader | .step (.timer _) => false
  | .step (.call n) | .outside (.drop n) => m.handsOut n
  | .outside action => action.isOutbound

private theorem touch?_of_kept {work later : Work} {query : Query} (has : work.query? = some query)
    (keeps : later.query? = some query) : work.touch? later = none := by
  cases work <;> simp_all [Work.touch?, Work.query?, Work.holdsInbound]

/-- A `send` does not change the inbound half. -/
private theorem touch?_of_send {call : Call} {givenUp : Bool} {touch : Touch} {put : List Stanza}
    {later : Work} (sends : call.work.isSend = true)
    (turn : Turn m.before call givenUp touch put later) : call.work.touch? later = none := by
  have unasked : later.query? = none := by
    cases turn with
    | plain running before after =>
      refine Option.eq_none_iff_forall_ne_some.mpr fun query has => ?_
      rw [Work.isQuery_of_query? has] at after
      cases after.1
    | expires has | abandons has => cases asked : call.work <;> simp_all [Work.isSend, Work.query?]
    | queues unsent | refused unsent =>
      rcases unsent with asked | asked <;> simp [asked, Work.isSend] at sends
    | registers asked | waits asked | answered asked | deserted asked | forgets asked =>
      simp [asked, Work.isSend] at sends
  cases asked : call.work <;> simp_all [Work.isSend, Work.touch?, Work.query?, Work.holdsInbound]

/-- Neither does a query that keeps its filter. -/
theorem turnOf_of_handsOut (out : m.handsOut n = true) : m.turnOf n = none := by
  obtain ⟨⟨sender, work⟩, stands, reason⟩ := (Option.any_eq_true _ _).mp out
  rcases Bool.or_eq_true_iff.mp reason with sends | keeps
  · rcases m.stands_or_turned stands with same |
      ⟨call, givenUp, touch, put, later, -, -, rfl, -, turned, now⟩
    · exact turnOf_of_same (same.trans stands.symm)
    · rw [turnOf, stands, now]
      exact touch?_of_send sends turned.turn
  · obtain ⟨asks, same⟩ := Bool.and_eq_true_iff.mp keeps
    obtain ⟨query, has⟩ := Option.isSome_iff_exists.mp asks
    have later : m.after.query? n = some query := (of_decide_eq_true same).trans has
    obtain ⟨standing, now, kept⟩ := Option.bind_eq_some_iff.mp later
    rw [turnOf, stands, now]
    exact touch?_of_kept has kept

/-- A move of the outbound side has no deed. -/
theorem deed?_of_isOutbound (out : m.isOutbound = true) : m.deed? = none := by
  obtain ⟨c, move⟩ := m
  cases move with
  | outside action =>
    cases action with
    | drop n => exact congrArg (Option.map Deed.touch) (turnOf_of_handsOut out)
    | send | finish | handle | cloneHandle | dropHandle | close | abort | takeWrite | takeWrites
    | stall => simp [deed?, Conversation.touch?, Action.touch?]
    | _ => cases out
  | step agent =>
    cases agent with
    | writer => rfl
    | call n => exact congrArg (Option.map Deed.touch) (turnOf_of_handsOut out)
    | reader | timer => cases out

end Moment

/-- The deeds, without the moves of the outbound side. -/
def History.inboundDeeds (h : History) : List Deed := deeds (h.filter fun m => !m.isOutbound)

/-- Leaving out the moves of the outbound side leaves out no deed. -/
theorem History.inboundDeeds_eq (h : History) : h.inboundDeeds = h.deeds := by
  induction h with
  | nil => rfl
  | cons m rest ih =>
    rw [inboundDeeds, deeds] at ih
    cases out : m.isOutbound with
    | true =>
      have none := Moment.deed?_of_isOutbound out
      simp [inboundDeeds, deeds, out, none, ih]
    | false => cases deed : m.deed? <;> simp [inboundDeeds, deeds, out, deed, ih]

namespace Inflow

/-- The stanzas put on the inbound channel. -/
def surfaced (i after : Inflow) : List Stanza := gained i.inbound.queue after.inbound.queue

/-- The stanzas put on the filter channels. -/
def handed (i after : Inflow) : List (FilterId × Stanza) :=
  (List.range after.registry.nextId).flatMap fun id =>
    (gained (i.registry.queueOf id) (after.registry.queueOf id)).map (id, ·)

end Inflow

namespace Course

variable {j k : Course}

/-- Two executions with the same start of the inbound half that differ in moves of the outbound side
only, for any stanzas, recipients and faults there. -/
structure Agree (j k : Course) : Prop where
  faults : j.faults.inbound = k.faults.inbound
  filters : j.settings.filterCapacity = k.settings.filterCapacity
  inbound : j.settings.inboundCapacity = k.settings.inboundCapacity
  deeds : j.past.inboundDeeds = k.past.inboundDeeds

theorem Agree.origin (agree : j.Agree k) : j.origin.inflow = k.origin.inflow := by
  simp [Course.origin, start, agree.filters, agree.inbound]

/-- Anything seen of the inbound half is the same in both. -/
theorem Agree.seen {α : Type} (agree : j.Agree k) (see : Inflow → Inflow → List α)
    (still : ∀ i, see i i = []) : j.now.inflow = k.now.inflow ∧
      j.past.flatMap (fun m => see m.before.inflow m.after.inflow) =
        k.past.flatMap (fun m => see m.before.inflow m.after.inflow) := by
  obtain ⟨inflow, seen⟩ := j.told_by_deeds see still
  obtain ⟨inflow', seen'⟩ := k.told_by_deeds see still
  have deeds : j.past.deeds = k.past.deeds := by
    rw [← History.inboundDeeds_eq, agree.deeds, History.inboundDeeds_eq]
  rw [inflow, seen, inflow', seen', deeds, agree.faults, agree.origin]
  exact ⟨rfl, rfl⟩

/-- Two elements are fed, one of which a filter takes. -/
def quiet : Course where
  jid := ⟨none, "example", none⟩
  settings := {}
  moves :=
    [.outside (.addFilter .own (.named "message")),
      .outside (.push (.element (.named "message"))), .step .reader,
      .outside (.push (.element (.named "presence")))] ++ List.replicate 6 (.step .reader)

/-- The same with a handle, a message that is written, one that is cancelled, and an early end of
the stream. -/
def busy : Course where
  jid := ⟨none, "other", none⟩
  settings := { outboundCapacity := 1, traceStanzas := true }
  faults := { sendEnd := true }
  moves :=
    [.outside .handle, .outside (.addFilter (.handle 0) (.named "message")),
      .outside (.send (.handle 0) (.presence {})), .outside (.send (.handle 0) (.message {})),
      .step (.call 0), .step (.call 1), .outside (.push (.element (.named "message"))),
      .outside (.drop 1), .step .writer, .step .reader, .outside (.close .own),
      .outside (.push (.element (.named "presence"))), .step .reader, .step .writer,
      .outside .finish, .outside (.dropHandle 0)] ++ List.replicate 5 (.step .reader)

end Course

end StanzaExchange
