import Mathlib.Data.List.Induction
import StanzaExchange.Conversation.Actions
import StanzaExchange.Proofs.Calls
import StanzaExchange.Proofs.Sequences

/-!
Executions of a conversation. A move is an action or a poll of an agent, a pending poll changing
nothing; a course is an initial state with a list of moves, in any order. Observations of an
execution (`fed`, `read`, `handed`, `surfaced`, `received`, `returned`) are defined by the results
of the actions and by the growth of the queues, never by bookkeeping inside the model.
`Course.induction` is the induction principle of all run theorems.
-/
namespace StanzaExchange

/-- An action, or a poll of an agent. -/
inductive Move where
  | outside (action : Action)
  | step (agent : Agent)

namespace Conversation

def move (c : Conversation) : Move → Conversation
  | .outside action => (c.act action).2
  | .step agent => (c.step? agent).getD c

def run (c : Conversation) (moves : List Move) : Conversation := moves.foldl move c

/-- Whether a call that is not aborted is pending on the receiver of a filter. -/
def awaits (c : Conversation) (n : Nat) (id : FilterId) : Bool :=
  (c.calls[n]?).any fun call => !call.aborted && call.work.awaited? == some id

end Conversation

/-- A step of an execution: the state before it and the move. -/
structure Moment where
  before : Conversation
  move : Move

/-- The steps of an execution, in order. -/
abbrev History := List Moment

def Conversation.moments (c : Conversation) : List Move → History
  | [] => []
  | move :: rest => ⟨c, move⟩ :: (c.move move).moments rest

/-- An execution: the parameters of the initial state, and the moves. -/
structure Course where
  jid : Jid
  settings : Settings
  faults : Faults := .none
  moves : List Move

namespace Course

/-- The initial state. -/
def origin (k : Course) : Conversation := .start k.jid k.settings k.faults

/-- The final state. -/
def now (k : Course) : Conversation := k.origin.run k.moves

/-- The steps. -/
def past (k : Course) : History := k.origin.moments k.moves

/-- An execution that is continued. -/
def andThen (k : Course) (more : List Move) : Course := { k with moves := k.moves ++ more }

end Course

def Answer.stanza? : Answer → Option Stanza
  | .stanza found => some found
  | _ => none

namespace Moment

def after (m : Moment) : Conversation := m.before.move m.move

/-- The arrival that the peer fed successfully. -/
def fed (m : Moment) : List Arrival :=
  match m.move with
  | .outside (.push arrival) =>
    if (m.before.act (.push arrival)).1 = .flag true then [arrival] else []
  | _ => []

/-- The arrivals taken from the feed. -/
def read (m : Moment) : List Arrival :=
  let arrivals := m.before.inflow.feed.arrivals
  arrivals.take (arrivals.length - m.after.inflow.feed.arrivals.length)

/-- The deliveries to filters. -/
def handed (m : Moment) : List (FilterId × Stanza) :=
  (List.range m.after.inflow.registry.nextId).flatMap fun id =>
    (gained (m.before.inflow.registry.queueOf id) (m.after.inflow.registry.queueOf id)).map (id, ·)

/-- The stanzas put on the inbound channel. -/
def surfaced (m : Moment) : List Stanza :=
  gained m.before.inflow.inbound.queue m.after.inflow.inbound.queue

/-- The stanzas put on the outbound channel. -/
def queued (m : Moment) : List Stanza :=
  gained m.before.outflow.outbound.queue m.after.outflow.outbound.queue

/-- The stanzas that the application received from the inbound channel. -/
def received (m : Moment) : List Stanza :=
  match m.move with
  | .outside .receive => (m.before.act .receive).1.stanza?.toList
  | _ => []

/-- The stanzas received from a delivery channel, by the application or by a query. -/
def returned (m : Moment) (id : FilterId) : List Stanza :=
  match m.move with
  | .outside (.receiveFrom other) =>
    if id = other then (m.before.act (.receiveFrom id)).1.stanza?.toList else []
  | .step (.call n) =>
    if m.before.awaits n id then (m.before.inflow.registry.queueOf id).head?.toList else []
  | _ => []

end Moment

namespace History

/-- The arrivals fed. -/
def fed (h : History) : List Arrival := h.flatMap Moment.fed

/-- The arrivals read. -/
def read (h : History) : List Arrival := h.flatMap Moment.read

/-- The deliveries to filters, in order. -/
def handed (h : History) : List (FilterId × Stanza) := h.flatMap Moment.handed

/-- The filters of the deliveries, in order. -/
def takers (h : History) : List FilterId := h.handed.map Prod.fst

/-- The deliveries to one filter. -/
def handedTo (h : History) (id : FilterId) : List Stanza := Inflow.handsTo id h.handed

/-- The stanzas put on the inbound channel. -/
def surfaced (h : History) : List Stanza := h.flatMap Moment.surfaced

/-- The stanzas received from the inbound channel. -/
def received (h : History) : List Stanza := h.flatMap Moment.received

/-- The stanzas received from a delivery channel. -/
def returned (h : History) (id : FilterId) : List Stanza := h.flatMap (Moment.returned · id)

end History

theorem Conversation.moments_append (c : Conversation) (moves more : List Move) :
    c.moments (moves ++ more) = c.moments moves ++ (c.run moves).moments more := by
  induction moves generalizing c with
  | nil => rfl
  | cons move rest ih => simp [moments, run, ih]

theorem Conversation.run_append (c : Conversation) (moves more : List Move) :
    c.run (moves ++ more) = (c.run moves).run more :=
  List.foldl_append

/-- Induction over executions from a given state, with the history in the invariant. -/
theorem Conversation.run_induction {P : History → Conversation → Prop} {c : Conversation}
    (base : P [] c)
    (step : ∀ past now move, P past now → P (past ++ [⟨now, move⟩]) (now.move move))
    (moves : List Move) : P (c.moments moves) (c.run moves) := by
  induction moves using List.reverseRecOn with
  | nil => exact base
  | append_singleton moves move ih =>
    rw [moments_append, run_append]
    exact step _ _ move ih

theorem Conversation.run_keeps {P : Conversation → Prop}
    (keeps : ∀ now move, P now → P (now.move move)) {c : Conversation} (start : P c)
    (moves : List Move) : P (c.run moves) :=
  run_induction (P := fun _ now => P now) start (fun _ => keeps) moves

/-- Backward preservation. -/
theorem Conversation.of_run {P : Conversation → Prop}
    (back : ∀ now move, P (now.move move) → P now) {c : Conversation} {moves : List Move}
    (later : P (c.run moves)) : P c := by
  induction moves using List.reverseRecOn with
  | nil => exact later
  | append_singleton moves move ih =>
    rw [run_append] at later
    exact ih (back _ move later)

/-- Induction over the moves of a course. -/
theorem Course.induction {P : History → Conversation → Prop} (k : Course) (base : P [] k.origin)
    (step : ∀ (moves : List Move) (move : Move), let j : Course := { k with moves }
      P j.past j.now → P (j.past ++ [⟨j.now, move⟩]) (j.now.move move)) : P k.past k.now := by
  have reached : ∀ moves, P (k.origin.moments moves) (k.origin.run moves) := by
    intro moves
    induction moves using List.reverseRecOn with
    | nil => exact base
    | append_singleton moves move ih =>
      rw [Conversation.moments_append, Conversation.run_append]
      exact step moves move ih
  exact reached k.moves

/-- A history splits where its moves do. -/
theorem Conversation.moments_split {c : Conversation} {moves : List Move} {before after : History}
    {m : Moment} (split : c.moments moves = before ++ m :: after) :
    ∃ early late, moves = early ++ m.move :: late ∧ before = c.moments early ∧
      m.before = c.run early := by
  induction moves generalizing c before with
  | nil => simp [moments] at split
  | cons move rest ih =>
    cases before with
    | nil =>
      obtain ⟨rfl, -⟩ := List.cons.inj split
      exact ⟨[], rest, rfl, rfl, rfl⟩
    | cons first others =>
      obtain ⟨rfl, later⟩ := List.cons.inj split
      obtain ⟨early, late, rfl, rfl, reached⟩ := ih later
      exact ⟨move :: early, late, rfl, rfl, reached⟩

/-- Every step of an execution starts in the final state of a prefix of it. -/
theorem Course.exists_until {k : Course} {before after : History} {m : Moment}
    (split : k.past = before ++ m :: after) :
    ∃ (j : Course) (more : List Move), k = j.andThen (m.move :: more) ∧ before = j.past ∧
      m.before = j.now := by
  obtain ⟨early, late, moves, past, reached⟩ := Conversation.moments_split split
  refine ⟨{ k with moves := early }, late, ?_, past, reached⟩
  rw [andThen, ← moves]

theorem Course.past_andThen (k : Course) (more : List Move) :
    (k.andThen more).past = k.past ++ k.now.moments more :=
  k.origin.moments_append k.moves more

theorem Course.andThen_concat (k : Course) (moves : List Move) (move : Move) :
    k.andThen (moves ++ [move]) = (k.andThen moves).andThen [move] := by
  simp [andThen]

theorem Course.andThen_cons (k : Course) (move : Move) (more : List Move) :
    k.andThen (move :: more) = (k.andThen [move]).andThen more := by
  simp [andThen]

/-- Induction along an extension of an execution. -/
theorem Course.andThen_induction {P : Course → Prop} (k : Course) (first : Move)
    (base : P (k.andThen [first])) (step : ∀ j move, P j → P (j.andThen [move]))
    (more : List Move) : P (k.andThen (first :: more)) := by
  induction more using List.reverseRecOn with
  | nil => exact base
  | append_singleton moves move ih =>
    rw [← List.cons_append, andThen_concat]
    exact step _ move ih

theorem Course.now_andThen (k : Course) (more : List Move) :
    (k.andThen more).now = k.now.run more :=
  k.origin.run_append k.moves more

theorem Course.past_move (k : Course) (move : Move) :
    (k.andThen [move]).past = k.past ++ [⟨k.now, move⟩] :=
  k.past_andThen [move]

theorem Course.now_move (k : Course) (move : Move) :
    (k.andThen [move]).now = k.now.move move :=
  k.now_andThen [move]

/-- An observation that is empty under an invariant adds nothing to a continued execution. -/
theorem Course.seen_andThen {α : Type} (seen : Moment → List α) {P : Conversation → Prop}
    (quiet : ∀ now move, P now → seen ⟨now, move⟩ = [] ∧ P (now.move move)) {k : Course}
    (start : P k.now) (more : List Move) :
    (k.andThen more).past.flatMap seen = k.past.flatMap seen := by
  have unseen : (k.now.moments more).flatMap seen = [] ∧ P (k.now.run more) := by
    refine Conversation.run_induction (P := fun past now => past.flatMap seen = [] ∧ P now)
      ⟨rfl, start⟩ ?_ more
    rintro past now move ⟨none, holds⟩
    obtain ⟨nothing, kept⟩ := quiet now move holds
    exact ⟨by simp [none, nothing], kept⟩
  rw [past_andThen, List.flatMap_append, unseen.1, List.append_nil]

end StanzaExchange
