import StanzaExchange.Conversation.Tasks
import StanzaExchange.Channel

/-!
The scheduler: polls by the run queue until every agent is pending. An agent that made a step is
polled again until it is pending, and the others follow in the order in which they were woken. A
query whose deadline had passed before it began to wait times out in its own turn; timers fire only
when no task and no call can make a step. Every step lowers `effort`, so that many polls suffice.

The order is that of one scheduler of the program and serves the scripts; the theorems quantify over
all orders of moves.
-/
namespace StanzaExchange

namespace Reader

/-- The polls left to the receiver task for what it has in hand. -/
def effort : Reader → Nat
  | .closed => 0
  | .closing => 1
  | .failing _ => 2
  | .reading => 3
  | .surfacing _ => 4
  | .routing _ rest _ => 5 + rest.length

end Reader

namespace Writer

def effort : Writer → Nat
  | .closed => 0
  | .taking => 1
  | .writing _ => 2

end Writer

namespace Work

/-- The polls left to a call, with those of the sender task for what it sends. -/
def effort : Work → Nat
  | .done _ | .cancelled => 0
  | .joining | .queryAwaiting _ => 1
  | .leaving => 2
  | .join | .sendWaiting _ => 3
  | .send _ | .queryWaiting _ => 4
  | .queryOffering _ => 5
  | .query _ _ => 6

def addsFilter : Work → Bool
  | .query _ _ => true
  | _ => false

end Work

namespace Conversation

/-- The largest possible snapshot before the next action. -/
def filterBound (c : Conversation) : Nat :=
  c.inflow.registry.active.length + c.calls.countP fun call => call.work.addsFilter

/-- An upper bound for the number of steps until every agent is pending. -/
def effort (c : Conversation) : Nat :=
  c.inflow.feed.arrivals.length * (c.filterBound + 3) + c.inflow.reader.effort +
    2 * c.outflow.outbound.queue.length + c.outflow.writer.effort +
    c.calls.foldr (fun call rest => call.work.effort + rest) 0

def canStep (c : Conversation) (agent : Agent) : Bool := (c.step? agent).isSome

/-- The run queue; timers join it only when no task and no call can make a step. -/
def upcoming (c : Conversation) (aside : Agent → Bool) (queue : List Agent) : List Agent :=
  match Turns.upcoming c.canStep aside c.workers queue with
  | [] => c.timers.filter c.canStep
  | agents => agents

/-- Whether a call is pending past a deadline that had been reached before. -/
def isLate (c : Conversation) (reached : Nat) (n : Nat) : Bool :=
  ((c.calls[n]?).bind waitingQuery?).any fun (_, deadline) => deadline ≤ reached

/-- The agents polled right after a step of an agent. -/
def followers (c : Conversation) (reached : Nat) : Agent → List Agent
  | .call n => if c.isLate reached n then [.call n, .timer n] else [.call n]
  | agent => [agent]

/-- At most so many polls of the agents not set aside. -/
def runSteps (aside : Agent → Bool) (reached : Nat) :
    Nat → List Agent → Conversation → Conversation
  | 0, _, c => c
  | steps + 1, queue, c =>
    match c.upcoming aside queue with
    | [] => c
    | agent :: rest =>
      match c.step? agent with
      | none => c
      | some after => runSteps aside reached steps (after.followers reached agent ++ rest) after

/-- Polls until every agent is pending, where the clock stood at `reached` before. -/
def settleSince (c : Conversation) (reached : Nat) (queue : List Agent) : Conversation :=
  runSteps (fun _ => false) reached c.effort queue c

/-- The polls that one call can make on its own. -/
def runCall (n : Nat) : Nat → Conversation → Conversation
  | 0, c => c
  | steps + 1, c =>
    match c.callStep? n with
    | none => c
    | some after => runCall n steps after

def advanceCall (c : Conversation) (n : Nat) : Conversation := runCall n c.effort c

def hasEnded (c : Conversation) (n : Nat) : Bool :=
  (c.calls[n]?).all fun call => !call.work.isRunning

/-- Rounds in which a call is polled after all other agents are pending. -/
def runRounds (n : Nat) : Nat → List Agent → Conversation → Conversation
  | 0, _, c => c
  | rounds + 1, queue, c =>
    if c.hasEnded n then c
    else
      let rested := runSteps (fun agent => agent = .call n) c.clock c.effort queue c
      if rested.canStep (.call n) then runRounds n rounds [] (rested.advanceCall n) else rested

/-- Polls until a call is finished or every agent is pending. -/
def settleFor (c : Conversation) (n : Nat) (queue : List Agent) : Conversation :=
  runRounds n c.effort queue c

/-- Every agent is pending or finished. -/
def AtRest (c : Conversation) : Prop := ∀ agent, c.step? agent = none

end Conversation

end StanzaExchange
