import StanzaExchange.Registry
import StanzaExchange.Channel

/-!
Concurrent deliveries to the filters of a registry (sections 4.2 and 10.2 of the specification,
module filter: removal aborts a delivery in flight). Any number of deliveries run at the same time,
each as a task that attempts to send and otherwise waits in the channel of its filter. A delivery
fails when its filter is removed, also if a slot became free meanwhile, and when the receiver is
dropped.

A step is one poll of a delivery task on a single-threaded scheduler; `settle` runs the tasks in the
order of the run queue until none can make a step.
-/
namespace StanzaExchange

inductive Delivery.Stage where
  | fresh
  | waiting
  | done (delivered : Bool)
  | aborted
  deriving DecidableEq, Repr

structure Delivery where
  filter : FilterId
  stanza : Stanza
  stage : Delivery.Stage := .fresh
  /-- Whether the task is aborted at its next poll. -/
  unwanted : Bool := false
  deriving DecidableEq

structure Dispatch where
  registry : Registry
  deliveries : List Delivery := []

/-- The number of polls a delivery can still make. -/
def Delivery.Stage.effort : Delivery.Stage → Nat
  | .fresh => 2
  | .waiting => 1
  | .done _ | .aborted => 0

namespace Dispatch

/-- Spawns a delivery; its number is its position. -/
def begin (d : Dispatch) (filter : FilterId) (stanza : Stanza) : Dispatch :=
  { d with deliveries := d.deliveries ++ [{ filter, stanza }] }

def setStage (d : Dispatch) (n : Nat) (stage : Delivery.Stage) : Dispatch :=
  { d with deliveries := d.deliveries.modify n fun delivery => { delivery with stage } }

def withdraw (d : Dispatch) (n : Nat) (filter : FilterId) : Dispatch :=
  { d with registry := d.registry.modifyChannel filter (·.withdraw n) }

/-- One poll of a delivery that is not aborted; `none` if it is pending or finished. -/
def deliveryStep? (d : Dispatch) (n : Nat) (delivery : Delivery) : Option Dispatch :=
  match delivery.stage with
  | .fresh =>
    match d.registry.offer delivery.filter delivery.stanza with
    | .accepted registry => some ({ d with registry }.setStage n (.done true))
    | .refused => some (d.setStage n (.done false))
    | .full =>
      some ({ d with
        registry := d.registry.modifyChannel delivery.filter (·.await n) }.setStage n .waiting)
  | .waiting =>
    match d.registry.offerWith delivery.filter (·.offerAs n delivery.stanza) with
    | .accepted registry => some ({ d with registry }.setStage n (.done true))
    | .refused => some ((d.withdraw n delivery.filter).setStage n (.done false))
    | .full => none
  | .done _ | .aborted => none

/-- Aborts a delivery that is not finished. -/
def abort? (d : Dispatch) (n : Nat) (delivery : Delivery) : Option Dispatch :=
  match delivery.stage with
  | .fresh => some (d.setStage n .aborted)
  | .waiting => some ((d.withdraw n delivery.filter).setStage n .aborted)
  | .done _ | .aborted => none

/-- One poll of a delivery. -/
def step? (d : Dispatch) (n : Nat) : Option Dispatch :=
  match d.deliveries[n]? with
  | none => none
  | some delivery => if delivery.unwanted then d.abort? n delivery else d.deliveryStep? n delivery

/-- Drops a delivery at once. -/
def abort (d : Dispatch) (n : Nat) : Dispatch :=
  ((d.deliveries[n]?).bind (d.abort? n)).getD d

/-- Requests an abort, which takes effect at the next poll. -/
def askToAbort (d : Dispatch) (n : Nat) : Dispatch :=
  { d with deliveries := d.deliveries.modify n fun delivery => { delivery with unwanted := true } }

/-- An upper bound for the number of polls that make progress. -/
def effort (d : Dispatch) : Nat :=
  d.deliveries.foldr (fun delivery rest => delivery.stage.effort + rest) 0

def canStep (d : Dispatch) (n : Nat) : Bool := (d.step? n).isSome

def numbers (d : Dispatch) : List Nat := List.range d.deliveries.length

/-- At most so many polls, by the run queue, of the deliveries not set aside. -/
def runSteps (aside : Nat → Bool) : Nat → List Nat → Dispatch → Dispatch
  | 0, _, d => d
  | steps + 1, queue, d =>
    match Turns.upcoming d.canStep aside d.numbers queue with
    | [] => d
    | n :: rest =>
      match d.step? n with
      | none => d
      | some after => runSteps aside steps (n :: rest) after

/-- Whether a finished delivery has delivered. -/
def outcome? (d : Dispatch) (n : Nat) : Option Bool :=
  match d.deliveries[n]? with
  | some { stage := .done delivered, .. } => some delivered
  | _ => none

def isAborted (d : Dispatch) (n : Nat) : Bool :=
  match d.deliveries[n]? with
  | some { stage := .aborted, .. } => true
  | _ => false

/-- Runs all deliveries until each is pending or finished. -/
def settle (d : Dispatch) (queue : List Nat) : Dispatch :=
  runSteps (fun _ => false) d.effort queue d

/-- The same, with one delivery polled only after all others. -/
def settleFor (d : Dispatch) (n : Nat) (queue : List Nat) : Dispatch :=
  let rested := runSteps (· == n) d.effort queue d
  (rested.step? n).getD rested

/-- The polls that one delivery can make on its own. -/
def advance (d : Dispatch) (n : Nat) : Dispatch :=
  match d.step? n with
  | none => d
  | some after => (after.step? n).getD after

end Dispatch

end StanzaExchange
