import StanzaExchange.Registry.Dispatch
import StanzaExchange.Answer

/-!
Scripts for a filter registry: adding and removing filters, snapshots, and deliveries through any
snapshot, however old. Deliveries run as tasks; between steps they run until each is pending, unless
the script postpones that.
-/
namespace StanzaExchange.Script

/-- Filters, snapshots and calls are named by their number in order of creation. -/
inductive RegistryStep where
  | add (matcher : Matcher)
  | remove (filter : Nat)
  /-- Removes by an arbitrary id. -/
  | removeId (id : FilterId)
  | snapshot
  | forgetSnapshots
  | sub (snapshot position : Nat)
  | accepts (snapshot position : Nat) (stanza : Stanza)
  | deliver (snapshot position : Nat) (stanza : Stanza)
  | beginDelivery (snapshot position : Nat) (stanza : Stanza)
  | poll (call : Nat)
  | cancel (call : Nat)
  | receive (filter : Nat)
  | tryReceive (filter : Nat)
  | receiver (filter : Nat)
  | dropReceiver (filter : Nat)
  | size
  | closeAll
  | inspect

structure RegistrySession where
  dispatch : Dispatch
  snapshots : List (List FilterId) := []
  /-- The deliveries spawned as calls; `none` once the result was taken. -/
  calls : List (Option Nat) := []
  /-- The run queue. -/
  queue : List Nat := []
  journal : List Report := []

namespace RegistrySession

def start (capacity : Nat) : RegistrySession :=
  { dispatch := { registry := .ofCapacity capacity } }

def setRegistry (s : RegistrySession) (registry : Registry) : RegistrySession :=
  { s with dispatch := { s.dispatch with registry } }

def settle (s : RegistrySession) : RegistrySession :=
  { s with dispatch := s.dispatch.settle s.queue, queue := [] }

/-- Queues the deliveries that were woken, without polling them. -/
def enqueue (s : RegistrySession) : RegistrySession :=
  { s with queue := Turns.enqueue s.dispatch.canStep s.dispatch.numbers s.queue }

def report (s : RegistrySession) (event : Event) : RegistrySession :=
  { s with journal := ⟨.application, event⟩ :: s.journal }

/-- The filter at a position of a snapshot. -/
def subscription? (s : RegistrySession) (snapshot position : Nat) : Option FilterId :=
  (s.snapshots[snapshot]?).bind (·[position]?)

def remove (s : RegistrySession) (id : FilterId) : Answer × RegistrySession :=
  match s.dispatch.registry.remove? id with
  | some registry => (.ok, (s.setRegistry registry).report (registry.removeEvent id))
  | none => (.notFound id, s)

/-- Receives without waiting; `empty` is the answer for an empty channel. -/
def readNow (s : RegistrySession) (empty : Answer) (id : FilterId) : Answer × RegistrySession :=
  match s.dispatch.registry.read id with
  | .taken stanza registry => (.stanza stanza, s.setRegistry registry)
  | .ended => (.nothing, s)
  | .empty => (empty, s)

/-- Receives; on an empty channel all deliveries run before a second attempt. -/
def readWaiting (s : RegistrySession) (id : FilterId) : Answer × RegistrySession :=
  match s.dispatch.registry.read id with
  | .empty => s.settle.readNow .pending id
  | _ => s.readNow .pending id

def outcome? (s : RegistrySession) (n : Nat) : Option Answer :=
  if s.dispatch.isAborted n then some .cancelled
  else (s.dispatch.outcome? n).map .flag

/-- Takes the result of a call. -/
def collect (s : RegistrySession) (call : Nat) (answer : Answer) : Answer × RegistrySession :=
  (answer, { s with calls := s.calls.set call none })

def perform (s : RegistrySession) : RegistryStep → Answer × RegistrySession
  | .add matcher =>
    let registry := s.dispatch.registry
    (.filterId registry.nextId, (s.setRegistry (registry.add matcher)).report registry.addEvent)
  | .remove filter =>
    if filter < s.dispatch.registry.nextId then s.remove filter else (.gone .receiver, s)
  | .removeId id => s.remove id
  | .snapshot =>
    let ids := s.dispatch.registry.snapshot
    (.snapshot s.snapshots.length ids, { s with snapshots := s.snapshots ++ [ids] })
  | .forgetSnapshots => (.ok, { s with snapshots := s.snapshots.map fun _ => [] })
  | .sub snapshot position =>
    match s.subscription? snapshot position with
    | none => (.gone .sub, s)
    | some id =>
      let registry := s.dispatch.registry
      (.subscription id (registry.isRemoved id) (showSubscription registry id), s)
  | .accepts snapshot position stanza =>
    match s.subscription? snapshot position with
    | none => (.gone .sub, s)
    | some id => (.flag (s.dispatch.registry.accepts id stanza), s)
  | .deliver snapshot position stanza =>
    match s.subscription? snapshot position with
    | none => (.gone .sub, s)
    | some id =>
      let n := s.dispatch.deliveries.length
      let begun := { s with dispatch := (s.dispatch.begin id stanza).advance n }
      match begun.dispatch.outcome? n with
      | some delivered => (.flag delivered, begun)
      | none =>
        let waited :=
          { begun with dispatch := begun.dispatch.settleFor n begun.queue, queue := [] }
        match waited.dispatch.outcome? n with
        | some delivered => (.flag delivered, waited)
        | none => (.pending, { waited with dispatch := waited.dispatch.abort n })
  | .beginDelivery snapshot position stanza =>
    match s.subscription? snapshot position with
    | none => (.gone .sub, s)
    | some id =>
      (.call s.calls.length,
        { s with
          calls := s.calls ++ [some s.dispatch.deliveries.length]
          dispatch := s.dispatch.begin id stanza })
  | .poll call =>
    match s.calls.getD call none with
    | none => (.gone .call, s)
    | some n =>
      match s.outcome? n with
      | some answer => s.collect call answer
      | none =>
        match s.settle.outcome? n with
        | some answer => s.settle.collect call answer
        | none => (.pending, s.settle)
  | .cancel call =>
    match s.calls.getD call none with
    | none => (.gone .call, s)
    | some n => (.ok, { s with dispatch := s.dispatch.askToAbort n })
  | .receive filter =>
    if s.dispatch.registry.isReceiving filter then s.readWaiting filter else (.gone .receiver, s)
  | .tryReceive filter =>
    if s.dispatch.registry.isReceiving filter then s.readNow .nothing filter
    else (.gone .receiver, s)
  | .receiver filter =>
    let registry := s.dispatch.registry
    if registry.isReceiving filter then (.receiver filter (registry.isRemoved filter), s)
    else (.gone .receiver, s)
  | .dropReceiver filter =>
    let registry := s.dispatch.registry
    if registry.isReceiving filter then
      (.ok, s.setRegistry (registry.modifyChannel filter .shut))
    else (.gone .receiver, s)
  | .size => (.size s.dispatch.registry.size, s)
  | .closeAll =>
    let registry := s.dispatch.registry
    (.count registry.entries.length, s.setRegistry registry.close)
  | .inspect => (.text (showRegistry s.dispatch.registry), s)

/-- The entries of a script. The flag of a step tells whether deliveries run after it. -/
def run (s : RegistrySession) : List (RegistryStep × Bool) → List Entry
  | [] => []
  | (step, settles) :: rest =>
    let (answer, after) := s.perform step
    let after := if settles then after.settle else after.enqueue
    ⟨answer, newReports s.journal after.journal⟩ :: after.run rest

end RegistrySession

end StanzaExchange.Script
