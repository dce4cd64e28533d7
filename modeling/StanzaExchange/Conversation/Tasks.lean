import StanzaExchange.Conversation.State

/-!
The step relation of a conversation, without the actions of the application and the peer. The agents
are the two tasks, the pending calls and their timers (section 5 of the specification, modules
sender, receiver and conversation).

One step is one poll: it runs an agent from one suspension point to the next, and nothing else
happens in between. So runs of this model are the runs of a scheduler with one thread, in any order
of the polls. The window between taking the termination guard and signalling the cancellation, which
other threads could enter, is inside one step (see `Outflow.close`), and so is the last step of the
receiver task, of which `Conversation.points` tells the intermediate states.
-/
namespace StanzaExchange

/-- The agents that can make a step. -/
inductive Agent where
  | writer
  | reader
  | call (number : Nat)
  | timer (number : Nat)
  deriving DecidableEq, Repr

namespace Conversation

/-- A poll of the receiver task. The last one terminates the stream, closes the registry, and closes
the inbound channel by exiting. -/
def readerStep? (c : Conversation) : Option Conversation :=
  if c.inflow.reader = .closing then
    let ended := (c.close .reader).2
    let event := ended.inflow.tearDownEvent
    some ({ ended with inflow := ended.inflow.tearDown }.report .reader [event])
  else
    (c.inflow.step? c.faults c.trace).map fun (inflow, events) =>
      { c with inflow }.report .reader events

def writerStep? (c : Conversation) : Option Conversation :=
  (c.outflow.step? c.faults c.trace c.producing).map fun (outflow, events) =>
    { c with outflow }.report .writer events

/-- The drop guard of a correlation filter: it is removed from the registry and its receiver
dropped. -/
def leaveFilter (c : Conversation) (id : FilterId) : Conversation :=
  let c := (c.removeFilter? id).getD c
  c.setRegistry (c.inflow.registry.modifyChannel id .shut)

/-- Leaves the queue of senders that wait on the outbound channel. -/
def withdraw (c : Conversation) (n : Nat) : Conversation :=
  c.setOutbound (c.outflow.outbound.withdraw n)

/-- A query ends: its place in the queue and its correlation filter go. -/
def endQuery (c : Conversation) (n : Nat) (query : Query) (work : Work) : Conversation :=
  ((c.withdraw n).leaveFilter query.filter).setWork n work

/-- Registers the correlation filter, before anything is sent. -/
def startQuery (c : Conversation) (n : Nat) (iq : Iq) (limit : Option Nat) : Conversation :=
  let id := c.inflow.registry.nextId
  ((c.addFilter (.replyTo iq.id)).report .application [.queried iq.id id]).setWork n
    (.queryOffering ⟨iq, id, limit.map (c.clock + ·)⟩)

/-- Drops the conversation's own outbound sender. -/
def finishOwn (c : Conversation) : Conversation :=
  if c.ownSender then { c with ownSender := false }.report .application [.finished c.jid] else c

/-- The inbound receiver is dropped. -/
def shutInbound (c : Conversation) : Conversation :=
  c.setInbound c.inflow.inbound.shut

/-- Drops a call at its suspension point. A stanza that was put on the channel stays there; the
filter, the place in the queue and, for `join`, the inbound receiver go. -/
def abandon (c : Conversation) (n : Nat) : Work → Conversation
  | .send _ | .query _ _ | .joining => c.setWork n .cancelled
  | .leaving => c.shutInbound.setWork n .cancelled
  | .sendWaiting _ => (c.withdraw n).setWork n .cancelled
  | .queryOffering query | .queryWaiting query | .queryAwaiting query =>
    c.endQuery n query .cancelled
  | .join => { c with ownSender := false }.shutInbound.setWork n .cancelled
  | .done _ | .cancelled => c

/-- One poll of a call; `none` if it is pending or finished. -/
def workStep? (c : Conversation) (n : Nat) (sender : Bool) : Work → Option Conversation
  | .send stanza =>
    if !sender then some (c.setWork n (.done (.failed .closed)))
    else
      match c.outflow.outbound.offer stanza with
      | .accepted outbound => some ((c.setOutbound outbound).setWork n (.done .sent))
      | .refused => some (c.setWork n (.done (.failed .closed)))
      | .full =>
        some ((c.setOutbound (c.outflow.outbound.await n)).setWork n (.sendWaiting stanza))
  | .sendWaiting stanza =>
    match c.outflow.outbound.offerAs n stanza with
    | .accepted outbound => some ((c.setOutbound outbound).setWork n (.done .sent))
    | .refused => some ((c.withdraw n).setWork n (.done (.failed .closed)))
    | .full => none
  | .query iq limit => some (c.startQuery n iq limit)
  | .queryOffering query =>
    if !sender then some (c.endQuery n query (.done (.failed .closed)))
    else
      match c.outflow.outbound.offer (.iq query.iq) with
      | .accepted outbound => some ((c.setOutbound outbound).setWork n (.queryAwaiting query))
      | .refused => some (c.endQuery n query (.done (.failed .closed)))
      | .full =>
        some ((c.setOutbound (c.outflow.outbound.await n)).setWork n (.queryWaiting query))
  | .queryWaiting query =>
    match c.outflow.outbound.offerAs n (.iq query.iq) with
    | .accepted outbound => some ((c.setOutbound outbound).setWork n (.queryAwaiting query))
    | .refused => some (c.endQuery n query (.done (.failed .closed)))
    | .full => none
  | .queryAwaiting query =>
    match c.inflow.registry.read query.filter with
    | .taken stanza registry =>
      some ((c.setRegistry registry).endQuery n query (.done (.ofReply (some stanza))))
    | .ended => some (c.endQuery n query (.done (.ofReply none)))
    | .empty => none
  | .join => some (c.finishOwn.setWork n .leaving)
  | .leaving => some (c.shutInbound.setWork n .joining)
  | .joining =>
    if c.inflow.reader = .closed ∧ c.outflow.writer = .closed then
      some ((c.report .application [.joined c.jid]).setWork n (.done .joined))
    else none
  | .done _ | .cancelled => none

/-- One poll of a call; an aborted call is dropped instead. -/
def callStep? (c : Conversation) (n : Nat) : Option Conversation :=
  match c.calls[n]? with
  | none => none
  | some call =>
    if call.aborted && call.work.isRunning then some (c.abandon n call.work)
    else c.workStep? n call.sender call.work

/-- The deadline of a query that waits for a slot or for its reply. -/
def waitingQuery? (call : Call) : Option (Query × Nat) :=
  match call.work with
  | .queryWaiting query | .queryAwaiting query =>
    query.deadline.map fun deadline => (query, deadline)
  | _ => none

/-- The timer of a query fires once its deadline is reached, unless the call itself can make a step.
-/
def timerStep? (c : Conversation) (n : Nat) : Option Conversation :=
  match (c.calls[n]?).bind waitingQuery?, c.callStep? n with
  | some (query, deadline), none =>
    if deadline ≤ c.clock then some (c.endQuery n query (.done (.failed (.timeout query.iq.id))))
    else none
  | _, _ => none

def step? (c : Conversation) : Agent → Option Conversation
  | .writer => c.writerStep?
  | .reader => c.readerStep?
  | .call n => c.callStep? n
  | .timer n => c.timerStep? n

def callNumbers (c : Conversation) : List Nat := List.range c.calls.length

/-- The tasks and the calls. Waiting senders come in the order of their queue. -/
def workers (c : Conversation) : List Agent :=
  let waiting := c.outflow.outbound.waiting
  .reader :: .writer :: (waiting ++ c.callNumbers.filter (!waiting.contains ·)).map .call

def deadline (c : Conversation) (n : Nat) : Nat :=
  ((((c.calls[n]?).bind waitingQuery?).map fun waiting => waiting.2).getD 0)

/-- Insertion by deadline, before equal deadlines. -/
def insertByDeadline (c : Conversation) (n : Nat) : List Nat → List Nat
  | [] => [n]
  | m :: rest =>
    if c.deadline n ≤ c.deadline m then n :: m :: rest else m :: c.insertByDeadline n rest

/-- The timers, earliest deadline first. -/
def timers (c : Conversation) : List Agent :=
  (c.callNumbers.foldr c.insertByDeadline []).map .timer

end Conversation

end StanzaExchange
