import StanzaExchange.Answer
import StanzaExchange.Conversation.Tasks

/-!
The actions of the application and the peer (sections 4.5, 6 and 10.2 of the specification, modules
conversation and memory). An action never suspends: `send`, `send_recv` and `join` only add a
pending call, and a receive on an empty channel answers `pending`. An action on something that does
not exist answers `gone` and leaves the state unchanged.
-/
namespace StanzaExchange

/-- The access path of an action: the `Conversation` value, or a handle by its number. -/
inductive Via where
  | own
  | handle (number : Nat)
  deriving DecidableEq, Repr

inductive Action where
  /-- The peer feeds an element or a failure. -/
  | push (arrival : Arrival)
  | hangUp
  | dropPeer
  /-- The peer observes the oldest write. -/
  | takeWrite
  | takeWrites
  /-- Suspends the writes of the transport, or resumes them. -/
  | stall (value : Bool)
  | receive
  | receiveFrom (id : FilterId)
  | dropReceiver (id : FilterId)
  | setJid (jid : Jid)
  | finish
  | handle
  | cloneHandle (number : Nat)
  | dropHandle (number : Nat)
  /-- Adds a call of `send`. -/
  | send (via : Via) (stanza : Stanza)
  /-- Adds a call of `send_recv`, with a timeout if there is a limit. -/
  | query (via : Via) (iq : Iq) (limit : Option Nat)
  /-- Moves the `Conversation` value into a call of `join`. -/
  | join
  /-- Drops the `Conversation` value; its tasks go on. -/
  | dropOwn
  /-- Requests the abort of a call, which takes effect at its next poll. -/
  | abort (call : Nat)
  /-- Drops a call at once. -/
  | drop (call : Nat)
  | addFilter (via : Via) (matcher : Matcher)
  | removeFilter (via : Via) (id : FilterId)
  | close (via : Via)
  | advance (milliseconds : Nat)

namespace Conversation

def hasHandle (c : Conversation) (n : Nat) : Bool := c.handles.getD n false

def unreachable? (c : Conversation) : Via → Option Missing
  | .own => if c.held then none else some .conversation
  | .handle n => if c.hasHandle n then none else some .handle

/-- Whether the path has an outbound sender; the conversation has none after `finish`. -/
def canSend (c : Conversation) : Via → Bool
  | .own => c.ownSender
  | .handle _ => true

/-- Guards an action by its access path. -/
def reaching (c : Conversation) (via : Via) (result : Answer × Conversation) :
    Answer × Conversation :=
  match c.unreachable? via with
  | some missing => (.gone missing, c)
  | none => result

/-- Guards an action of the peer. -/
def ofPeer (c : Conversation) (result : Answer × Conversation) : Answer × Conversation :=
  if c.outflow.wire.listening then result else (.gone .peer, c)

/-- Guards an action on a filter receiver. The receiver of a correlation filter belongs to its call.
-/
def ofReceiver (c : Conversation) (id : FilterId) (result : Answer × Conversation) :
    Answer × Conversation :=
  if c.inflow.registry.isReceiving id && !c.isQueryFilter id then result else (.gone .receiver, c)

def push (c : Conversation) (arrival : Arrival) : Answer × Conversation :=
  match if c.linked then c.inflow.feed.push? arrival else none with
  | some feed => (.flag true, c.setFeed feed)
  | none => (.flag false, c)

/-- The peer's receive; it ends once nothing refers to the transport. -/
def takeWrite (c : Conversation) : Answer × Conversation :=
  match c.outflow.wire.take? with
  | some (write, wire) => (.write write, c.setWire wire)
  | none => (if c.linked then .pending else .nothing, c)

def found (c : Conversation) : Finding Stanza Conversation → Answer × Conversation
  | .taken stanza after => (.stanza stanza, after)
  | .empty => (.pending, c)
  | .ended => (.nothing, c)

/-- Receives from the inbound channel, which has ended once the receiver task has exited. -/
def receive (c : Conversation) : Answer × Conversation :=
  c.found ((c.inflow.inbound.read (c.inflow.reader = .closed)).map c.setInbound)

def receiveFrom (c : Conversation) (id : FilterId) : Answer × Conversation :=
  c.found ((c.inflow.registry.read id).map c.setRegistry)

def addCall (c : Conversation) (call : Call) : Answer × Conversation :=
  (.call c.calls.length, { c with calls := c.calls ++ [call] })

def addHandle (c : Conversation) : Answer × Conversation :=
  (.handle c.handles.length, { c with handles := c.handles ++ [true] })

/-- The result of an action and the state after it. -/
def act (c : Conversation) : Action → Answer × Conversation
  | .push arrival => c.ofPeer (c.push arrival)
  | .hangUp => c.ofPeer (.ok, c.setFeed c.inflow.feed.hangUp)
  | .dropPeer =>
    c.ofPeer (.ok, (c.setFeed c.inflow.feed.hangUp).setWire c.outflow.wire.abandon)
  | .takeWrite => c.ofPeer c.takeWrite
  | .takeWrites =>
    let (writes, wire) := c.outflow.wire.takeAll
    c.ofPeer (.writes writes, c.setWire wire)
  | .stall value =>
    (.flag c.outflow.stalled, { c with outflow := { c.outflow with stalled := value } })
  | .receive => c.reaching .own c.receive
  | .receiveFrom id => c.ofReceiver id (c.receiveFrom id)
  | .dropReceiver id =>
    c.ofReceiver id (.ok, c.setRegistry (c.inflow.registry.modifyChannel id .shut))
  | .setJid jid =>
    c.reaching .own (.ok, { c with jid }.report .application [.renamed c.jid jid])
  | .finish => c.reaching .own (.ok, c.finishOwn)
  | .handle => c.reaching .own (if c.ownSender then c.addHandle else (.nothing, c))
  | .cloneHandle number => c.reaching (.handle number) c.addHandle
  | .dropHandle number =>
    c.reaching (.handle number) (.ok, { c with handles := c.handles.set number false })
  | .send via stanza =>
    c.reaching via (c.addCall { sender := c.canSend via, work := .send stanza })
  | .query via iq limit =>
    c.reaching via (c.addCall { sender := c.canSend via, work := .query iq limit })
  | .join => c.reaching .own ({ c with held := false }.addCall { sender := false, work := .join })
  | .dropOwn => c.reaching .own (.ok, { c with held := false, ownSender := false }.shutInbound)
  | .abort call =>
    (.ok, { c with calls := c.calls.modify call fun call => { call with aborted := true } })
  | .drop n =>
    match c.calls[n]? with
    | some call => (.ok, c.abandon n call.work)
    | none => (.gone .call, c)
  | .addFilter via matcher =>
    c.reaching via (.filterId c.inflow.registry.nextId, c.addFilter matcher)
  | .removeFilter via id =>
    c.reaching via
      (match c.removeFilter? id with
        | some after => (.ok, after)
        | none => (.notFound id, c))
  | .close via =>
    let (first, after) := c.close .application
    c.reaching via (.flag first, after)
  | .advance milliseconds => (.ok, { c with clock := c.clock + milliseconds })

end Conversation

end StanzaExchange
