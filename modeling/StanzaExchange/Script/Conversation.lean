import StanzaExchange.Conversation.Actions
import StanzaExchange.Conversation.Settle
import StanzaExchange.Script.Link

/-!
Scripts for a conversation: the actions of the application and the peer, with the scheduler run to
rest in between.
-/
namespace StanzaExchange.Script

/-- Filters, handles and calls are named by their number in order of creation. -/
inductive ConversationStep where
  | peer (step : PeerStep)
  | receive
  | tryReceive
  | jid
  | setJid (jid : Jid)
  | finish
  | handle
  | cloneHandle (handle : Nat)
  | dropHandle (handle : Nat)
  | send (via : Via) (stanza : Stanza)
  | query (via : Via) (iq : Iq)
  | beginSend (via : Via) (stanza : Stanza)
  | beginQuery (via : Via) (iq : Iq) (limit : Option Nat)
  | poll (call : Nat)
  | cancel (call : Nat)
  | advance (milliseconds : Nat)
  | addFilter (via : Via) (matcher : Matcher)
  | removeFilter (via : Via) (filter : Nat)
  /-- Removes by an arbitrary id. -/
  | removeFilterId (via : Via) (id : FilterId)
  | receiveFrom (filter : Nat)
  | tryReceiveFrom (filter : Nat)
  | receiver (filter : Nat)
  | dropReceiver (filter : Nat)
  | close (via : Via)
  | isTerminated (via : Via)
  | join
  | dropOwn
  | inspect (via : Via)
  | stall (value : Bool)

structure ConversationSession where
  conversation : Conversation
  /-- Whether the transport is one whose writes can be suspended. -/
  stallable : Bool
  filters : List FilterId := []
  /-- The calls of the script; `none` once the result was taken. -/
  calls : List (Option Nat) := []
  /-- The run queue. -/
  queue : List Agent := [.writer, .reader]

namespace ConversationSession

def put (s : ConversationSession) (conversation : Conversation) : ConversationSession :=
  { s with conversation }

def act (s : ConversationSession) (action : Action) : Answer × ConversationSession :=
  let (answer, conversation) := s.conversation.act action
  (answer, s.put conversation)

def settleSince (s : ConversationSession) (reached : Nat) : ConversationSession :=
  { s with conversation := s.conversation.settleSince reached s.queue, queue := [] }

def settle (s : ConversationSession) : ConversationSession := s.settleSince s.conversation.clock

/-- Queues the agents that were woken, without polling them. -/
def enqueue (s : ConversationSession) : ConversationSession :=
  let c := s.conversation
  { s with queue := Turns.enqueue c.canStep c.workers s.queue }

/-- An operation that does not wait: a pending result becomes `nothing`. -/
def tryAct (s : ConversationSession) (action : Action) : Answer × ConversationSession :=
  match s.act action with
  | (.pending, after) => (.nothing, after)
  | result => result

/-- An operation that waits: on a pending result the scheduler runs before a second attempt. -/
def awaitAct (s : ConversationSession) (action : Action) : Answer × ConversationSession :=
  match s.act action with
  | (.pending, after) => after.settle.act action
  | result => result

def outcome? (s : ConversationSession) (n : Nat) : Option Answer :=
  match s.conversation.calls[n]? with
  | some { work := .done outcome, .. } => some (.ofOutcome outcome)
  | some { work := .cancelled, .. } => some .cancelled
  | _ => none

/-- Makes a call and runs it to its end; a call that stays pending is dropped. -/
def awaitCall (s : ConversationSession) (action : Action) : Answer × ConversationSession :=
  match s.act action with
  | (.call n, begun) =>
    let begun := begun.put (begun.conversation.advanceCall n)
    match begun.outcome? n with
    | some answer => (answer, begun)
    | none =>
      let waited :=
        { begun with conversation := begun.conversation.settleFor n begun.queue, queue := [] }
      match waited.outcome? n with
      | some answer => (answer, waited)
      | none => (.pending, (waited.act (.drop n)).2)
  | result => result

/-- Spawns a call. -/
def beginCall (s : ConversationSession) (action : Action) : Answer × ConversationSession :=
  match s.act action with
  | (.call n, begun) => (.call s.calls.length, { begun with calls := s.calls ++ [some n] })
  | result => result

/-- Takes the result of a call. -/
def collect (s : ConversationSession) (call : Nat) (answer : Answer) :
    Answer × ConversationSession :=
  (answer, { s with calls := s.calls.set call none })

def poll (s : ConversationSession) (call : Nat) : Answer × ConversationSession :=
  match s.calls.getD call none with
  | none => (.gone .call, s)
  | some n =>
    match s.outcome? n with
    | some answer => s.collect call answer
    | none =>
      match s.settle.outcome? n with
      | some answer => s.settle.collect call answer
      | none => (.pending, s.settle)

def ofFilter (s : ConversationSession) (filter : Nat)
    (act : FilterId → Answer × ConversationSession) : Answer × ConversationSession :=
  match s.filters[filter]? with
  | some id => act id
  | none => (.gone .receiver, s)

/-- An answer that changes nothing. -/
def look (s : ConversationSession) (via : Via) (answer : Answer) : Answer × ConversationSession :=
  ((s.conversation.reaching via (answer, s.conversation)).1, s)

def showOwn (c : Conversation) : String :=
  showFields "Conversation"
    [("jid", showJid c.jid), ("filters", c.inflow.registry.active.length.repr),
      ("finished", showFlag !c.ownSender), ("terminated", showFlag c.outflow.terminated)] true

def showHandle (c : Conversation) : String :=
  showFields "ConversationHandle" [("terminated", showFlag c.outflow.terminated)] true

def performPeer (s : ConversationSession) : PeerStep → Answer × ConversationSession
  | .push arrival => s.act (.push arrival)
  | .hangUp => s.act .hangUp
  | .dropPeer => s.act .dropPeer
  | .nextSent => s.awaitAct .takeWrite
  | .tryNextSent => s.tryAct .takeWrite
  | .sent => s.act .takeWrites
  | .ends =>
    let wire := s.conversation.outflow.wire
    ((s.conversation.ofPeer (.ends wire.endWrites wire.ended, s.conversation)).1, s)

def perform (s : ConversationSession) : ConversationStep → Answer × ConversationSession
  | .peer step => s.performPeer step
  | .receive => s.awaitAct .receive
  | .tryReceive => s.tryAct .receive
  | .jid => s.look .own (.jid s.conversation.jid)
  | .setJid jid => s.act (.setJid jid)
  | .finish => s.act .finish
  | .handle => s.act .handle
  | .cloneHandle handle => s.act (.cloneHandle handle)
  | .dropHandle handle => s.act (.dropHandle handle)
  | .send via stanza => s.awaitCall (.send via stanza)
  | .query via iq => s.awaitCall (.query via iq none)
  | .beginSend via stanza => s.beginCall (.send via stanza)
  | .beginQuery via iq limit => s.beginCall (.query via iq limit)
  | .poll call => s.poll call
  | .cancel call =>
    match s.calls.getD call none with
    | none => (.gone .call, s)
    | some n => s.act (.abort n)
  | .advance milliseconds =>
    let (answer, after) := s.act (.advance milliseconds)
    (answer, after.settleSince s.conversation.clock)
  | .addFilter via matcher =>
    match s.act (.addFilter via matcher) with
    | (.filterId id, after) => (.filterId id, { after with filters := s.filters ++ [id] })
    | result => result
  | .removeFilter via filter => s.ofFilter filter fun id => s.act (.removeFilter via id)
  | .removeFilterId via id => s.act (.removeFilter via id)
  | .receiveFrom filter => s.ofFilter filter fun id => s.awaitAct (.receiveFrom id)
  | .tryReceiveFrom filter => s.ofFilter filter fun id => s.tryAct (.receiveFrom id)
  | .receiver filter =>
    s.ofFilter filter fun id =>
      let answer := .receiver id (s.conversation.inflow.registry.isRemoved id)
      ((s.conversation.ofReceiver id (answer, s.conversation)).1, s)
  | .dropReceiver filter => s.ofFilter filter fun id => s.act (.dropReceiver id)
  | .close via => s.act (.close via)
  | .isTerminated via => s.look via (.flag s.conversation.outflow.terminated)
  | .join => s.beginCall .join
  | .dropOwn => s.act .dropOwn
  | .inspect .own => s.look .own (.text (showOwn s.conversation))
  | .inspect (.handle n) => s.look (.handle n) (.text (showHandle s.conversation))
  | .stall value => if s.stallable then s.act (.stall value) else (.flag false, s)

/-- The entries of a script. The flag of a step tells whether the scheduler runs after it. -/
def run (s : ConversationSession) : List (ConversationStep × Bool) → List Entry
  | [] => []
  | (step, settles) :: rest =>
    let (answer, after) := s.perform step
    let after := if settles then after.settle else after.enqueue
    ⟨answer, newReports s.conversation.journal after.conversation.journal⟩ :: after.run rest

/-- A session after construction, with the events emitted until its first step. -/
def start (jid : Jid) (settings : Settings) (faults : Option Faults) (settles : Bool) :
    ConversationSession × List Report :=
  let s : ConversationSession :=
    { conversation := Conversation.start jid settings (faults.getD .none)
      stallable := faults.isSome }
  let s := if settles then s.settle else s.enqueue
  (s, newReports [] s.conversation.journal)

end ConversationSession

end StanzaExchange.Script
