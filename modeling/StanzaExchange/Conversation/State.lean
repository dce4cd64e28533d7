import StanzaExchange.Conversation.Call
import StanzaExchange.Conversation.Inflow
import StanzaExchange.Conversation.Outflow
import StanzaExchange.Settings

/-!
The conversation (sections 3 and 4.5 of the specification, module conversation): the two halves, the
references that the application holds, the pending calls, a clock in milliseconds for timeouts, and
the journal of events. Both tasks run from the start; the peer of the in-process transport is part
of the state.
-/
namespace StanzaExchange

structure Conversation where
  jid : Jid
  faults : Faults := .none
  /-- The setting `trace_stanzas`. -/
  trace : Bool
  inflow : Inflow
  outflow : Outflow
  /-- Whether the `Conversation` value exists. -/
  held : Bool := true
  /-- Whether the `Conversation` value holds its outbound sender. -/
  ownSender : Bool := true
  /-- The handles, each with an outbound sender until it is dropped. -/
  handles : List Bool := []
  calls : List Call := []
  clock : Nat := 0
  /-- The events, latest first. -/
  journal : List Report := []

namespace Conversation

/-- Appends events, given in the order in which they were emitted. -/
def report (c : Conversation) (reporter : Reporter) (events : List Event) : Conversation :=
  { c with journal := events.foldl (fun journal event => ⟨reporter, event⟩ :: journal) c.journal }

/-- The state after construction. The settings are not validated: a capacity of zero is raised to
one. A capacity above 2^61-1, for which the program panics here, is started like any other. -/
def start (jid : Jid) (settings : Settings) (faults : Faults) : Conversation :=
  { jid
    faults
    trace := settings.traceStanzas
    inflow :=
      { registry := .ofCapacity settings.filterCapacity
        inbound := .ofCapacity settings.inboundCapacity }
    outflow := { outbound := .ofCapacity settings.outboundCapacity }
    journal := [⟨.application, .started jid⟩] }

/-- Whether the outbound channel has a sender left. -/
def producing (c : Conversation) : Bool :=
  c.ownSender || c.handles.any id || c.calls.any fun call => call.work.isRunning && call.sender

/-- Whether the transport is referenced: by a task, the conversation, a handle or a call. -/
def linked (c : Conversation) : Bool :=
  c.inflow.reader ≠ .closed || c.outflow.writer ≠ .closed || c.held || c.handles.any id ||
    c.calls.any fun call => call.work.isRunning

/-- Whether a filter is the correlation filter of a running query, whose receiver the call owns. -/
def isQueryFilter (c : Conversation) (id : FilterId) : Bool :=
  c.calls.any fun call => call.work.query?.any fun query => query.filter == id

def setWork (c : Conversation) (n : Nat) (work : Work) : Conversation :=
  { c with calls := c.calls.modify n fun call => { call with work } }

def setFeed (c : Conversation) (feed : Feed) : Conversation :=
  { c with inflow := { c.inflow with feed } }

def setInbound (c : Conversation) (inbound : Channel Stanza) : Conversation :=
  { c with inflow := { c.inflow with inbound } }

def setWire (c : Conversation) (wire : Wire) : Conversation :=
  { c with outflow := { c.outflow with wire } }

def setRegistry (c : Conversation) (registry : Registry) : Conversation :=
  { c with inflow := { c.inflow with registry } }

def setOutbound (c : Conversation) (outbound : Channel Stanza) : Conversation :=
  { c with outflow := { c.outflow with outbound } }

def addFilter (c : Conversation) (matcher : Matcher) : Conversation :=
  (c.setRegistry (c.inflow.registry.add matcher)).report .application
    [c.inflow.registry.addEvent]

def removeFilter? (c : Conversation) (id : FilterId) : Option Conversation :=
  (c.inflow.registry.remove? id).map fun registry =>
    (c.setRegistry registry).report .application [registry.removeEvent id]

/-- Terminates the stream on behalf of a reporter; true for the call that did it. -/
def close (c : Conversation) (origin : Reporter) : Bool × Conversation :=
  let (first, outflow, events) := c.outflow.close c.faults origin
  (first, { c with outflow }.report origin events)

end Conversation

end StanzaExchange
