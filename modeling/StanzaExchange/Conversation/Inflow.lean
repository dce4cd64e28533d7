import StanzaExchange.Link
import StanzaExchange.Registry

/-!
The receiver task (section 4.4 of the specification, module receiver) with the state it owns or
shares: the feed, the filter registry and the inbound channel. A step runs from one suspension point
to the next. An element is read and classified, offered to the filters of the snapshot taken then,
newest first, one suspension point for each delivery, and put on the inbound channel if no filter
took it. A transport failure goes to the inbound channel without a test against any matcher.

The last step, which closes the stream as well, is `Conversation.readerStep?`.
-/
namespace StanzaExchange

/-- The program counter of the receiver task. -/
inductive Reader where
  | reading
  /-- Delivers the stanza to the rest of the snapshot; `taken` counts the deliveries. -/
  | routing (stanza : Stanza) (rest : List FilterId) (taken : Nat)
  /-- Puts the unmatched stanza on the inbound channel. -/
  | surfacing (stanza : Stanza)
  /-- Puts the transport failure on the inbound channel. -/
  | failing (failure : Failure)
  | closing
  | closed
  deriving DecidableEq

/-- The inbound half of a conversation. Only the receiver task sends on its channels. -/
structure Inflow where
  feed : Feed := {}
  registry : Registry
  inbound : Channel Stanza
  reader : Reader := .reading

namespace Inflow

/-- Skips the body of an element with an unrecognised tag. -/
def skipBody (faults : Faults) (feed : Feed) (start : StartTag) : Feed × List Event :=
  if faults.idleSkip then (feed, [])
  else if faults.skip then (feed, [.skipFailed start.name Faults.skipFailure])
  else (feed.skip start, [])

/-- Classification of an element: decoded, malformed if the recognised tag does not decode, or
unknown. -/
def interpret (faults : Faults) (feed : Feed) (start : StartTag) : Stanza × Feed × List Event :=
  match Tag.ofName? start.name with
  | none =>
    let (feed, events) := skipBody faults feed start
    (.unknown start.name, feed, .unknownElement start.name :: events)
  | some tag =>
    let feed := if faults.decode then feed.skip start else feed
    match feed.decode tag start with
    | (.ok stanza, feed) => (stanza, feed, [])
    | (.error error, feed) =>
      let id := start.attr? "id"
      (.malformed tag id error.message, feed, [.decodeFailed tag id error])

/-- One poll of the receiver task with the events it emits; `none` if it is pending, or if its last
step is due. -/
def step? (faults : Faults) (trace : Bool) (i : Inflow) : Option (Inflow × List Event) :=
  match i.reader with
  | .reading =>
    match i.feed.next? with
    | none => none
    | some (.error failure, feed) =>
      some ({ i with feed, reader := .failing failure }, [.readFailed failure])
    | some (.ok start, feed) =>
      let (stanza, feed, events) := interpret faults feed start
      some ({ i with feed, reader := .routing stanza i.registry.snapshot 0 }, events)
  | .routing stanza [] taken =>
    some ({ i with reader := if taken = 0 then .surfacing stanza else .reading },
      if trace then [.routed taken] else [])
  | .routing stanza (id :: rest) taken =>
    if i.registry.accepts id stanza then
      match i.registry.offer id stanza with
      | .accepted registry =>
        some ({ i with registry, reader := .routing stanza rest (taken + 1) }, [])
      | .refused => some ({ i with reader := .routing stanza rest taken }, [.filterGone id])
      | .full => none
    else some ({ i with reader := .routing stanza rest taken }, [])
  | .surfacing stanza =>
    match i.inbound.offer stanza with
    | .accepted inbound => some ({ i with inbound, reader := .reading }, [])
    | .refused => some ({ i with reader := .reading }, [.inboundDropped])
    | .full => none
  | .failing failure =>
    match i.inbound.offer (.failure failure) with
    | .accepted inbound => some ({ i with inbound, reader := .closing }, [])
    | .refused => some ({ i with reader := .closing }, [.failureUnobserved])
    | .full => none
  | .closing | .closed => none

/-- Closes the registry; with the task the sender of the inbound channel is dropped. -/
def tearDown (i : Inflow) : Inflow :=
  { i with registry := i.registry.close, reader := .closed }

def tearDownEvent (i : Inflow) : Event := .readerClosed i.registry.entries.length

end Inflow

end StanzaExchange
