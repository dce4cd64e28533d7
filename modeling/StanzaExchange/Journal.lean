import StanzaExchange.Stanza.Decode

/-!
The diagnostic events of a conversation (section 10.3 of the specification): reporter, level, name
and fields. The stanza of a trace event is shown as a dash; time stamps, span ids and the formatting
of subscribers are not modelled.
-/
namespace StanzaExchange

/-- Filter ids, strictly increasing in the order of registration. -/
abbrev FilterId := Nat

/-- The task that reports an event. -/
inductive Reporter where
  | application | writer | reader
  deriving DecidableEq, Repr

/-- The value of the field `origin` of a termination event. -/
def Reporter.origin : Reporter → String
  | .application => "application"
  | .writer => "sender"
  | .reader => "receiver"

inductive Level where
  | warn | debug | trace
  deriving DecidableEq, Repr

def Level.word : Level → String
  | .warn => "WARN"
  | .debug => "DEBUG"
  | .trace => "TRACE"

inductive Event where
  | started (jid : Jid)
  | finished (jid : Jid)
  | joined (jid : Jid)
  | renamed (before after : Jid)
  | queried (query : String) (filter : FilterId)
  /-- The number of active filters includes the new one. -/
  | filterAdded (filter : FilterId) (active : Nat)
  /-- The number of active filters excludes the removed one. -/
  | filterRemoved (filter : FilterId) (active : Nat)
  | filterAddedLate (filter : FilterId)
  | closing (origin : Reporter)
  | alreadyClosed (origin : Reporter)
  | endFailed (origin : Reporter) (failure : Failure)
  | endWritten
  | writerStopped (pending : Nat)
  | writing
  | writeFailed (stanza : String) (failure : Failure)
  | outboundClosed
  | readFailed (failure : Failure)
  | failureUnobserved
  | inboundDropped
  | readerClosed (orphans : Nat)
  | unknownElement (name : String)
  | skipFailed (name : String) (failure : Failure)
  | decodeFailed (tag : Tag) (id : Option String) (error : DecodeError)
  | filterGone (filter : FilterId)
  | routed (filters : Nat)
  deriving DecidableEq, Repr

namespace Event

def level : Event → Level
  | .endFailed _ _ | .writeFailed _ _ | .readFailed _ | .unknownElement _ | .skipFailed _ _
  | .decodeFailed _ _ _ => .warn
  | .alreadyClosed _ | .endWritten | .writing | .routed _ => .trace
  | _ => .debug

def name : Event → String
  | .started _ => "conversation.start"
  | .finished _ => "conversation.finish"
  | .joined _ => "conversation.joined"
  | .renamed _ _ => "conversation.jid"
  | .queried _ _ => "conversation.send_recv"
  | .filterAdded _ _ => "conversation.filter.add"
  | .filterRemoved _ _ => "conversation.filter.remove"
  | .filterAddedLate _ => "conversation.filter.add_after_close"
  | .closing _ => "conversation.close"
  | .alreadyClosed _ => "conversation.close.already_closed"
  | .endFailed _ _ => "conversation.close.send_end_failed"
  | .endWritten => "memory.send_end"
  | .writerStopped _ => "conversation.sender.stream_ended"
  | .writing => "conversation.sender.send"
  | .writeFailed _ _ => "conversation.sender.send_failed"
  | .outboundClosed => "conversation.sender.outbound_closed"
  | .readFailed _ => "conversation.receiver.transport_failed"
  | .failureUnobserved => "conversation.receiver.failure_unobserved"
  | .inboundDropped => "conversation.receiver.inbound_dropped"
  | .readerClosed _ => "conversation.receiver.closed"
  | .unknownElement _ => "conversation.receiver.unknown_element"
  | .skipFailed _ _ => "conversation.receiver.skip_failed"
  | .decodeFailed _ _ _ => "conversation.receiver.decode_failed"
  | .filterGone _ => "conversation.receiver.filter_gone"
  | .routed _ => "conversation.receiver.route"

def optionalText : Option String → String
  | none => "None"
  | some text => "Some(" ++ Text.quote text ++ ")"

/-- The field of a trace event that would show the stanza. -/
def stanzaMark : String := "-"

def fields : Event → List (String × String)
  | .started jid | .finished jid | .joined jid => [("jid", jid.render)]
  | .renamed before after => [("from", before.render), ("to", after.render)]
  | .queried query filter => [("query", query), ("filter_id", filter.repr)]
  | .filterAdded filter active | .filterRemoved filter active =>
    [("filter_id", filter.repr), ("active", active.repr)]
  | .filterAddedLate filter | .filterGone filter => [("filter_id", filter.repr)]
  | .closing origin | .alreadyClosed origin => [("origin", origin.origin)]
  | .endFailed origin failure => [("origin", origin.origin), ("error", failure.message)]
  | .writerStopped pending => [("pending", pending.repr)]
  | .writing => [("stanza", stanzaMark)]
  | .writeFailed stanza failure => [("kind", stanza), ("error", failure.message)]
  | .readFailed failure => [("error", failure.message)]
  | .readerClosed orphans => [("orphaned_filters", orphans.repr)]
  | .unknownElement name => [("element", name)]
  | .skipFailed name failure => [("element", name), ("error", failure.message)]
  | .decodeFailed tag id error =>
    [("kind", tag.name), ("id", optionalText id), ("error", error.message)]
  | .routed filters => [("stanza", stanzaMark), ("filters", filters.repr)]
  | .endWritten | .outboundClosed | .failureUnobserved | .inboundDropped => []

end Event

structure Report where
  reporter : Reporter
  event : Event
  deriving DecidableEq, Repr

end StanzaExchange
