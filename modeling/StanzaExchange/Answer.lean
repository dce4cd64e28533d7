import StanzaExchange.Conversation.Call
import StanzaExchange.Link
import StanzaExchange.Registry

/-!
Results of the operations of the application and the peer, and the entries that a script leaves: the
result of each step with the events emitted meanwhile, and the debug form of values that are shown.
Debug forms follow the program's derived ones, as far as a script shows them.
-/
namespace StanzaExchange

/-- The receiver of an operation that does not exist, or not any more. -/
inductive Missing where
  | conversation | handle | peer | transport | start | call | sub | receiver
  deriving DecidableEq, Repr

def Missing.word : Missing → String
  | .conversation => "conversation"
  | .handle => "handle"
  | .peer => "peer"
  | .transport => "transport"
  | .start => "start"
  | .call => "call"
  | .sub => "sub"
  | .receiver => "receiver"

/-- The result of an operation. -/
inductive Answer where
  | ok
  /-- A closed channel, or nothing there. -/
  | nothing
  /-- An operation that is still pending. -/
  | pending
  | cancelled
  | joined
  | flag (value : Bool)
  | count (value : Nat)
  | text (value : String)
  | filterId (id : FilterId)
  | handle (number : Nat)
  | call (number : Nat)
  | jid (jid : Jid)
  | stanza (stanza : Stanza)
  | write (write : Write)
  | writes (writes : List Write)
  | ends (writes : Nat) (ended : Bool)
  | startTag (start : StartTag)
  | snapshot (number : Nat) (ids : List FilterId)
  | subscription (id : FilterId) (closed : Bool) (text : String)
  | receiver (id : FilterId) (closed : Bool)
  | size (filters : Nat)
  | gone (missing : Missing)
  | notFound (id : FilterId)
  | failed (failure : Failure)
  | undecoded (error : DecodeError)
  | refused (error : CallError)
  deriving DecidableEq

namespace Answer

/-- The message of a filter that is not found. -/
def notFoundMessage (id : FilterId) : String := "invalid filter id: " ++ id.repr

def ofOutcome : Outcome → Answer
  | .sent => .ok
  | .replied reply => .stanza (.iq reply)
  | .joined => .joined
  | .failed error => .refused error

end Answer

namespace Script

/-- The result of a step and the events since the step before. -/
structure Entry where
  answer : Answer
  reports : List Report

def newReports (before after : List Report) : List Report :=
  (after.take (after.length - before.length)).reverse

def showFlag : Bool → String
  | true => "true"
  | false => "false"

def showFilterId (id : FilterId) : String := "FilterId(" ++ id.repr ++ ")"

/-- The debug form of a record; `more` for one that is not exhaustive. -/
def showFields (name : String) (fields : List (String × String)) (more : Bool) : String :=
  let shown := fields.map fun field => field.1 ++ ": " ++ field.2
  name ++ " \x7b " ++ ", ".intercalate (shown ++ if more then [".."] else []) ++ " \x7d"

def showJid (jid : Jid) : String :=
  showFields "Jid"
    [("node", Event.optionalText jid.node), ("domain", Text.quote jid.domain),
      ("resource", Event.optionalText jid.resource)] false

def showRegistry (r : Registry) : String :=
  showFields "FilterRegistry"
    [("order", "[" ++ ", ".intercalate (r.active.map showFilterId) ++ "]"),
      ("closed", showFlag r.closed), ("capacity", r.capacity.repr)] false

/-- A subscription as a snapshot shows it. -/
def showSubscription (r : Registry) (id : FilterId) : String :=
  showFields "Subscription"
    [("id", showFilterId id), ("closed", showFlag (r.isRemoved id))] true

end Script

end StanzaExchange
