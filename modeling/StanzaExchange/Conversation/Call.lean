import StanzaExchange.Journal

/-!
Pending calls of the application (sections 4.5 and 10.2 of the specification, modules conversation
and error): `send`, `send_recv` with or without a timeout, and `join`. A call is a task of its own
whose state says at which suspension point it is.
-/
namespace StanzaExchange

inductive CallError where
  /-- The conversation ended before the call was completed. -/
  | closed
  /-- The delivered stanza is not a reply; its short name. -/
  | unexpected (found : String)
  /-- The reply is of kind error. -/
  | refused (reply : Iq)
  /-- No reply to the query with this id within the limit. -/
  | timeout (query : String)
  deriving DecidableEq

def CallError.message : CallError → String
  | .closed => "conversation closed"
  | .unexpected found => "expected iq reply, got " ++ found
  | .refused reply => "query " ++ reply.id ++ " failed"
  | .timeout query => "no reply to query " ++ query ++ " in time"

/-- The result of a call. -/
inductive Outcome where
  | sent
  | replied (reply : Iq)
  | joined
  | failed (error : CallError)
  deriving DecidableEq

/-- The result of `send_recv` for the stanza received from the correlation filter, or for its end.
-/
def Outcome.ofReply : Option Stanza → Outcome
  | none => .failed .closed
  | some (.iq reply) =>
    match reply.type with
    | .result => .replied reply
    | .error => .failed (.refused reply)
    | .get | .set => .failed (.unexpected (Stanza.iq reply).shortName)
  | some stanza => .failed (.unexpected stanza.shortName)

/-- A `send_recv` in progress: the request, its correlation filter and its deadline. -/
structure Query where
  iq : Iq
  filter : FilterId
  deadline : Option Nat
  deriving DecidableEq

/-- The suspension points of the calls. -/
inductive Work where
  | send (stanza : Stanza)
  /-- Waits for a slot of the outbound channel. -/
  | sendWaiting (stanza : Stanza)
  | query (iq : Iq) (limit : Option Nat)
  | queryOffering (query : Query)
  /-- Waits for a slot of the outbound channel. -/
  | queryWaiting (query : Query)
  /-- Waits on the correlation filter. -/
  | queryAwaiting (query : Query)
  | join
  /-- Drops the inbound receiver. -/
  | leaving
  /-- Waits for both tasks. -/
  | joining
  | done (outcome : Outcome)
  | cancelled
  deriving DecidableEq

namespace Work

def isRunning : Work → Bool
  | .done _ | .cancelled => false
  | _ => true

/-- The query whose correlation filter the call holds. -/
def query? : Work → Option Query
  | .queryOffering asked | .queryWaiting asked | .queryAwaiting asked => some asked
  | _ => none

end Work

/-- A call; `sender` tells whether it holds a sender of the outbound channel. -/
structure Call where
  sender : Bool
  work : Work
  /-- Whether the call is aborted at its next poll. -/
  aborted : Bool := false
  deriving DecidableEq

end StanzaExchange
