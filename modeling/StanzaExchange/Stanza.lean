import StanzaExchange.Element
import StanzaExchange.Jid
import StanzaExchange.Text

/-!
The stanza types (section 10.1 of the specification, module stanza): the closed set of tags, the
four typed payloads, and the sum type that also carries unknown elements, malformed elements and
transport failures. Constructors for common stanzas follow the specification; serialisation to XML
is not modelled.
-/
namespace StanzaExchange

/-- The tags that select a stanza type. -/
inductive Tag where
  | error | iq | message | presence
  deriving DecidableEq, Repr

def Tag.name : Tag → String
  | .error => "error"
  | .iq => "iq"
  | .message => "message"
  | .presence => "presence"

/-- Exact, case-sensitive comparison. -/
def Tag.ofName? : String → Option Tag
  | "error" => some .error
  | "iq" => some .iq
  | "message" => some .message
  | "presence" => some .presence
  | _ => none

/-- The type of an iq. -/
inductive IqType where
  | get | set | result | error
  deriving DecidableEq, Repr

namespace IqType

/-- The value of the `type` attribute. -/
def value : IqType → String
  | .get => "get"
  | .set => "set"
  | .result => "result"
  | .error => "error"

def ofValue? : String → Option IqType
  | "get" => some .get
  | "set" => some .set
  | "result" => some .result
  | "error" => some .error
  | _ => none

/-- Whether the type is that of a reply. -/
def isReply : IqType → Bool
  | .result | .error => true
  | .get | .set => false

end IqType

/-- The type of a message. -/
inductive MessageType where
  | chat | error | groupchat | headline | normal
  deriving DecidableEq, Repr

namespace MessageType

def value : MessageType → String
  | .chat => "chat"
  | .error => "error"
  | .groupchat => "groupchat"
  | .headline => "headline"
  | .normal => "normal"

def ofValue? : String → Option MessageType
  | "chat" => some .chat
  | "error" => some .error
  | "groupchat" => some .groupchat
  | "headline" => some .headline
  | "normal" => some .normal
  | _ => none

/-- The type of a message without a `type` attribute. -/
def default : MessageType := .normal

end MessageType

/-- The type of a presence; presence without a type announces availability. -/
inductive PresenceType where
  | error | probe | subscribe | subscribed | unavailable | unsubscribe | unsubscribed
  deriving DecidableEq, Repr

namespace PresenceType

def value : PresenceType → String
  | .error => "error"
  | .probe => "probe"
  | .subscribe => "subscribe"
  | .subscribed => "subscribed"
  | .unavailable => "unavailable"
  | .unsubscribe => "unsubscribe"
  | .unsubscribed => "unsubscribed"

def ofValue? : String → Option PresenceType
  | "error" => some .error
  | "probe" => some .probe
  | "subscribe" => some .subscribe
  | "subscribed" => some .subscribed
  | "unavailable" => some .unavailable
  | "unsubscribe" => some .unsubscribe
  | "unsubscribed" => some .unsubscribed
  | _ => none

end PresenceType

/-- An iq: a request (get, set) or a reply (result, error) to the request with the same id. -/
structure Iq where
  id : String
  type : IqType
  sender : Option Jid := none
  recipient : Option Jid := none
  payload : Option Element := none
  deriving DecidableEq

namespace Iq

def get (id : String) (payload : Element) : Iq := { id, type := .get, payload := some payload }

def set (id : String) (payload : Element) : Iq := { id, type := .set, payload := some payload }

/-- A reply to a request: same id, sender and recipient exchanged. -/
def reply (request : Iq) (type : IqType) (payload : Option Element) : Iq :=
  { id := request.id, type, sender := request.recipient, recipient := request.sender, payload }

def resultFor (request : Iq) (payload : Option Element) : Iq := request.reply .result payload

def errorFor (request : Iq) (condition : Element) : Iq := request.reply .error (some condition)

end Iq

structure Message where
  id : Option String := none
  type : MessageType := .default
  sender : Option Jid := none
  recipient : Option Jid := none
  subject : Option String := none
  body : Option String := none
  thread : Option String := none
  deriving DecidableEq, Repr

def Message.chat (recipient : Jid) (body : String) : Message :=
  { type := .chat, recipient := some recipient, body := some body }

/-- The priority of a presence, a signed integer of eight bits. -/
structure Priority where
  value : Int
  lower : -128 ≤ value
  upper : value ≤ 127
  deriving DecidableEq, Repr

namespace Priority

def ofInt? (n : Int) : Option Priority :=
  if h : -128 ≤ n ∧ n ≤ 127 then some ⟨n, h.1, h.2⟩ else none

def zero : Priority := ⟨0, by decide, by decide⟩

/-- Appends a decimal digit, downwards for a negative number. The accumulator is checked at each
digit, so a numeral whose prefix leaves the range is rejected at that point. -/
def push? (negative : Bool) (rank : Priority) (c : Char) : Option Priority := do
  let tens ← ofInt? (10 * rank.value)
  let digit ← Text.digitIn? 10 c
  ofInt? (if negative then tens.value - digit else tens.value + digit)

/-- Parses a non-empty sequence of decimal digits. -/
def ofDigits? (negative : Bool) (digits : List Char) : Option Priority :=
  if digits = [] then none else digits.foldlM (push? negative) zero

/-- Parses a decimal numeral with at most one sign. -/
def ofChars? : List Char → Option Priority
  | '+' :: digits => ofDigits? false digits
  | '-' :: digits => ofDigits? true digits
  | digits => ofDigits? false digits

end Priority

structure Presence where
  id : Option String := none
  type : Option PresenceType := none
  sender : Option Jid := none
  recipient : Option Jid := none
  shown : Option String := none
  status : Option String := none
  priority : Option Priority := none
  deriving DecidableEq, Repr

namespace Presence

def available : Presence := {}

def unavailable : Presence := { type := some .unavailable }

end Presence

/-- A stream error. -/
structure StreamError where
  condition : String := ""
  text : Option String := none
  deriving DecidableEq, Repr

/-- A transport error. -/
inductive Failure where
  | closed
  | io (text : String)
  | framing (text : String)
  deriving DecidableEq, Repr

def Failure.message : Failure → String
  | .closed => "stream closed"
  | .io text => text
  | .framing text => "framing error: " ++ text

/-- A decoded stanza, or what stands in for one. -/
inductive Stanza where
  | iq (query : Iq)
  | message (message : Message)
  | presence (presence : Presence)
  | error (error : StreamError)
  /-- An element with an unrecognised tag. -/
  | unknown (name : String)
  /-- An element with a recognised tag that does not decode. -/
  | malformed (tag : Tag) (id : Option String) (reason : String)
  /-- A transport failure. -/
  | failure (failure : Failure)
  deriving DecidableEq

namespace Stanza

/-- The name used in diagnostics. -/
def shortName : Stanza → String
  | .iq _ => "iq"
  | .message _ => "message"
  | .presence _ => "presence"
  | .error _ => "error"
  | .unknown _ => "unknown element"
  | .malformed _ _ _ => "malformed stanza"
  | .failure _ => "transport failure"

def isFailure : Stanza → Bool
  | .failure _ => true
  | _ => false

def iq? : Stanza → Option Iq
  | .iq query => some query
  | _ => none

end Stanza

end StanzaExchange
