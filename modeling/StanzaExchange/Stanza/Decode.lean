import StanzaExchange.Stanza
import StanzaExchange.Text

/-!
`decode` (section 10.1 of the specification, module decode): materialises an element into the stanza
type of a selected tag. The element name is checked first; then attributes and children are read in
the order in which the functions below name them, and the first violated rule is the error.
Attributes and children that no rule names are ignored.
-/
namespace StanzaExchange

/-- A decode error. -/
inductive DecodeError where
  | unexpectedElement (expected : Tag) (found : String)
  | missingAttribute (tag : Tag) (attr : String)
  | invalidAttribute (tag : Tag) (attr : String) (value : String)
  | invalidJid (error : Jid.Error)
  | missingBody (name : String)
  deriving DecidableEq, Repr

def DecodeError.message : DecodeError → String
  | .unexpectedElement expected found =>
    "expected <" ++ expected.name ++ "/>, found <" ++ found ++ "/>"
  | .missingAttribute tag attr => "<" ++ tag.name ++ "/> is missing attribute " ++ Text.quote attr
  | .invalidAttribute tag attr value =>
    "<" ++ tag.name ++ "/> has invalid " ++ Text.quote attr ++ ": " ++ Text.quote value
  | .invalidJid error => "invalid address: " ++ error.message
  | .missingBody name => "no element body available for <" ++ name ++ "/>"

namespace Element

/-- An optional attribute that has to be an address. -/
def address? (e : Element) (attr : String) : Except DecodeError (Option Jid) :=
  match e.attr? attr with
  | none => .ok none
  | some text =>
    match Jid.parse text with
    | .ok jid => .ok (some jid)
    | .error error => .error (.invalidJid error)

def requiredAttr (e : Element) (tag : Tag) (attr : String) : Except DecodeError String :=
  match e.attr? attr with
  | some value => .ok value
  | none => .error (.missingAttribute tag attr)

/-- The value of a `type` attribute, among those that the tag admits. -/
def readType {α : Type} (tag : Tag) (ofValue? : String → Option α) (value : String) :
    Except DecodeError α :=
  match ofValue? value with
  | some type => .ok type
  | none => .error (.invalidAttribute tag "type" value)

/-- An optional `type` attribute. -/
def type? {α : Type} (e : Element) (tag : Tag) (ofValue? : String → Option α) :
    Except DecodeError (Option α) :=
  match e.attr? "type" with
  | none => .ok none
  | some value => (readType tag ofValue? value).map some

/-- The order is `id`, `type`, `from`, `to`; the payload is the first child. -/
def decodeIq (e : Element) : Except DecodeError Iq := do
  let id ← e.requiredAttr .iq "id"
  let value ← e.requiredAttr .iq "type"
  let type ← readType .iq IqType.ofValue? value
  let sender ← e.address? "from"
  let recipient ← e.address? "to"
  return { id, type, sender, recipient, payload := e.children.head? }

/-- The order is `type`, `from`, `to`; an absent type is `normal`. -/
def decodeMessage (e : Element) : Except DecodeError Message := do
  let type ← e.type? .message MessageType.ofValue?
  let sender ← e.address? "from"
  let recipient ← e.address? "to"
  return {
    id := e.attr? "id"
    type := type.getD .default
    sender
    recipient
    subject := e.childText? "subject"
    body := e.childText? "body"
    thread := e.childText? "thread"
  }

/-- Trims the text and parses it as a signed integer of eight bits. -/
def readPriority (text : String) : Option Priority :=
  Priority.ofChars? (Text.trim text.toList)

/-- The priority in the first child of that name; the error shows the text as written. -/
def priority? (e : Element) : Except DecodeError (Option Priority) :=
  match e.childText? "priority" with
  | none => .ok none
  | some text =>
    match readPriority text with
    | some priority => .ok (some priority)
    | none => .error (.invalidAttribute .presence "priority" text)

/-- The order is `type`, `priority`, `from`, `to`. -/
def decodePresence (e : Element) : Except DecodeError Presence := do
  let type ← e.type? .presence PresenceType.ofValue?
  let priority ← e.priority?
  let sender ← e.address? "from"
  let recipient ← e.address? "to"
  return {
    id := e.attr? "id"
    type
    sender
    recipient
    shown := e.childText? "show"
    status := e.childText? "status"
    priority
  }

/-- The condition is the name of the first child other than `text`. -/
def decodeStreamError (e : Element) : StreamError where
  condition := ((e.children.find? fun child => child.name ≠ "text").map (·.name)).getD ""
  text := e.childText? "text"

def decode (tag : Tag) (e : Element) : Except DecodeError Stanza :=
  if e.name ≠ tag.name then .error (.unexpectedElement tag e.name)
  else
    match tag with
    | .error => .ok (.error e.decodeStreamError)
    | .iq => e.decodeIq.map .iq
    | .message => e.decodeMessage.map .message
    | .presence => e.decodePresence.map .presence

end Element

end StanzaExchange
