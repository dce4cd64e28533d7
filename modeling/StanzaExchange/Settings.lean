/-!
The settings of a conversation (section 10.3 of the specification, module config): three channel
capacities with default and minimum one, and the switch for per-stanza trace logging. `validate`
rejects a zero capacity; a conversation started from settings that were not validated raises zero to
one.
-/
namespace StanzaExchange

inductive Capacity where
  | inbound | outbound | filter
  deriving DecidableEq, Repr

namespace Capacity

def key : Capacity → String
  | .inbound => "inbound_capacity"
  | .outbound => "outbound_capacity"
  | .filter => "filter_capacity"

/-- The order in which capacities are checked. -/
def all : List Capacity := [.inbound, .outbound, .filter]

end Capacity

structure Settings where
  inboundCapacity : Nat := 1
  outboundCapacity : Nat := 1
  filterCapacity : Nat := 1
  traceStanzas : Bool := false
  deriving DecidableEq, Repr

inductive Settings.Error where
  /-- The text is not a document of settings. -/
  | unreadable
  | zeroCapacity (capacity : Capacity)
  deriving DecidableEq, Repr

namespace Settings

/-- The message of a rejected capacity. The message of an unreadable document is not modelled. -/
def Error.message? : Error → Option String
  | .unreadable => none
  | .zeroCapacity capacity => some (capacity.key ++ " must be at least 1")

def capacity (s : Settings) : Capacity → Nat
  | .inbound => s.inboundCapacity
  | .outbound => s.outboundCapacity
  | .filter => s.filterCapacity

/-- Rejects the first zero capacity. -/
def validate (s : Settings) : Except Error Unit :=
  match Capacity.all.find? fun c => s.capacity c = 0 with
  | some c => .error (.zeroCapacity c)
  | none => .ok ()

/-- A key of the document with its value. -/
inductive Entry where
  | capacity (capacity : Capacity) (value : Nat)
  | traceStanzas (value : Bool)
  deriving DecidableEq, Repr

def Entry.key : Entry → String
  | .capacity c _ => c.key
  | .traceStanzas _ => "trace_stanzas"

def put (s : Settings) : Entry → Settings
  | .capacity .inbound n => { s with inboundCapacity := n }
  | .capacity .outbound n => { s with outboundCapacity := n }
  | .capacity .filter n => { s with filterCapacity := n }
  | .traceStanzas b => { s with traceStanzas := b }

/-- The defaults, overridden by the entries. -/
def ofEntries (entries : List Entry) : Settings :=
  entries.foldl put {}

end Settings

end StanzaExchange
