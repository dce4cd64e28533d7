import StanzaExchange.Channel
import StanzaExchange.Journal

/-!
Matchers and the filter registry (sections 4.1, 4.2 and 9 of the specification, modules matcher and
filter). A matcher is any predicate on stanzas. The registry keeps a newest-first index and an arena
of subscriptions; `add`, `remove`, `snapshot` and `close` each hold the lock for the whole of their
body and are single transitions here.

The arena of the program drops a subscription on removal, while `filters` keeps it, marked as
removed, because its receiver and the snapshots taken before still refer to it. The order of the
arena is never observed.

A channel capacity is any natural number. The channels of the program have a largest capacity,
2^61-1 slots, and creating a larger one panics; nothing is claimed about capacities above it.
-/
namespace StanzaExchange

/-- A predicate on stanzas, total and free of side effects. -/
structure Matcher where
  accepts : Stanza → Bool

/-- The predicate of a correlation filter: an iq of kind result or error with this id, or a
malformed iq with this id. -/
def Stanza.answers (id : String) : Stanza → Bool
  | .iq query => query.type.isReply && query.id == id
  | .malformed .iq (some found) _ => found == id
  | _ => false

def Stanza.hasBody (body : Option String) : Stanza → Bool
  | .message sent => sent.body == body
  | _ => false

namespace Matcher

/-- The matcher of a correlation filter. A malformed reply is accepted too, so that it ends the
query. -/
def replyTo (id : String) : Matcher := ⟨Stanza.answers id⟩

def anything : Matcher := ⟨fun _ => true⟩

def nothing : Matcher := ⟨fun _ => false⟩

def failures : Matcher := ⟨Stanza.isFailure⟩

def named (shortName : String) : Matcher := ⟨fun stanza => stanza.shortName == shortName⟩

def withBody (body : Option String) : Matcher := ⟨Stanza.hasBody body⟩

end Matcher

/-- A subscription: a matcher and its delivery channel. -/
structure Filter where
  matcher : Matcher
  /-- Whether the filter was removed, which cancels deliveries to it. -/
  removed : Bool := false
  channel : Channel Stanza

structure Registry where
  /-- The capacity of every delivery channel. -/
  capacity : Nat
  /-- All filters ever added; the position is the id. -/
  filters : List Filter := []
  /-- The newest-first index. -/
  active : List FilterId := []
  /-- The keys of the arena. -/
  entries : List FilterId := []
  /-- Whether the registry was torn down. -/
  closed : Bool := false

namespace Registry

/-- An empty registry. A capacity of zero is raised to one. -/
def ofCapacity (capacity : Nat) : Registry := { capacity := max 1 capacity }

def nextId (r : Registry) : FilterId := r.filters.length

/-- Inserts a filter at the front of the index. After teardown the filter is created as removed. -/
def add (r : Registry) (matcher : Matcher) : Registry :=
  { r with
    filters := r.filters ++ [{ matcher, removed := r.closed, channel := .ofCapacity r.capacity }]
    active := if r.closed then r.active else r.nextId :: r.active
    entries := if r.closed then r.entries else r.entries.insert r.nextId }

def addEvent (r : Registry) : Event :=
  if r.closed then .filterAddedLate r.nextId else .filterAdded r.nextId (r.active.length + 1)

def markRemoved (f : Filter) : Filter := { f with removed := true }

/-- Removes a filter, or answers `none` for not found. -/
def remove? (r : Registry) (id : FilterId) : Option Registry :=
  if id ∈ r.entries then
    some { r with
      filters := r.filters.modify id markRemoved
      active := r.active.erase id
      entries := r.entries.erase id }
  else none

def removeEvent (after : Registry) (id : FilterId) : Event :=
  .filterRemoved id after.active.length

def size (r : Registry) : Nat := r.active.length

def isEmpty (r : Registry) : Bool := r.size == 0

/-- The active filters, newest first, as the receiver task tests them. -/
def snapshot (r : Registry) : List FilterId := r.active.filter (· ∈ r.entries)

/-- Teardown: removes every filter, and every filter that is added later. -/
def close (r : Registry) : Registry :=
  { r with
    filters := r.filters.mapIdx fun id f => if id ∈ r.entries then markRemoved f else f
    active := []
    entries := []
    closed := true }

def filter? (r : Registry) (id : FilterId) : Option Filter := r.filters[id]?

def accepts (r : Registry) (id : FilterId) (stanza : Stanza) : Bool :=
  (r.filter? id).any fun f => f.matcher.accepts stanza

def isRemoved (r : Registry) (id : FilterId) : Bool :=
  (r.filter? id).all fun f => f.removed

def modifyChannel (r : Registry) (id : FilterId) (change : Channel Stanza → Channel Stanza) :
    Registry :=
  { r with filters := r.filters.modify id fun f => { f with channel := change f.channel } }

def putChannel (r : Registry) (id : FilterId) (channel : Channel Stanza) : Registry :=
  r.modifyChannel id fun _ => channel

/-- Applies an attempt to the delivery channel of a filter; a removed filter refuses it. -/
def offerWith (r : Registry) (id : FilterId) (attempt : Channel Stanza → Offer (Channel Stanza)) :
    Offer Registry :=
  match r.filter? id with
  | none => .refused
  | some f => if f.removed then .refused else (attempt f.channel).map (r.putChannel id)

/-- Attempts a delivery. -/
def offer (r : Registry) (id : FilterId) (stanza : Stanza) : Offer Registry :=
  r.offerWith id fun channel => channel.offer stanza

/-- Receives from a delivery channel. What was delivered before the removal is still received; then
the channel has ended. -/
def read (r : Registry) (id : FilterId) : Finding Stanza Registry :=
  match r.filter? id with
  | none => .ended
  | some f => (f.channel.read f.removed).map (r.putChannel id)

def isReceiving (r : Registry) (id : FilterId) : Bool :=
  (r.filter? id).any fun f => f.channel.receiving

end Registry

end StanzaExchange
