import StanzaExchange.Stanza.Decode

/-!
The in-process transport (sections 6 and 10.1 of the specification, modules transport and memory).
The feed is the inbound direction: `next` yields the start tag of the next element, whose body is
pending until `decode` or `skip` takes it or the next element replaces it. The wire is the outbound
direction: it keeps the writes that the peer has not observed, and counts the attempts to write the
stream end.

Both ends live in one process; byte framing, tokenisation and network failures are not modelled,
except as a `Failure` that the peer feeds. `Faults` stands for a transport that wraps this one and
lets single operations fail; theorems about the in-process transport assume the relevant fields to
be false.
-/
namespace StanzaExchange

inductive Arrival where
  | element (element : Element)
  | failure (failure : Failure)
  deriving DecidableEq

/-- The inbound direction; `body` is the pending element. -/
structure Feed where
  arrivals : List Arrival := []
  /-- Whether the peer can still feed. -/
  feeding : Bool := true
  body : Option Element := none
  deriving DecidableEq

namespace Feed

def push? (f : Feed) (arrival : Arrival) : Option Feed :=
  if f.feeding then some { f with arrivals := f.arrivals ++ [arrival] } else none

/-- Closes the feed; the arrivals in it can still be read. -/
def hangUp (f : Feed) : Feed := { f with feeding := false }

/-- Reads the next arrival. On an empty feed it waits, or fails with `closed` once the peer has hung
up. The body of an earlier element that is still pending is lost. -/
def next? (f : Feed) : Option (Except Failure StartTag × Feed) :=
  match f.arrivals with
  | .element e :: rest => some (.ok e.startTag, { f with arrivals := rest, body := some e })
  | .failure failure :: rest => some (.error failure, { f with arrivals := rest })
  | [] => if f.feeding then none else some (.error .closed, f)

/-- Takes the pending body and decodes it if its name is that of the start tag. The comparison is by
name only, so the body need not be the one that the start tag belongs to. -/
def decode (f : Feed) (tag : Tag) (start : StartTag) : Except DecodeError Stanza × Feed :=
  let result :=
    match f.body with
    | some e => if e.name = start.name then e.decode tag else .error (.missingBody start.name)
    | none => .error (.missingBody start.name)
  (result, { f with body := none })

/-- Drops the pending body if its name is that of the start tag. -/
def skip (f : Feed) (start : StartTag) : Feed :=
  match f.body with
  | some e => if e.name = start.name then { f with body := none } else f
  | none => f

end Feed

inductive Write where
  | stanza (stanza : Stanza)
  | streamEnd
  deriving DecidableEq

/-- The outbound direction: unobserved writes and the state of the stream end. -/
structure Wire where
  writes : List Write := []
  /-- Whether the peer is there. -/
  listening : Bool := true
  ended : Bool := false
  /-- The number of attempts to write the stream end. -/
  endWrites : Nat := 0
  deriving DecidableEq

namespace Wire

/-- Fails with `closed` after the stream end, and when the peer is gone. -/
def send (w : Wire) (stanza : Stanza) : Except Failure Wire :=
  if w.ended then .error .closed
  else if !w.listening then .error .closed
  else .ok { w with writes := w.writes ++ [.stanza stanza] }

/-- Writes the stream end. The first attempt ends the stream even when the peer is gone; every later
one fails. -/
def sendEnd (w : Wire) : Except Failure Unit × Wire :=
  let tried := { w with endWrites := w.endWrites + 1 }
  if w.ended then (.error (.framing "stream end written twice"), tried)
  else
    let ended := { tried with ended := true }
    if w.listening then (.ok (), { ended with writes := ended.writes ++ [.streamEnd] })
    else (.error .closed, ended)

def take? (w : Wire) : Option (Write × Wire) :=
  match w.writes with
  | [] => none
  | x :: rest => some (x, { w with writes := rest })

def takeAll (w : Wire) : List Write × Wire := (w.writes, { w with writes := [] })

/-- The peer is dropped, with all unobserved writes. -/
def abandon (w : Wire) : Wire := { w with writes := [], listening := false }

end Wire

/-- The operations of the transport that fail. -/
structure Faults where
  send : Bool := false
  sendEnd : Bool := false
  skip : Bool := false
  /-- The pending body is lost before `decode`. -/
  decode : Bool := false
  /-- The default `skip` of a transport, which does nothing. -/
  idleSkip : Bool := false
  deriving DecidableEq, Repr

namespace Faults

def none : Faults := {}

def sendFailure : Failure := .io "send fault"

def sendEndFailure : Failure := .io "send_end fault"

def skipFailure : Failure := .io "skip fault"

end Faults

end StanzaExchange
