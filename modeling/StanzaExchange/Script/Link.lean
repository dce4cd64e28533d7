import StanzaExchange.Answer

/-!
Scripts for the in-process transport alone: the transport side is driven by hand, the other side is
the peer. No agent runs, so a pending result stays pending until a later step.
-/
namespace StanzaExchange.Script

inductive PeerStep where
  | push (arrival : Arrival)
  | hangUp
  | dropPeer
  | nextSent
  | tryNextSent
  | sent
  | ends

/-- A start tag by the step that read it, or an arbitrary one. -/
inductive StartChoice where
  | read (number : Nat)
  | given (start : StartTag)

inductive LinkStep where
  | peer (step : PeerStep)
  | next
  | decode (tag : Tag) (start : StartChoice)
  | skip (start : StartChoice)
  | send (stanza : Stanza)
  | sendEnd
  | dropTransport

/-- The transport with the start tags read so far. -/
structure LinkSession where
  feed : Feed := {}
  wire : Wire := {}
  /-- Whether the transport side exists. -/
  connected : Bool := true
  starts : List StartTag := []
  journal : List Report := []

namespace LinkSession

def start? (s : LinkSession) : StartChoice → Option StartTag
  | .read number => s.starts[number]?
  | .given start => some start

def performPeer (s : LinkSession) (step : PeerStep) : Answer × LinkSession :=
  if !s.wire.listening then (.gone .peer, s)
  else
    match step with
    | .push arrival =>
      match if s.connected then s.feed.push? arrival else none with
      | some feed => (.flag true, { s with feed })
      | none => (.flag false, s)
    | .hangUp => (.ok, { s with feed := s.feed.hangUp })
    | .dropPeer => (.ok, { s with feed := s.feed.hangUp, wire := s.wire.abandon })
    | .nextSent =>
      match s.wire.take? with
      | some (write, wire) => (.write write, { s with wire })
      | none => (if s.connected then .pending else .nothing, s)
    | .tryNextSent =>
      match s.wire.take? with
      | some (write, wire) => (.write write, { s with wire })
      | none => (.nothing, s)
    | .sent =>
      let (writes, wire) := s.wire.takeAll
      (.writes writes, { s with wire })
    | .ends => (.ends s.wire.endWrites s.wire.ended, s)

def perform (s : LinkSession) : LinkStep → Answer × LinkSession
  | .peer step => s.performPeer step
  | step =>
    if !s.connected then (.gone .transport, s)
    else
      match step with
      | .peer step => s.performPeer step
      | .next =>
        match s.feed.next? with
        | none => (.pending, s)
        | some (.ok start, feed) =>
          (.startTag start, { s with feed, starts := s.starts ++ [start] })
        | some (.error failure, feed) => (.failed failure, { s with feed })
      | .decode tag choice =>
        match s.start? choice with
        | none => (.gone .start, s)
        | some start =>
          match s.feed.decode tag start with
          | (.ok stanza, feed) => (.stanza stanza, { s with feed })
          | (.error error, feed) => (.undecoded error, { s with feed })
      | .skip choice =>
        match s.start? choice with
        | none => (.gone .start, s)
        | some start => (.ok, { s with feed := s.feed.skip start })
      | .send stanza =>
        match s.wire.send stanza with
        | .ok wire => (.ok, { s with wire })
        | .error failure => (.failed failure, s)
      | .sendEnd =>
        let (result, wire) := s.wire.sendEnd
        let after :=
          { s with
            wire
            journal :=
              if s.wire.ended then s.journal else ⟨.application, .endWritten⟩ :: s.journal }
        match result with
        | .ok () => (.ok, after)
        | .error failure => (.failed failure, after)
      | .dropTransport => (.ok, { s with connected := false })

/-- The entries of a script. -/
def run (s : LinkSession) : List LinkStep → List Entry
  | [] => []
  | step :: rest =>
    let (answer, after) := s.perform step
    ⟨answer, newReports s.journal after.journal⟩ :: after.run rest

end LinkSession

end StanzaExchange.Script
