import StanzaExchange.Channel
import StanzaExchange.Link
import StanzaExchange.Journal

/-!
The sender task (section 4.3 of the specification, modules sender and closer) with the state it owns
or shares: the outbound channel, the wire and the termination guard. A step runs from one suspension
point to the next.

`close` is the single-execution guard of section 9 together with what follows it in the program: the
check-and-set of the guard, the write of the stream end, the cancellation signal and the events. The
write of the in-process transport never suspends, so on a single-threaded scheduler these happen
within one poll; here they are one transition, and `terminated` stands both for the guard and for
the signal. On several threads another task can run between them; no theorem covers such a run.
-/
namespace StanzaExchange

/-- The program counter of the sender task. -/
inductive Writer where
  | taking
  | writing (stanza : Stanza)
  | closed
  deriving DecidableEq

/-- The outbound half of a conversation. -/
structure Outflow where
  outbound : Channel Stanza
  wire : Wire := {}
  writer : Writer := .taking
  /-- Whether the guard was taken; the stream end was then written or its write has failed. -/
  terminated : Bool := false
  /-- Whether writes of the transport are pending. -/
  stalled : Bool := false
  deriving DecidableEq

namespace Outflow

def write (faults : Faults) (w : Wire) (stanza : Stanza) : Except Failure Wire :=
  if faults.send then .error Faults.sendFailure else w.send stanza

/-- Writes the stream end; the last component is what the transport reports. -/
def writeEnd (faults : Faults) (w : Wire) : Except Failure Unit × Wire × List Event :=
  if faults.sendEnd then (.error Faults.sendEndFailure, w, [])
  else
    let (result, after) := w.sendEnd
    (result, after, if w.ended then [] else [.endWritten])

/-- Terminates the stream; true for the call that took the guard. -/
def close (faults : Faults) (origin : Reporter) (o : Outflow) : Bool × Outflow × List Event :=
  if o.terminated then (false, o, [.alreadyClosed origin])
  else
    let (result, wire, events) := writeEnd faults o.wire
    let failed :=
      match result with
      | .ok () => []
      | .error failure => [.endFailed origin failure]
    (true, { o with wire, terminated := true }, .closing origin :: events ++ failed)

/-- The task exits and drops the receiver of the outbound channel, with what is queued there. -/
def stop (o : Outflow) : Outflow :=
  { o with outbound := o.outbound.shut, writer := .closed }

/-- One poll of the sender task with the events it emits; `none` if it is pending. Cancellation is
checked before the channel, so queued stanzas are discarded after termination. When the channel is
closed and empty the task terminates the stream itself. -/
def step? (faults : Faults) (trace : Bool) (producing : Bool) (o : Outflow) :
    Option (Outflow × List Event) :=
  match o.writer with
  | .taking =>
    if o.terminated then some (o.stop, [.writerStopped o.outbound.queue.length])
    else
      match o.outbound.take? with
      | some (stanza, outbound) =>
        some ({ o with outbound, writer := .writing stanza }, if trace then [.writing] else [])
      | none =>
        if producing then none
        else
          let (_, o, events) := o.close faults .writer
          some (o.stop, .outboundClosed :: events)
  | .writing stanza =>
    if o.stalled then none
    else
      match write faults o.wire stanza with
      | .ok wire => some ({ o with wire, writer := .taking }, [])
      | .error failure =>
        some ({ o with writer := .taking }, [.writeFailed stanza.shortName failure])
  | .closed => none

end Outflow

end StanzaExchange
