/-!
Bounded channels with fair waiting, and the fair run queue of the scheduler. A channel has a
capacity, a FIFO queue of values, and a FIFO queue of the senders that wait for a slot. A slot that
becomes free goes to the longest-waiting sender: a sender with `n` senders ahead of it finds a slot
when the queue and these `n` leave one.

Senders are not counted here; whether a channel is closed from that side is told by the state of its
owner (`read`). The capacity is unbounded, see the header of the registry.
-/
namespace StanzaExchange

/-- A bounded channel with its waiting senders; `receiving` holds until the receiver is dropped. -/
structure Channel (α : Type) where
  capacity : Nat
  queue : List α := []
  /-- The tickets of the waiting senders, longest-waiting first. -/
  waiting : List Nat := []
  receiving : Bool := true
  deriving DecidableEq

/-- The result of an attempt to send. -/
inductive Offer (β : Type) where
  | accepted (after : β)
  | full
  | refused

def Offer.map {β γ : Type} (f : β → γ) : Offer β → Offer γ
  | .accepted after => .accepted (f after)
  | .full => .full
  | .refused => .refused

/-- The result of an attempt to receive. -/
inductive Finding (α β : Type) where
  | taken (value : α) (after : β)
  | empty
  | ended

def Finding.map {α β γ : Type} (f : β → γ) : Finding α β → Finding α γ
  | .taken value after => .taken value (f after)
  | .empty => .empty
  | .ended => .ended

namespace Channel

variable {α : Type}

/-- An empty channel. A capacity of zero is raised to one. -/
def ofCapacity (capacity : Nat) : Channel α := { capacity := max 1 capacity }

/-- An attempt to send with a number of waiting senders ahead. -/
def offerBehind (c : Channel α) (ahead : Nat) (x : α) : Offer (Channel α) :=
  if !c.receiving then .refused
  else if c.queue.length + ahead < c.capacity then .accepted { c with queue := c.queue ++ [x] }
  else .full

/-- An attempt by a sender that does not wait; all waiting senders are ahead. -/
def offer (c : Channel α) (x : α) : Offer (Channel α) :=
  c.offerBehind c.waiting.length x

/-- Enqueues a waiting sender. -/
def await (c : Channel α) (ticket : Nat) : Channel α :=
  { c with waiting := c.waiting ++ [ticket] }

/-- A waiting sender gives up its place. -/
def withdraw (c : Channel α) (ticket : Nat) : Channel α :=
  { c with waiting := c.waiting.erase ticket }

/-- An attempt by a waiting sender. -/
def offerAs (c : Channel α) (ticket : Nat) (x : α) : Offer (Channel α) :=
  (c.offerBehind (c.waiting.idxOf ticket) x).map (·.withdraw ticket)

def take? (c : Channel α) : Option (α × Channel α) :=
  match c.queue with
  | [] => none
  | x :: rest => some (x, { c with queue := rest })

/-- Receives the oldest value. An empty channel has ended once it is `complete`. -/
def read (c : Channel α) (complete : Bool) : Finding α (Channel α) :=
  match c.take? with
  | some (x, after) => .taken x after
  | none => if complete then .ended else .empty

/-- Drops the receiver with all values in the queue. -/
def shut (c : Channel α) : Channel α :=
  { c with queue := [], receiving := false }

end Channel

namespace Turns

variable {α : Type} [BEq α]

/-- The run queue: tasks woken before, then the other ones that can make a step. -/
def enqueue (canStep : α → Bool) (everybody queue : List α) : List α :=
  queue ++ everybody.filter fun a => canStep a && !queue.contains a

/-- The run queue from the first task that can make a step; the tasks `aside` are left out. -/
def upcoming (canStep aside : α → Bool) (everybody queue : List α) : List α :=
  ((enqueue canStep everybody queue).filter (!aside ·)).dropWhile (!canStep ·)

end Turns

end StanzaExchange
