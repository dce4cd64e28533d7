import Mathlib.Data.List.ModifyLast
import StanzaExchange.Proofs.Ending
import StanzaExchange.Proofs.Routing

/-!
Order on the inbound side (section 5 and property P1 of the specification). A passage is an element
that was read together with its takers. The history determines the passages (`note`), and `Account`
is the invariant that ties them to the deliveries and to the inbound channel, with one case for each
program counter of the receiver task (`Stage`). Faults of the transport are allowed: they only
change what an element is read as.
-/
namespace StanzaExchange

open Inflow (Flow Touch handsTo Advance)

namespace Arrival

def element? : Arrival → Option Element
  | .element e => some e
  | .failure _ => none

def failure? : Arrival → Option Failure
  | .element _ => none
  | .failure f => some f

end Arrival

/-- An element that was read, with its takers in order. -/
structure Passage where
  element : Element
  takers : List FilterId := []
  deriving DecidableEq

namespace Passage

variable {faults : Faults} {p : Passage}

def stanza (faults : Faults) (p : Passage) : Stanza := p.element.readAs faults

/-- The deliveries of the passage. -/
def hands (faults : Faults) (p : Passage) : List (FilterId × Stanza) :=
  p.takers.map (·, p.stanza faults)

/-- The stanzas without taker, in order. -/
def untaken (faults : Faults) (passages : List Passage) : List Stanza :=
  (passages.filter (·.takers.isEmpty)).map (stanza faults)

/-- The stanzas delivered to a filter, in order. -/
def takenBy (faults : Faults) (id : FilterId) (passages : List Passage) : List Stanza :=
  (passages.filter (id ∈ ·.takers)).map (stanza faults)

theorem untaken_concat (earlier : List Passage) (last : Passage) :
    untaken faults (earlier ++ [last]) =
      untaken faults earlier ++ if last.takers = [] then [last.stanza faults] else [] := by
  by_cases none : last.takers = [] <;> simp [untaken, none]

/-- A passage delivers its stanza once to each of its takers. -/
theorem handsTo_hands (id : FilterId) (distinct : p.takers.Nodup) :
    handsTo id (p.hands faults) = if id ∈ p.takers then [p.stanza faults] else [] := by
  unfold hands
  generalize p.stanza faults = stanza
  revert distinct
  induction p.takers with
  | nil => exact fun _ => rfl
  | cons taker rest ih =>
    intro distinct
    obtain ⟨fresh, distinct⟩ := List.nodup_cons.mp distinct
    have others := ih distinct
    by_cases same : taker = id
    · subst same
      rw [if_neg fresh] at others
      simpa [handsTo] using others
    · simpa [handsTo, same, Ne.symm same] using others

theorem handsTo_flatMap (id : FilterId) {passages : List Passage}
    (distinct : ∀ p ∈ passages, p.takers.Nodup) :
    handsTo id (passages.flatMap (hands faults)) = takenBy faults id passages := by
  induction passages with
  | nil => rfl
  | cons p rest ih =>
    obtain ⟨first, others⟩ := List.forall_mem_cons.mp distinct
    have split : handsTo id ((p :: rest).flatMap (hands faults)) =
        handsTo id (p.hands faults) ++ handsTo id (rest.flatMap (hands faults)) := by
      simp [handsTo]
    rw [split, handsTo_hands id first, ih others]
    by_cases taker : id ∈ p.takers <;> simp [takenBy, taker]

end Passage

/-- The passages after a step: an element that is read begins one, a delivery extends the last one.
-/
def Moment.note (m : Moment) (passages : List Passage) : List Passage :=
  passages.modifyLast (fun p => { p with takers := p.takers ++ m.handed.map Prod.fst }) ++
    (m.read.filterMap Arrival.element?).map fun e => { element := e }

namespace Moment

variable {m : Moment} {passages earlier : List Passage} {last : Passage}

private theorem modifyLast_nil (passages : List Passage) :
    passages.modifyLast (fun p => { p with takers := p.takers ++ [] }) = passages := by
  rcases passages.eq_nil_or_concat with rfl | ⟨earlier, last, rfl⟩
  · rfl
  · simp [List.modifyLast_concat]

theorem note_unhanded (unhanded : m.handed = []) :
    m.note passages =
      passages ++ (m.read.filterMap Arrival.element?).map fun e => { element := e } := by
  rw [note, unhanded, List.map_nil, modifyLast_nil]

theorem note_unread (unread : m.read = []) :
    m.note (earlier ++ [last]) =
      earlier ++ [{ last with takers := last.takers ++ m.handed.map Prod.fst }] := by
  rw [note, unread, List.modifyLast_concat]
  exact List.append_nil _

end Moment

namespace History

/-- The passages of an execution, in the order of reading. -/
def passages (h : History) : List Passage := h.foldl (fun passages m => m.note passages) []

/-- The passages whose routing is finished. -/
def routed (h : History) (now : Conversation) : List Passage :=
  if now.inflow.reader.inHand.isSome then h.passages.dropLast else h.passages

/-- The failure that ends reading: the one that was fed, or `closed`. -/
def failure (h : History) : Failure := (h.read.findSome? Arrival.failure?).getD .closed

/-- The failure, if it was already put on the inbound channel. -/
def reported (h : History) (now : Conversation) : List Stanza :=
  if now.inflow.reader = .closing ∨ now.inflow.reader = .closed then [.failure h.failure] else []

def arrived (h : History) : List Arrival := h.passages.map fun p => .element p.element

variable {past : History} {m : Moment}

theorem passages_concat : passages (past ++ [m]) = m.note past.passages := by
  simp [passages]

theorem failure_of_read {ending : List Arrival} (read : past.read = past.arrived ++ ending) :
    past.failure = (ending.findSome? Arrival.failure?).getD .closed := by
  have none : past.arrived.findSome? Arrival.failure? = none := by
    simp [arrived, Arrival.failure?]
  rw [failure, read, List.findSome?_append, none, Option.none_or]

end History

/-- What was put on the inbound channel so far, by the program counter of the receiver task. -/
inductive Stage (faults : Faults) (past : History) (i : Inflow) : Prop
  | idle (reader : i.reader = .reading) (read : past.read = past.arrived)
      (surfaced : i.inbound.receiving = true →
        past.surfaced = Passage.untaken faults past.passages)
  | busy {earlier : List Passage} {last : Passage} {snapshot : List FilterId}
      (passages : past.passages = earlier ++ [last])
      (held : i.reader.Holds (last.stanza faults) last.takers)
      (offered : i.Offered snapshot (last.stanza faults) last.takers)
      (sorted : snapshot.Pairwise (· > ·)) (read : past.read = past.arrived)
      (surfaced : i.inbound.receiving = true → past.surfaced = Passage.untaken faults earlier)
  | failing (reader : i.reader = .failing past.failure)
      (read : past.read = past.arrived ∨ past.read = past.arrived ++ [.failure past.failure])
      (surfaced : i.inbound.receiving = true →
        past.surfaced = Passage.untaken faults past.passages)
  | ended (reader : i.reader = .closing ∨ i.reader = .closed)
      (read : past.read = past.arrived ∨ past.read = past.arrived ++ [.failure past.failure])
      (surfaced : i.inbound.receiving = true →
        past.surfaced = Passage.untaken faults past.passages ++ [.failure past.failure])

/-- The account of the passages: reads, deliveries and the inbound channel. -/
structure Account (faults : Faults) (past : History) (i : Inflow) : Prop where
  handed : past.handed = past.passages.flatMap (Passage.hands faults)
  distinct : ∀ p ∈ past.passages, p.takers.Nodup
  stage : Stage faults past i

structure Grown (past more : History) (flow : Flow) : Prop where
  read : more.read = past.read ++ flow.read
  handed : more.handed = past.handed ++ flow.handed
  surfaced : more.surfaced = past.surfaced ++ flow.surfaced
  unhanded : flow.handed = [] → more.passages =
    past.passages ++ (flow.read.filterMap Arrival.element?).map fun e => { element := e }
  unread : flow.read = [] → ∀ earlier last, past.passages = earlier ++ [last] →
    more.passages = earlier ++ [{ last with takers := last.takers ++ flow.handed.map Prod.fst }]

namespace Grown

variable {past more : History} {m : Moment} {flow : Flow}

private theorem of_seen (read : m.read = flow.read) (handed : m.handed = flow.handed)
    (surfaced : m.surfaced = flow.surfaced) : Grown past (past ++ [m]) flow where
  read := by simp [read]
  handed := by simp [handed]
  surfaced := by simp [surfaced]
  unhanded none := by
    rw [History.passages_concat, Moment.note_unhanded (handed.trans none), read]
  unread none earlier last split := by
    rw [History.passages_concat, split, Moment.note_unread (read.trans none), handed]

theorem of_told {touch : Touch} (told : m.Told touch) : Grown past (past ++ [m]) {} :=
  of_seen told.still.1 told.still.2.1 told.still.2.2

theorem of_advances (advances : m.Advances flow) : Grown past (past ++ [m]) flow :=
  of_seen advances.read advances.handed advances.surfaced

/-- Nothing read and nothing delivered leaves all passages as they are. -/
theorem still (grown : Grown past more flow) (unread : flow.read = [])
    (unhanded : flow.handed = []) :
    more.passages = past.passages ∧ more.read = past.read ∧ more.arrived = past.arrived ∧
      more.failure = past.failure ∧ more.handed = past.handed := by
  have passages : more.passages = past.passages := by simp [grown.unhanded unhanded, unread]
  have reads : more.read = past.read := by simp [grown.read, unread]
  have handed : more.handed = past.handed := by simp [grown.handed, unhanded]
  exact ⟨passages, reads, by simp [History.arrived, passages], by simp [History.failure, reads],
    handed⟩

end Grown

namespace Account

variable {faults : Faults} {past more : History} {i after : Inflow} {flow : Flow}

private theorem of_stage (account : Account faults past i) (grown : Grown past more flow)
    (unread : flow.read = []) (unhanded : flow.handed = []) (stage : Stage faults more after) :
    Account faults more after := by
  obtain ⟨passages, -, -, -, handed⟩ := grown.still unread unhanded
  exact ⟨by rw [passages, handed]; exact account.handed, by rw [passages]; exact account.distinct,
    stage⟩

/-- The account is preserved by moves of others. -/
private theorem keep (account : Account faults past i) (grown : Grown past more {})
    (reader : after.reader = i.reader) (ages : i.registry.Ages after.registry)
    (listened : after.inbound.receiving = true → i.inbound.receiving = true) :
    Account faults more after := by
  obtain ⟨passages, reads, arrived, failure, -⟩ := grown.still rfl rfl
  have shown : more.surfaced = past.surfaced := grown.surfaced.trans (List.append_nil _)
  refine account.of_stage grown rfl rfl ?_
  cases account.stage with
  | idle idle read surfaced =>
    exact .idle (reader.trans idle) (by rw [reads, arrived, read])
      fun listens => by rw [shown, passages, surfaced (listened listens)]
  | busy split held offered sorted read surfaced =>
    have later := offered.of_ages ages (by rw [reader])
    exact .busy (passages.trans split) (reader ▸ held) later sorted (by rw [reads, arrived, read])
      fun listens => by rw [shown, surfaced (listened listens)]
  | failing ending read surfaced =>
    exact .failing (by rw [reader, failure, ending]) (by rw [reads, arrived, failure]; exact read)
      fun listens => by rw [shown, passages, surfaced (listened listens)]
  | ended ending read surfaced =>
    exact .ended (by rw [reader]; exact ending) (by rw [reads, arrived, failure]; exact read)
      fun listens => by rw [shown, passages, failure, surfaced (listened listens)]

theorem touch (account : Account faults past i) (grown : Grown past more {}) (t : Touch) :
    Account faults more (i.touch t) := by
  refine account.keep grown (Inflow.reader_touch t) (Inflow.ages_touch t) ?_
  obtain ⟨lost, -, whole⟩ := Inflow.inbound_touch (i := i) t
  exact fun listens => (whole listens).1

/-- The account across a poll of a receiver task that reads: a new passage, or the failure. -/
private theorem advance_idle (account : Account faults past i) (grown : Grown past more flow)
    (step : Advance faults i flow after) (sound : i.registry.WellFormed)
    (idle : i.reader = .reading) (read : past.read = past.arrived)
    (surfaced : i.inbound.receiving = true →
      past.surfaced = Passage.untaken faults past.passages) : Account faults more after := by
  cases step with
  | waits => exact account.keep grown rfl (.refl _) fun listens => listens
  | @reads element feed reading first feeding =>
    have passages : more.passages = past.passages ++ [{ element := element }] := grown.unhanded rfl
    refine ⟨?_, ?_, .busy passages ⟨rfl, rfl⟩ (.begins sound feed) sound.newestFirst ?_ ?_⟩
    · rw [grown.handed, passages, account.handed]
      simp [Passage.hands]
    · rw [passages]
      simpa [or_imp, forall_and] using account.distinct
    · simp [grown.read, read, History.arrived, passages]
    · intro listens
      simp [grown.surfaced, surfaced listens]
  | @fails failure feed reading first feeding =>
    have passages : more.passages = past.passages :=
      (grown.unhanded rfl).trans (List.append_nil _)
    have handed : more.handed = past.handed := by simp [grown.handed]
    have reads : more.read = more.arrived ++ [.failure failure] := by
      simp [grown.read, read, History.arrived, passages]
    have found : more.failure = failure := History.failure_of_read reads
    refine ⟨by rw [passages, handed]; exact account.handed,
      by rw [passages]; exact account.distinct, .failing ?_ ?_ fun listens => ?_⟩
    · rw [found]
    · exact .inr (by rw [found, reads])
    · rw [grown.surfaced, passages, List.append_nil, surfaced listens]
  | hangsUp reading empty silent =>
    obtain ⟨passages, reads, arrived, -, -⟩ := grown.still rfl rfl
    have whole : more.read = more.arrived := by rw [reads, arrived, read]
    have closed : more.failure = .closed :=
      History.failure_of_read (whole.trans (List.append_nil _).symm)
    refine account.of_stage grown rfl rfl (.failing (by rw [closed]) (.inl whole) fun listens => ?_)
    rw [grown.surfaced, passages, List.append_nil, surfaced listens]
  | hands busy | passes busy | surfaces busy | ends busy | puts busy | loses busy | reports busy
  | conceals busy | closes busy =>
    rw [idle] at busy
    cases busy

/-- The account across a poll that serves a filter or finishes the routing. -/
private theorem advance_busy (account : Account faults past i) (grown : Grown past more flow)
    (step : Advance faults i flow after) {earlier : List Passage} {last : Passage}
    {snapshot : List FilterId} (passages : past.passages = earlier ++ [last])
    (held : i.reader.Holds (last.stanza faults) last.takers)
    (offered : i.Offered snapshot (last.stanza faults) last.takers)
    (sorted : snapshot.Pairwise (· > ·)) (read : past.read = past.arrived)
    (surfaced : i.inbound.receiving = true → past.surfaced = Passage.untaken faults earlier) :
    Account faults more after := by
  obtain ⟨unread, alike⟩ := step.of_holds held
  have now := grown.unread unread earlier last passages
  have further := offered.advance held step
  have hands : flow.handed = flow.handed.map fun hand => (hand.1, last.stanza faults) := by
    conv_lhs => rw [← List.map_id flow.handed]
    exact List.map_congr_left fun hand member => Prod.ext rfl (alike hand member).1
  have arrived : more.arrived = past.arrived := by simp [History.arrived, now, passages]
  have reads : more.read = more.arrived := by simp [grown.read, unread, read, arrived]
  have listened : after.inbound.receiving = i.inbound.receiving := step.inbound.2.1
  constructor
  · rw [grown.handed, account.handed, passages, now, hands]
    simp [Passage.hands, Passage.stanza]
  · rw [now]
    have before := account.distinct
    rw [passages] at before
    intro p member
    rcases List.mem_append.mp member with early | here
    · exact before p (List.mem_append_left _ early)
    · obtain rfl := List.mem_singleton.mp here
      exact (further.pairwise sorted).sublist (List.sublist_append_left _ _) |>.imp Nat.ne_of_gt
  · rcases step.holds_or_done held with ⟨holding, none⟩ | ⟨idle, unhanded, shown⟩
    · refine .busy now holding further sorted reads fun listens => ?_
      rw [grown.surfaced, none, List.append_nil, surfaced (listened ▸ listens)]
    · refine .idle idle reads fun listens => ?_
      rw [listened] at listens
      rw [grown.surfaced, shown, surfaced listens, now, Passage.untaken_concat]
      simp [unhanded, listens, Passage.stanza]

/-- The account across a poll that surfaces the failure. -/
private theorem advance_failing (account : Account faults past i) (grown : Grown past more flow)
    (step : Advance faults i flow after) (failing : i.reader = .failing past.failure)
    (read : past.read = past.arrived ∨ past.read = past.arrived ++ [.failure past.failure])
    (surfaced : i.inbound.receiving = true →
      past.surfaced = Passage.untaken faults past.passages) : Account faults more after := by
  cases step with
  | waits => exact account.keep grown rfl (.refl _) fun listens => listens
  | @reports failure inbound busy put =>
    obtain ⟨reads, -, rfl⟩ := Channel.offerBehind_accepted put
    obtain ⟨passages, kept, arrived, same, -⟩ := grown.still rfl rfl
    obtain rfl : past.failure = failure := by simpa [failing] using busy
    refine account.of_stage grown rfl rfl
      (.ended (.inl rfl) (by rw [kept, arrived, same]; exact read) fun listens => ?_)
    rw [grown.surfaced, passages, same, surfaced reads]
  | conceals busy unread =>
    obtain ⟨-, kept, arrived, same, -⟩ := grown.still rfl rfl
    refine account.of_stage grown rfl rfl
      (.ended (.inl rfl) (by rw [kept, arrived, same]; exact read) fun listens => ?_)
    exact absurd (unread.symm.trans listens) Bool.false_ne_true
  | reads busy | fails busy | hangsUp busy | hands busy | passes busy | surfaces busy | ends busy
  | puts busy | loses busy | closes busy =>
    rw [failing] at busy
    cases busy

/-- The account after the end of reading. -/
private theorem advance_ended (account : Account faults past i) (grown : Grown past more flow)
    (step : Advance faults i flow after) (ended : i.reader = .closing ∨ i.reader = .closed)
    (read : past.read = past.arrived ∨ past.read = past.arrived ++ [.failure past.failure])
    (surfaced : i.inbound.receiving = true →
      past.surfaced = Passage.untaken faults past.passages ++ [.failure past.failure]) :
    Account faults more after := by
  cases step with
  | waits => exact account.keep grown rfl (.refl _) fun listens => listens
  | closes busy =>
    obtain ⟨passages, kept, arrived, same, -⟩ := grown.still rfl rfl
    refine account.of_stage grown rfl rfl
      (.ended (.inr rfl) (by rw [kept, arrived, same]; exact read) fun listens => ?_)
    rw [grown.surfaced, List.append_nil, passages, same, surfaced listens]
  | reads busy | fails busy | hangsUp busy | hands busy | passes busy | surfaces busy | ends busy
  | puts busy | loses busy | reports busy | conceals busy =>
    rcases ended with ending | ending <;>
    · rw [ending] at busy
      cases busy

theorem advance (account : Account faults past i) (grown : Grown past more flow)
    (step : Advance faults i flow after) (sound : i.registry.WellFormed) :
    Account faults more after := by
  cases account.stage with
  | idle idle read surfaced => exact account.advance_idle grown step sound idle read surfaced
  | busy passages held offered sorted read surfaced =>
    exact account.advance_busy grown step passages held offered sorted read surfaced
  | failing failing read surfaced => exact account.advance_failing grown step failing read surfaced
  | ended ended read surfaced => exact account.advance_ended grown step ended read surfaced

end Account

namespace Course

/-- The account holds in every reachable state. -/
theorem account (k : Course) : Account k.faults k.past k.now.inflow := by
  refine k.induction (P := fun past now => Account k.faults past now.inflow) ?_ ?_
  · refine ⟨rfl, fun p member => absurd member List.not_mem_nil, .idle rfl rfl fun _ => rfl⟩
  · intro moves move j account
    rcases Moment.told_or_advances ⟨j.now, move⟩ with ⟨touch, told⟩ | ⟨flow, advances⟩
    · have inflow : (j.now.move move).inflow = j.now.inflow.touch touch := told.inflow
      rw [inflow]
      exact account.touch (.of_told told) touch
    · have step : Advance j.now.faults j.now.inflow flow (j.now.move move).inflow := advances.step
      rw [j.faults_now] at step
      exact account.advance (.of_advances advances) step j.wellFormed

/-- The arrivals read are the elements of the passages, followed by at most the failure. -/
theorem read_eq (k : Course) : k.past.read = k.past.arrived ∨
    k.past.read = k.past.arrived ++ [.failure k.past.failure] := by
  cases k.account.stage with
  | idle idle read surfaced => exact .inl read
  | busy passages held offered sorted read surfaced => exact .inl read
  | failing failing read surfaced => exact read
  | ended ended read surfaced => exact read

/-- The stanza in hand is that of the last passage. -/
theorem getLast?_passages (k : Course) {stanza : Stanza}
    (inHand : k.now.inflow.reader.inHand = some stanza) :
    k.past.passages.getLast?.map (Passage.stanza k.faults) = some stanza := by
  cases k.account.stage with
  | idle idle read surfaced =>
    rw [idle] at inHand
    cases inHand
  | busy passages held offered sorted read surfaced =>
    rw [held.inHand] at inHand
    rw [passages, List.getLast?_concat]
    exact inHand
  | failing failing read surfaced =>
    rw [failing] at inHand
    cases inHand
  | ended ended read surfaced =>
    rcases ended with ended | ended <;>
    · rw [ended] at inHand
      cases inHand

/-- Without any filter no passage has a taker. -/
theorem takers_eq_nil (k : Course) (unfiltered : k.now.inflow.registry.nextId = 0) :
    ∀ p ∈ k.past.passages, p.takers = [] := by
  intro p member
  cases takers : p.takers with
  | nil => rfl
  | cons id rest =>
    have unknown := k.conserved.unknown id (unfiltered ▸ Nat.zero_le id)
    have taker : (id, p.stanza k.faults) ∈ k.past.handed := by
      rw [k.account.handed]
      exact List.mem_flatMap.mpr ⟨p, member, by simp [Passage.hands, takers]⟩
    have got : p.stanza k.faults ∈ k.past.handedTo id :=
      List.mem_filterMap.mpr ⟨_, taker, if_pos rfl⟩
    rw [unknown] at got
    cases got

/-- The inbound channel as long as it has a receiver: received and queued stanzas are the untaken
ones in feed order, then the failure. -/
theorem received_append_queue (k : Course) (alive : k.now.inflow.inbound.receiving = true) :
    k.past.received ++ k.now.inflow.inbound.queue =
      Passage.untaken k.faults (k.past.routed k.now) ++ k.past.reported k.now := by
  obtain ⟨lost, whole, none⟩ := k.conserved.inbound
  rw [none alive, List.append_nil] at whole
  rw [← whole, History.routed, History.reported]
  cases k.account.stage with
  | idle idle read surfaced => simp [idle, Reader.inHand, surfaced alive]
  | busy passages held offered sorted read surfaced =>
    have busy : k.now.inflow.reader ≠ .closing ∧ k.now.inflow.reader ≠ .closed := by
      constructor <;>
      · intro ending
        rw [ending] at held
        exact held
    simp [held.inHand, busy, passages, surfaced alive]
  | failing failing read surfaced => simp [failing, Reader.inHand, surfaced alive]
  | ended ended read surfaced =>
    rcases ended with ended | ended <;> simp [ended, Reader.inHand, surfaced alive]

/-- A delivery channel: received and queued stanzas are those the filter took, in feed order, and
nothing is lost before the receiver is dropped. -/
theorem returned_append_queueOf (k : Course) (id : FilterId) :
    ∃ lost, k.past.returned id ++ k.now.inflow.registry.queueOf id ++ lost =
        Passage.takenBy k.faults id k.past.passages ∧
      (k.now.inflow.registry.isReceiving id = true → lost = []) := by
  obtain ⟨lost, whole, none⟩ := k.conserved.filters id
  refine ⟨lost, ?_, none⟩
  rw [← whole, History.handedTo, k.account.handed, Passage.handsTo_flatMap id k.account.distinct]

/-- Order and completeness of the inbound side. The feed is read in order; every element that was
read was delivered to its takers or put on the inbound channel; received and queued stanzas are, on
the inbound channel and on each delivery channel, the untaken and the taken ones in feed order. -/
theorem inbound_in_order (k : Course) (alive : k.now.inflow.inbound.receiving = true) :
    k.past.fed = k.past.read ++ k.now.inflow.feed.arrivals ∧
    (k.past.read = k.past.arrived ∨
      k.past.read = k.past.arrived ++ [.failure k.past.failure]) ∧
    (∀ stanza, k.now.inflow.reader.inHand = some stanza →
      k.past.passages.getLast?.map (Passage.stanza k.faults) = some stanza) ∧
    k.past.handed = k.past.passages.flatMap (Passage.hands k.faults) ∧
    (∀ p ∈ k.past.passages, p.takers.Nodup) ∧
    k.past.received ++ k.now.inflow.inbound.queue =
      Passage.untaken k.faults (k.past.routed k.now) ++ k.past.reported k.now ∧
    (∀ id, k.past.returned id ++ k.now.inflow.registry.queueOf id <+:
      Passage.takenBy k.faults id k.past.passages) ∧
    (∀ id, k.now.inflow.registry.isReceiving id = true →
      k.past.returned id ++ k.now.inflow.registry.queueOf id =
        Passage.takenBy k.faults id k.past.passages) ∧
    (k.now.inflow.registry.nextId = 0 →
      k.past.received ++ k.now.inflow.inbound.queue =
        (k.past.routed k.now).map (Passage.stanza k.faults) ++ k.past.reported k.now) := by
  have inbound := k.received_append_queue alive
  refine ⟨k.conserved.feed, k.read_eq, fun stanza inHand => k.getLast?_passages inHand,
    k.account.handed, k.account.distinct, inbound, fun id => ?_, fun id reads => ?_,
    fun unfiltered => ?_⟩
  · obtain ⟨lost, whole, -⟩ := k.returned_append_queueOf id
    exact ⟨lost, whole⟩
  · obtain ⟨lost, whole, none⟩ := k.returned_append_queueOf id
    rw [← whole, none reads, List.append_nil]
  · have all : ∀ p ∈ k.past.routed k.now, p.takers.isEmpty = true := by
      intro p member
      have read : p ∈ k.past.passages := by
        unfold History.routed at member
        split at member
        · exact List.dropLast_subset _ member
        · exact member
      rw [k.takers_eq_nil unfiltered p read]
      rfl
    rw [inbound, Passage.untaken, List.filter_eq_self.mpr all]

/-- A filter takes the second of three elements, and the peer hangs up. -/
def sorting : Course where
  jid := ⟨none, "example", none⟩
  settings := { inboundCapacity := 3 }
  moves :=
    [.outside (.addFilter .own (.named "presence")),
      .outside (.push (.element (.named "message"))),
      .outside (.push (.element (.named "presence"))),
      .outside (.push (.element (.named "starttls"))), .outside .hangUp] ++
      List.replicate 14 (.step .reader) ++ [.outside .receive, .outside (.receiveFrom 0)]

/-- Two elements are read without filters, and the second one finds the inbound channel full. -/
def plain : Course where
  jid := ⟨none, "example", none⟩
  settings := { inboundCapacity := 1 }
  moves :=
    [.outside (.push (.element (.named "message"))),
      .outside (.push (.element (.named "starttls")))] ++ List.replicate 6 (.step .reader)

theorem inbound_in_order_sorting_plain :
    sorting.past.received ++ sorting.now.inflow.inbound.queue =
        [.message {}, .unknown "starttls", .failure .closed] ∧
      sorting.past.returned 0 ++ sorting.now.inflow.registry.queueOf 0 = [.presence {}] ∧
      plain.past.passages.getLast?.map (Passage.stanza .none) = some (.unknown "starttls") ∧
      plain.past.received ++ plain.now.inflow.inbound.queue = [.message {}] := by
  have sorted := sorting.inbound_in_order (by decide +kernel)
  have unfiltered := plain.inbound_in_order (by decide +kernel)
  obtain ⟨-, -, -, -, -, inbound, -, filters, -⟩ := sorted
  obtain ⟨-, -, hand, -, -, -, -, -, all⟩ := unfiltered
  refine ⟨?_, ?_, hand (.unknown "starttls") (by decide +kernel), ?_⟩
  · rw [inbound]
    decide +kernel
  · rw [filters 0 (by decide +kernel)]
    decide +kernel
  · rw [all (by decide +kernel)]
    decide +kernel

end Course

end StanzaExchange
