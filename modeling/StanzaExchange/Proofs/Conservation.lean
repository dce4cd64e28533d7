import StanzaExchange.Proofs.Moves

/-!
Conservation on the inbound side, by induction over executions: the registry invariant holds
throughout, the registry is closed exactly when the receiver task has exited, and each queue is
accounted for. What was put into a queue has been taken out, is still there, or was lost when its
receiver was dropped.
-/
namespace StanzaExchange

open Inflow (Flow Touch handsTo)

namespace History

variable {past : History} {m : Moment}

@[simp] theorem fed_concat : fed (past ++ [m]) = past.fed ++ m.fed := by simp [fed]

@[simp] theorem read_concat : read (past ++ [m]) = past.read ++ m.read := by simp [read]

@[simp] theorem handed_concat : handed (past ++ [m]) = past.handed ++ m.handed := by simp [handed]

@[simp] theorem takers_concat : takers (past ++ [m]) = past.takers ++ m.handed.map Prod.fst := by
  simp [takers, handed_concat]

@[simp] theorem handedTo_concat (id : FilterId) :
    handedTo (past ++ [m]) id = past.handedTo id ++ handsTo id m.handed := by
  simp [handedTo, handed_concat, handsTo]

@[simp] theorem surfaced_concat : surfaced (past ++ [m]) = past.surfaced ++ m.surfaced := by
  simp [surfaced]

@[simp] theorem received_concat : received (past ++ [m]) = past.received ++ m.received := by
  simp [received]

@[simp] theorem returned_concat (id : FilterId) :
    returned (past ++ [m]) id = past.returned id ++ m.returned id := by
  simp [returned]

end History

theorem Course.handedTo_andThen (k : Course) (move : Move) (id : FilterId) :
    (k.andThen [move]).past.handedTo id =
      k.past.handedTo id ++ handsTo id (Moment.handed ⟨k.now, move⟩) := by
  simp [past_move]

namespace Conversation

variable {c : Conversation} {id : FilterId}

theorem ages_move (move : Move) : c.inflow.registry.Ages (c.move move).inflow.registry :=
  Moment.inflow_of_after (P := fun after => c.inflow.registry.Ages after.registry) ⟨c, move⟩
    Inflow.ages_touch Inflow.Advance.ages

theorem ages_run (moves : List Move) : c.inflow.registry.Ages (c.run moves).inflow.registry := by
  induction moves generalizing c with
  | nil => exact .refl _
  | cons move rest ih => exact (ages_move move).trans ih

theorem wellFormed_move (sound : c.inflow.registry.WellFormed) (move : Move) :
    (c.move move).inflow.registry.WellFormed :=
  Moment.inflow_of_after (P := fun after => after.registry.WellFormed) ⟨c, move⟩
    (Inflow.wellFormed_touch sound) fun step => step.wellFormed sound

end Conversation

theorem Course.wellFormed (k : Course) : k.now.inflow.registry.WellFormed :=
  k.induction (P := fun _ now => now.inflow.registry.WellFormed) (Registry.wellFormed_ofCapacity _)
    fun _ move sound => Conversation.wellFormed_move sound move

/-- The registry is closed exactly if the receiver task has exited. -/
theorem Course.closed_iff (k : Course) :
    k.now.inflow.registry.closed = true ↔ k.now.inflow.reader = .closed := by
  refine k.induction (P := fun _ now => now.inflow.registry.closed = true ↔
    now.inflow.reader = .closed) (iff_of_false (nomatch ·) (nomatch ·)) ?_
  intro moves move j before
  refine Moment.inflow_of_after (P := fun after => after.registry.closed = true ↔
    after.reader = .closed) ⟨j.now, move⟩ (fun touch => ?_) fun step => step.closed_iff before
  rw [Inflow.closed_touch, Inflow.reader_touch]
  exact before

/-- The accounts of the feed, the inbound channel and each delivery channel. -/
structure Conserved (past : History) (now : Conversation) : Prop where
  feed : past.fed = past.read ++ now.inflow.feed.arrivals
  inbound : ∃ lost, past.surfaced = past.received ++ now.inflow.inbound.queue ++ lost ∧
    (now.inflow.inbound.receiving = true → lost = [])
  unknown : ∀ id, now.inflow.registry.nextId ≤ id → past.handedTo id = []
  filters : ∀ id, ∃ lost,
    past.handedTo id = past.returned id ++ now.inflow.registry.queueOf id ++ lost ∧
      (now.inflow.registry.isReceiving id = true → lost = [])

namespace Conserved

variable {past : History} {m : Moment}

/-- The conservation laws are preserved by updates. -/
theorem of_told {touch : Touch} (kept : Conserved past m.before) (told : m.Told touch) :
    Conserved (past ++ [m]) m.after := by
  obtain ⟨read, handed, surfaced⟩ := told.still
  have ages : m.before.inflow.registry.Ages m.after.inflow.registry :=
    Conversation.ages_move m.move
  refine ⟨?_, ?_, fun id beyond => ?_, fun id => ?_⟩
  · simp [kept.feed, read, told.fed, told.inflow]
  · obtain ⟨lost, before, whole⟩ := kept.inbound
    obtain ⟨more, queue, unread⟩ := Inflow.inbound_touch (i := m.before.inflow) touch
    refine ⟨more ++ lost, ?_, fun reads => ?_⟩
    · simp [before, surfaced, told.received, told.inflow, queue]
    · rw [told.inflow] at reads
      obtain ⟨reading, none⟩ := unread reads
      simp [none, whole reading]
  · have older : m.before.inflow.registry.nextId ≤ id := Nat.le_trans ages.nextId_le beyond
    simp [kept.unknown id older, handed, handsTo]
  · obtain ⟨lost, before, whole⟩ := kept.filters id
    obtain ⟨more, queue, unread⟩ := Inflow.queueOf_touch (i := m.before.inflow) touch id
    refine ⟨more ++ lost, ?_, fun reads => ?_⟩
    · simp [before, handed, told.returned, told.inflow, queue, handsTo]
    · rw [unread (told.inflow ▸ reads), List.nil_append]
      by_cases known : id < m.before.inflow.registry.nextId
      · exact whole (ages.isReceiving known reads)
      · have nothing := kept.unknown id (Nat.le_of_not_lt known)
        rw [before] at nothing
        exact (List.append_eq_nil_iff.mp nothing).2

/-- The conservation laws are preserved by the receiver task. -/
theorem of_advances {flow : Flow} (kept : Conserved past m.before) (advances : m.Advances flow) :
    Conserved (past ++ [m]) m.after := by
  have step := advances.step
  refine ⟨?_, ?_, fun id beyond => ?_, fun id => ?_⟩
  · simp [kept.feed, advances.fed, advances.read, step.arrivals]
  · obtain ⟨lost, before, whole⟩ := kept.inbound
    obtain ⟨queue, receiving, reads⟩ := step.inbound
    refine ⟨lost, ?_, fun reading => whole (receiving ▸ reading)⟩
    rcases reads with none | reading
    · simp [before, advances.surfaced, advances.received, queue, none]
    · simp [before, advances.surfaced, advances.received, queue, whole reading]
  · have older : m.before.inflow.registry.nextId ≤ id := Nat.le_trans step.ages.nextId_le beyond
    rw [History.handedTo_concat, kept.unknown id older, advances.handed]
    rcases step.handed with none | ⟨other, stanza, one, known, -, -⟩
    · rw [none]
      rfl
    · have different : other ≠ id := Nat.ne_of_lt (Nat.lt_of_lt_of_le known older)
      simp [one, handsTo, different]
  · obtain ⟨lost, before, whole⟩ := kept.filters id
    refine ⟨lost, ?_, fun reads => whole (by rw [← step.isReceiving]; exact reads)⟩
    rw [History.handedTo_concat, History.returned_concat, before, advances.handed,
      advances.returned, step.queueOf]
    rcases step.handed with none | ⟨other, stanza, one, -, -, reading⟩
    · simp [none, handsTo]
    · by_cases same : other = id
      · subst same
        simp [whole reading]
      · simp [one, handsTo, same]

end Conserved

theorem Course.conserved (k : Course) : Conserved k.past k.now := by
  refine k.induction ?_ fun moves move kept => ?_
  · exact ⟨rfl, ⟨[], rfl, fun _ => rfl⟩, fun _ _ => rfl, fun _ => ⟨[], rfl, fun _ => rfl⟩⟩
  · rcases Moment.told_or_advances ⟨_, move⟩ with ⟨touch, told⟩ | ⟨flow, advances⟩
    · exact kept.of_told told
    · exact kept.of_advances advances

end StanzaExchange
