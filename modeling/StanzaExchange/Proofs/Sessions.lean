import StanzaExchange.Proofs.Deliveries
import StanzaExchange.Script.Registry

/-!
Soundness of registry scripts for the transition system of `Dispatch`: whatever a script does,
including the settling between its steps, is a sequence of moves (`reaches_perform`), so what holds
of all executions holds of the answers of all scripts.
-/
namespace StanzaExchange

namespace Dispatch

variable {d after : Dispatch} {id : FilterId}

/-- A sequence of moves leads from one state to the other. -/
def Reaches (d after : Dispatch) : Prop := ∃ moves, after = d.run moves

theorem Reaches.refl (d : Dispatch) : d.Reaches d := ⟨[], rfl⟩

theorem Reaches.trans {last : Dispatch} (first : d.Reaches after) (second : after.Reaches last) :
    d.Reaches last := by
  obtain ⟨moves, rfl⟩ := first
  obtain ⟨more, rfl⟩ := second
  exact ⟨moves ++ more, List.foldl_append.symm⟩

theorem Reaches.move (d : Dispatch) (move : Move) : d.Reaches (d.move move) := ⟨[move], rfl⟩

theorem reaches_step {n : Nat} (step : d.step? n = some after) : d.Reaches after := by
  refine ⟨[.step n], ?_⟩
  change after = (d.step? n).getD d
  rw [step, Option.getD_some]

theorem isReceiving_step {n : Nat} (step : d.step? n = some after) :
    after.registry.isReceiving id = d.registry.isReceiving id := by
  obtain ⟨x, put, stage, turned⟩ := step?_turned step
  exact turned.isReceiving

/-- What every poll preserves is preserved by the scheduler. -/
theorem runSteps_keeps {P : Dispatch → Prop}
    (keeps : ∀ now after n, now.step? n = some after → P now → P after) (aside : Nat → Bool)
    (steps : Nat) (queue : List Nat) (holds : P d) : P (runSteps aside steps queue d) := by
  induction steps generalizing queue d with
  | zero => exact holds
  | succ steps ih =>
    unfold runSteps
    split
    · exact holds
    next n rest upcoming =>
      split
      · exact holds
      next after step => exact ih _ (keeps d after n step holds)

theorem reaches_runSteps (aside : Nat → Bool) (steps : Nat) (queue : List Nat) :
    d.Reaches (runSteps aside steps queue d) :=
  runSteps_keeps (fun _ _ _ step reached => reached.trans (reaches_step step)) aside steps queue
    (.refl d)

theorem reaches_settle (queue : List Nat) : d.Reaches (d.settle queue) :=
  reaches_runSteps _ _ queue

theorem isReceiving_settle (queue : List Nat) :
    (d.settle queue).registry.isReceiving id = d.registry.isReceiving id :=
  runSteps_keeps (P := fun now => now.registry.isReceiving id = d.registry.isReceiving id)
    (fun _ _ _ step same => (isReceiving_step step).trans same) _ _ queue rfl

theorem reaches_settleFor (n : Nat) (queue : List Nat) : d.Reaches (d.settleFor n queue) :=
  (reaches_runSteps _ _ queue).trans (.move _ (.step n))

theorem reaches_advance (n : Nat) : d.Reaches (d.advance n) := by
  unfold advance
  cases step : d.step? n with
  | none => exact .refl d
  | some after => exact (reaches_step step).trans (.move after (.step n))

end Dispatch

namespace Script.RegistrySession

open Dispatch (Reaches Move)

variable {s : RegistrySession} {id : FilterId}

theorem reaches_remove (id : FilterId) : s.dispatch.Reaches (s.remove id).2.dispatch := by
  refine ⟨[.request (.remove id)], ?_⟩
  change _ = { s.dispatch with registry := s.dispatch.registry.served (.remove id) }
  unfold remove
  cases removed : s.dispatch.registry.remove? id with
  | none => simp [Registry.served, Registry.perform, removed]
  | some later =>
    simp [Registry.served, Registry.perform, removed, setRegistry, report]

theorem reaches_readNow (empty : Answer) (reads : s.dispatch.registry.isReceiving id = true) :
    s.dispatch.Reaches (s.readNow empty id).2.dispatch := by
  refine ⟨[.receive id], ?_⟩
  change _ = s.dispatch.receive id
  unfold readNow Dispatch.receive
  rw [if_pos reads]
  cases read : s.dispatch.registry.read id <;> rfl

theorem reaches_readWaiting (reads : s.dispatch.registry.isReceiving id = true) :
    s.dispatch.Reaches (s.readWaiting id).2.dispatch := by
  unfold readWaiting
  split
  · have still : s.settle.dispatch.registry.isReceiving id = true := by
      rw [← reads]
      exact Dispatch.isReceiving_settle s.queue
    exact (Dispatch.reaches_settle s.queue).trans (reaches_readNow .pending still)
  · exact reaches_readNow .pending reads

/-- An awaited delivery begins, is polled with the others, and may be cancelled. -/
theorem reaches_deliver (snapshot position : Nat) (stanza : Stanza) :
    s.dispatch.Reaches (s.perform (.deliver snapshot position stanza)).2.dispatch := by
  simp only [perform]
  split
  · exact .refl _
  next id found =>
    have begins : s.dispatch.Reaches (s.dispatch.begin id stanza) := .move _ (.begin id stanza)
    have advances := begins.trans (Dispatch.reaches_advance s.dispatch.deliveries.length)
    split
    · exact advances
    · have waits :=
        advances.trans (Dispatch.reaches_settleFor s.dispatch.deliveries.length s.queue)
      split
      · exact waits
      · exact waits.trans (.move _ (.abort _))

/-- A script step is a sequence of moves. -/
theorem reaches_perform (s : RegistrySession) (step : RegistryStep) :
    s.dispatch.Reaches (s.perform step).2.dispatch := by
  cases step with
  | add matcher => exact .move _ (.request (.add matcher))
  | remove filter =>
    simp only [perform]
    split
    · exact reaches_remove filter
    · exact .refl _
  | removeId id => exact reaches_remove id
  | snapshot | forgetSnapshots | size | inspect => exact .refl _
  | sub snapshot position | accepts snapshot position stanza =>
    simp only [perform]
    split <;> exact .refl _
  | deliver snapshot position stanza => exact reaches_deliver snapshot position stanza
  | beginDelivery snapshot position stanza =>
    simp only [perform]
    split
    · exact .refl _
    next id found => exact .move _ (.begin id stanza)
  | poll call =>
    have settles : s.dispatch.Reaches s.settle.dispatch := Dispatch.reaches_settle s.queue
    simp only [perform]
    split
    · exact .refl _
    · split
      · exact .refl _
      · split
        · exact settles
        · exact settles
  | cancel call =>
    simp only [perform]
    split
    · exact .refl _
    next n found => exact .move _ (.askToAbort n)
  | receive filter =>
    simp only [perform]
    split
    next reads => exact reaches_readWaiting reads
    · exact .refl _
  | tryReceive filter =>
    simp only [perform]
    split
    next reads => exact reaches_readNow .nothing reads
    · exact .refl _
  | receiver filter =>
    simp only [perform]
    split <;> exact .refl _
  | dropReceiver filter =>
    simp only [perform]
    split
    next reads =>
      refine ⟨[.dropReceiver filter], ?_⟩
      change _ = s.dispatch.dropReceiver filter
      rw [Dispatch.dropReceiver, if_pos reads]
      rfl
    · exact .refl _
  | closeAll => exact .move _ (.request .closeAll)

/-- Every answer of a script is given in a reachable state of the system. -/
theorem answered_in_reach {d : Dispatch} (reached : d.Reaches s.dispatch)
    (script : List (RegistryStep × Bool)) :
    ∀ entry ∈ s.run script, ∃ now : RegistrySession, d.Reaches now.dispatch ∧
      ∃ p ∈ script, entry.answer = (now.perform p.1).1 := by
  induction script generalizing s with
  | nil => exact fun entry member => absurd member List.not_mem_nil
  | cons first rest ih =>
    obtain ⟨step, settles⟩ := first
    intro entry member
    simp only [run, List.mem_cons] at member
    rcases member with rfl | member
    · exact ⟨s, reached, _, List.mem_cons_self, rfl⟩
    · have performed := reached.trans (s.reaches_perform step)
      have settled : d.Reaches (if settles then (s.perform step).2.settle
          else (s.perform step).2.enqueue).dispatch := by
        cases settles with
        | true => exact performed.trans (Dispatch.reaches_settle _)
        | false => exact performed
      obtain ⟨now, before, p, asked, given⟩ := ih settled entry member
      exact ⟨now, before, p, List.mem_cons_of_mem _ asked, given⟩

/-- Every answer of a script is given in a state that an execution reaches. -/
theorem answered_in_course (capacity : Nat) (script : List (RegistryStep × Bool)) :
    ∀ entry ∈ (start capacity).run script, ∃ (k : Dispatch.Course) (s : RegistrySession),
      k.capacity = capacity ∧ s.dispatch = k.now ∧
        ∃ p ∈ script, entry.answer = (s.perform p.1).1 := by
  intro entry member
  obtain ⟨now, ⟨moves, reached⟩, given⟩ := answered_in_reach (.refl _) script entry member
  exact ⟨⟨capacity, moves⟩, now, rfl, reached, given⟩

end Script.RegistrySession

end StanzaExchange
