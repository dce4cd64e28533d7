import Mathlib.Data.List.Induction

/-!
Shared lemmas about decoders and state machines. A decoder is a chain of partial functions in
`Except`; its error is that of the first one that fails. A machine is a transition function on
states; the trail of a list of moves is its execution, the list of the states with the moves made in
them, and every invariant of a machine comes from `trail_induction`.
-/
namespace StanzaExchange

section

variable {ε α β : Type} {read : Except ε α} {next : α → Except ε β} {make : α → β} {done : β}
  {error : ε}

theorem bind_eq_ok_iff : (read >>= next) = .ok done ↔
    ∃ value, read = .ok value ∧ next value = .ok done := by
  cases read with
  | ok value => simp [bind, Except.bind]
  | error found => simp [bind, Except.bind]

theorem bind_eq_error_iff : (read >>= next) = .error error ↔
    read = .error error ∨ ∃ value, read = .ok value ∧ next value = .error error := by
  cases read with
  | ok value => simp [bind, Except.bind]
  | error found => simp [bind, Except.bind]

theorem map_eq_ok_iff :
    read.map make = .ok done ↔ ∃ value, read = .ok value ∧ make value = done := by
  cases read with
  | ok value => simp [Except.map]
  | error found => simp [Except.map]

theorem map_bind {γ : Type} {make : β → γ} :
    (read >>= next).map make = read >>= fun value => (next value).map make := by
  cases read <;> rfl

theorem map_eq_error_iff : read.map make = .error error ↔ read = .error error := by
  cases read with
  | ok value => simp [Except.map]
  | error found => simp [Except.map]

end

/-- A state and the move made in it. -/
structure Occasion (σ μ : Type) where
  before : σ
  move : μ

variable {σ μ : Type} {next : σ → μ → σ} {s : σ}

/-- The execution of some moves. -/
def trail (next : σ → μ → σ) (s : σ) : List μ → List (Occasion σ μ)
  | [] => []
  | move :: rest => ⟨s, move⟩ :: trail next (next s move) rest

theorem trail_append (moves more : List μ) :
    trail next s (moves ++ more) = trail next s moves ++ trail next (moves.foldl next s) more := by
  induction moves generalizing s with
  | nil => rfl
  | cons move rest ih => simp [trail, ih]

theorem forall_mem_trail_concat {P : Occasion σ μ → Prop} {moves : List μ} {move : μ} :
    (∀ o ∈ trail next s (moves ++ [move]), P o) ↔
      (∀ o ∈ trail next s moves, P o) ∧ P ⟨moves.foldl next s, move⟩ := by
  simp [trail_append, trail, or_imp, forall_and]

/-- Induction over executions, with the history in the invariant. -/
theorem trail_induction {P : List (Occasion σ μ) → σ → Prop} (base : P [] s)
    (step : ∀ past now move, P past now → P (past ++ [⟨now, move⟩]) (next now move))
    (moves : List μ) : P (trail next s moves) (moves.foldl next s) := by
  induction moves using List.reverseRecOn with
  | nil => exact base
  | append_singleton moves move ih =>
    rw [trail_append, List.foldl_append]
    exact step _ _ move ih

/-- An invariant of the transition function holds at every state of an execution. -/
theorem trail_keeps {P : σ → Prop} (keeps : ∀ now move, P now → P (next now move)) (start : P s)
    (moves : List μ) : ∀ o ∈ trail next s moves, P o.before := by
  induction moves generalizing s with
  | nil => exact nofun
  | cons move rest ih =>
    rw [trail, List.forall_mem_cons]
    exact ⟨start, ih (keeps s move start)⟩

/-- An observation that is empty under an invariant is empty along every execution that starts in
it. -/
theorem trail_unseen {α : Type} {seen : Occasion σ μ → List α} {P : σ → Prop}
    (quiet : ∀ now move, P now → seen ⟨now, move⟩ = [] ∧ P (next now move)) (start : P s)
    (moves : List μ) : (trail next s moves).flatMap seen = [] ∧ P (moves.foldl next s) := by
  apply trail_induction (P := fun past now => past.flatMap seen = [] ∧ P now) ⟨rfl, start⟩
  rintro past now move ⟨unseen, holds⟩
  obtain ⟨nothing, kept⟩ := quiet now move holds
  exact ⟨by simp [unseen, nothing], kept⟩

theorem filterMap_concat {α β : Type} {see : α → Option β} {row : List α} {last : α} :
    (row ++ [last]).filterMap see = row.filterMap see ++ (see last).toList := by
  rw [List.filterMap_append]
  cases seen : see last <;> simp [seen]

theorem getLast?_filterMap_concat {α β : Type} {see : α → Option β} {row : List α} {last : α} :
    ((row ++ [last]).filterMap see).getLast? = (see last).or (row.filterMap see).getLast? := by
  rw [filterMap_concat, List.getLast?_append]
  cases see last <;> rfl

/-- The values appended to a queue between two states. -/
def gained {α : Type} (before after : List α) : List α := after.drop before.length

@[simp] theorem gained_append {α : Type} (queue more : List α) :
    gained queue (queue ++ more) = more :=
  List.drop_left

@[simp] theorem gained_self {α : Type} (queue : List α) : gained queue queue = [] :=
  List.drop_length

theorem gained_of_le {α : Type} {before after : List α} (shorter : after.length ≤ before.length) :
    gained before after = [] :=
  List.drop_of_length_le shorter

end StanzaExchange
