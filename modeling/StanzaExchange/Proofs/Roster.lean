import Mathlib.Data.List.Nodup
import Mathlib.Data.List.Range
import StanzaExchange.Proofs.Registry
import StanzaExchange.Proofs.Sequences

/-!
Refinement of the registry to a list (sections 4.2 and 9 of the specification). The registry keeps
its filters in an index and in an arena, with marks for the removed ones; `Roster` is the list of
active ids, newest first, with the same requests. `perform_roster` is the simulation of one request,
`run_roster` that of all sequences.
-/
namespace StanzaExchange

namespace Registry

/-- The requests to a registry. -/
inductive Request where
  | add (matcher : Matcher)
  | remove (id : FilterId)
  | closeAll
  | snapshot
  | size
  | isEmpty

/-- The answers. -/
inductive Reply where
  | filterId (id : FilterId)
  | ok
  | notFound (id : FilterId)
  | filters (ids : List FilterId)
  | count (filters : Nat)
  | flag (value : Bool)
  deriving DecidableEq, Repr

def perform (r : Registry) : Request → Reply × Registry
  | .add matcher => (.filterId r.nextId, r.add matcher)
  | .remove id =>
    match r.remove? id with
    | some after => (.ok, after)
    | none => (.notFound id, r)
  | .closeAll => (.count r.entries.length, r.close)
  | .snapshot => (.filters r.snapshot, r)
  | .size => (.count r.size, r)
  | .isEmpty => (.flag r.isEmpty, r)

def served (r : Registry) (request : Request) : Registry := (r.perform request).2

def run (r : Registry) (requests : List Request) : Registry := requests.foldl served r

def replies (r : Registry) (requests : List Request) : List Reply :=
  (trail served r requests).map fun o => (o.before.perform o.move).1

/-- The filters a request marks as removed. -/
def marks (r : Registry) : Request → List FilterId
  | .add _ => if r.closed then [r.nextId] else []
  | .remove id => if id ∈ r.entries then [id] else []
  | .closeAll => r.entries
  | .snapshot | .size | .isEmpty => []

/-- All marks of a sequence, in order. -/
def allMarks (r : Registry) (requests : List Request) : List FilterId :=
  (trail served r requests).flatMap fun o => o.before.marks o.move

end Registry

def Registry.Reply.filterId? : Registry.Reply → Option FilterId
  | .filterId id => some id
  | _ => none

/-- The abstract registry: active ids, newest first. -/
structure Roster where
  active : List FilterId := []
  next : FilterId := 0
  closed : Bool := false
  deriving DecidableEq

namespace Roster

open Registry (Request Reply)

def perform (l : Roster) : Request → Reply × Roster
  | .add _ =>
    (.filterId l.next,
      { l with next := l.next + 1, active := if l.closed then l.active else l.next :: l.active })
  | .remove id =>
    if id ∈ l.active then (.ok, { l with active := l.active.filter (· ≠ id) })
    else (.notFound id, l)
  | .closeAll => (.count l.active.length, { l with active := [], closed := true })
  | .snapshot => (.filters l.active, l)
  | .size => (.count l.active.length, l)
  | .isEmpty => (.flag l.active.isEmpty, l)

def served (l : Roster) (request : Request) : Roster := (l.perform request).2

def run (l : Roster) (requests : List Request) : Roster := requests.foldl served l

def replies (l : Roster) (requests : List Request) : List Reply :=
  (trail served l requests).map fun o => (o.before.perform o.move).1

end Roster

namespace Registry

variable {r : Registry} {id : FilterId}

/-- The abstraction function. -/
def roster (r : Registry) : Roster := ⟨r.active, r.nextId, r.closed⟩

theorem nextId_remove {later : Registry} (removed : r.remove? id = some later) :
    later.nextId = r.nextId := by
  simp [nextId, eq_of_remove? removed]

@[simp] theorem nextId_close : r.close.nextId = r.nextId := by
  simp [nextId, close]

theorem remove?_eq_none_iff (sound : r.WellFormed) : r.remove? id = none ↔ id ∉ r.active := by
  rw [← sound.entries.mem_iff]
  simp [remove?]

/-- `WellFormed` is preserved by every request. -/
theorem wellFormed_served (sound : r.WellFormed) (request : Request) :
    (r.served request).WellFormed := by
  cases request with
  | add matcher => exact sound.add matcher
  | remove id =>
    cases removed : r.remove? id with
    | none => simpa [Registry.served, perform, removed] using sound
    | some later => simpa [Registry.served, perform, removed] using sound.remove removed
  | closeAll => exact sound.close
  | snapshot | size | isEmpty => exact sound

theorem ages_served (request : Request) : r.Ages (r.served request) := by
  cases request with
  | add matcher => exact ages_add matcher
  | remove id =>
    cases removed : r.remove? id with
    | none => simpa [served, perform, removed] using Ages.refl r
    | some later => simpa [served, perform, removed] using ages_remove removed
  | closeAll => exact ages_close
  | snapshot | size | isEmpty => exact .refl r

/-- Simulation of one request. -/
theorem perform_roster (sound : r.WellFormed) (request : Request) :
    (r.perform request).1 = (r.roster.perform request).1 ∧
      (r.served request).roster = r.roster.served request := by
  cases request with
  | add matcher =>
    constructor
    · rfl
    · simp only [served, perform, Roster.served, Roster.perform, roster, nextId_add]
      rfl
  | remove id =>
    have distinct : r.active.Nodup := sound.newestFirst.imp fun above => Nat.ne_of_gt above
    cases removed : r.remove? id with
    | none =>
      have inactive := (remove?_eq_none_iff sound).mp removed
      simp [served, perform, removed, Roster.served, Roster.perform, roster, inactive]
    | some later =>
      have active : id ∈ r.active := by
        by_contra inactive
        cases removed.symm.trans ((remove?_eq_none_iff sound).mpr inactive)
      have erased : r.active.erase id = r.active.filter (· ≠ id) := by
        rw [distinct.erase_eq_filter]
        exact List.filter_congr fun other _ => by simp [bne, beq_eq_decide]
      simp [served, perform, removed, Roster.served, Roster.perform, roster, active,
        eq_of_remove? removed, nextId, erased]
  | closeAll =>
    constructor
    · exact congrArg Reply.count sound.entries.length_eq
    · simp [served, perform, Roster.served, Roster.perform, roster, close, nextId]
  | snapshot => exact ⟨congrArg Reply.filters sound.snapshot, rfl⟩
  | size => exact ⟨rfl, rfl⟩
  | isEmpty =>
    constructor
    · cases active : r.active <;>
        simp [perform, Roster.perform, roster, Registry.isEmpty, Registry.size, active]
    · rfl

/-- The filter exists and is marked as removed. -/
def Marked (r : Registry) (id : FilterId) : Prop :=
  ∃ f, r.filter? id = some f ∧ f.removed = true

theorem marked_iff : r.Marked id ↔ id < r.nextId ∧ r.isRemoved id = true := by
  constructor
  · rintro ⟨f, found, removed⟩
    exact ⟨lt_nextId_of_filter? found, by rw [isRemoved_eq found, removed]⟩
  · rintro ⟨known, removed⟩
    obtain ⟨f, found⟩ := exists_of_lt_nextId known
    exact ⟨f, found, by rw [← isRemoved_eq found, removed]⟩

theorem Ages.marked {later : Registry} (ages : r.Ages later) (marked : r.Marked id) :
    later.Marked id := by
  obtain ⟨f, found, removed⟩ := marked
  obtain ⟨g, foundThen, older⟩ := ages id f found
  exact ⟨g, foundThen, older.removed removed⟩

theorem WellFormed.not_marked (sound : r.WellFormed) (listed : id ∈ r.entries) :
    ¬r.Marked id := by
  intro marked
  have kept := (sound.active_iff id).mp (sound.entries.mem_iff.mp listed)
  simp [(marked_iff.mp marked).2] at kept

/-- A request marks filters not marked before, each once. -/
theorem WellFormed.marks_fresh (sound : r.WellFormed) (request : Request) :
    (r.marks request).Nodup ∧ ∀ id ∈ r.marks request, ¬r.Marked id := by
  have distinct : r.entries.Nodup :=
    sound.entries.nodup_iff.mpr (sound.newestFirst.imp fun above => Nat.ne_of_gt above)
  cases request with
  | add matcher =>
    have unknown : ¬r.Marked r.nextId := fun marked => Nat.lt_irrefl _ (marked_iff.mp marked).1
    by_cases closed : r.closed = true <;> simp [marks, closed, unknown]
  | remove id =>
    by_cases listed : id ∈ r.entries
    · simpa [marks, listed] using sound.not_marked listed
    · simp [marks, listed]
  | closeAll => exact ⟨distinct, fun id listed => sound.not_marked listed⟩
  | snapshot | size | isEmpty => simp [marks]

/-- A filter is marked after a request if it was before, or the request marks it. -/
theorem WellFormed.marked_served (sound : r.WellFormed) (request : Request) (id : FilterId) :
    (r.served request).Marked id ↔ r.Marked id ∨ id ∈ r.marks request := by
  cases request with
  | add matcher =>
    change (r.add matcher).Marked id ↔ _
    unfold Marked
    rw [filter?_add]
    by_cases fresh : id = r.nextId
    · have unknown : r.filter? r.nextId = none := filter?_eq_none_iff.mpr (Nat.le_refl _)
      by_cases closed : r.closed = true <;> simp [fresh, unknown, marks, closed]
    · by_cases closed : r.closed = true <;> simp [fresh, marks, closed]
  | remove other =>
    cases removed : r.remove? other with
    | none =>
      have unlisted : other ∉ r.entries := fun listed => by simp [remove?, listed] at removed
      simp [served, perform, removed, marks, unlisted]
    | some later =>
      have listed : other ∈ r.entries := by
        by_contra unlisted
        simp [remove?, unlisted] at removed
      obtain ⟨f, found, -⟩ := sound.exists_of_active (sound.entries.mem_iff.mp listed)
      simp only [served, perform, removed, marks, if_pos listed, List.mem_singleton]
      unfold Marked
      rw [filter?_remove removed]
      by_cases same : id = other
      · simp [same, found, markRemoved]
      · simp [same]
  | closeAll =>
    change r.close.Marked id ↔ r.Marked id ∨ id ∈ r.entries
    by_cases listed : id ∈ r.entries
    · obtain ⟨f, found, -⟩ := sound.exists_of_active (sound.entries.mem_iff.mp listed)
      simp [Marked, filter?_close, found, listed, markRemoved]
    · simp [Marked, filter?_close, listed]
  | snapshot | size | isEmpty => simp [served, perform, marks]

theorem wellFormed_run (sound : r.WellFormed) (requests : List Request) :
    (r.run requests).WellFormed :=
  List.foldlRecOn requests Registry.served sound fun _ sound request _ =>
    wellFormed_served sound request

theorem ages_run (requests : List Request) : r.Ages (r.run requests) :=
  List.foldlRecOn requests served (Ages.refl r) fun _ ages request _ =>
    ages.trans (ages_served request)

/-- Simulation of a sequence. -/
theorem run_roster (sound : r.WellFormed) (requests : List Request) :
    r.replies requests = r.roster.replies requests ∧
      (r.run requests).roster = r.roster.run requests := by
  induction requests generalizing r with
  | nil => exact ⟨rfl, rfl⟩
  | cons request rest ih =>
    obtain ⟨reply, next⟩ := perform_roster sound request
    obtain ⟨others, last⟩ := ih (wellFormed_served sound request)
    constructor
    · change (r.perform request).1 :: (r.served request).replies rest =
        (r.roster.perform request).1 :: (r.roster.served request).replies rest
      rw [reply, others, next]
    · change ((r.served request).run rest).roster = (r.roster.served request).run rest
      rw [last, next]

/-- Only `add` allocates an id, the next one. -/
theorem nextId_served (request : Request) :
    List.range (r.served request).nextId =
      List.range r.nextId ++ (r.perform request).1.filterId?.toList := by
  cases request with
  | add matcher =>
    simp only [served, perform, nextId_add, Reply.filterId?, Option.toList_some]
    exact List.range_succ
  | remove id =>
    cases removed : r.remove? id with
    | none => simp [served, perform, removed, Reply.filterId?]
    | some later => simp [served, perform, removed, Reply.filterId?, nextId_remove removed]
  | closeAll => simp [served, perform, Reply.filterId?]
  | snapshot | size | isEmpty => simp [served, perform, Reply.filterId?]

/-- The ids handed out are `0, 1, 2, …`, in this order. -/
theorem ids_eq_range (capacity : Nat) (requests : List Request) :
    ((ofCapacity capacity).replies requests).filterMap Reply.filterId? =
      List.range ((ofCapacity capacity).run requests).nextId := by
  refine trail_induction (P := fun (past : List (Occasion Registry Request)) (now : Registry) =>
    (past.map fun o => (o.before.perform o.move).1).filterMap Reply.filterId? =
      List.range now.nextId) rfl ?_ requests
  intro past now request before
  rw [List.map_append, List.filterMap_append, before, nextId_served]
  cases given : (now.perform request).1.filterId? <;> simp [given]

/-- Every filter is marked at most once, and stays marked. -/
theorem allMarks_spec (capacity : Nat) (requests : List Request) :
    ((ofCapacity capacity).allMarks requests).Nodup ∧
      ∀ id, id ∈ (ofCapacity capacity).allMarks requests ↔
        ((ofCapacity capacity).run requests).Marked id := by
  let P (past : List (Occasion Registry Request)) (now : Registry) : Prop :=
    now.WellFormed ∧ (past.flatMap fun o => o.before.marks o.move).Nodup ∧
      ∀ id, id ∈ (past.flatMap fun o => o.before.marks o.move) ↔ now.Marked id
  have start : P [] (ofCapacity capacity) :=
    ⟨wellFormed_ofCapacity capacity, List.nodup_nil, fun id => by
      simp [Marked, ofCapacity, filter?]⟩
  refine (trail_induction (P := P) start ?_ requests).2
  rintro past now request ⟨sound, distinct, marked⟩
  obtain ⟨once, fresh⟩ := sound.marks_fresh request
  refine ⟨wellFormed_served sound request, ?_, fun id => ?_⟩
  · rw [List.flatMap_append, List.flatMap_singleton]
    refine distinct.append once ?_
    intro id earlier now
    exact fresh id now ((marked id).mp earlier)
  · rw [List.flatMap_append, List.flatMap_singleton, List.mem_append, marked,
      sound.marked_served]

/-- The registry refines the list, for every sequence of requests. All answers are those of the
list. Index and arena hold the same ids, each once, strictly decreasing and below the next id, and
none after close. The ids handed out increase strictly over the whole history. Removing an id that
is not active answers `notFound` and changes nothing. A filter is marked exactly if it is not
active; it is marked once, and stays marked. -/
theorem refines_roster (capacity : Nat) (requests : List Request) :
    let start := ofCapacity capacity
    let now := start.run requests
    (start.replies requests = Roster.replies {} requests ∧
      now.active = (Roster.run {} requests).active) ∧
    (now.entries.Nodup ∧ (∀ id, id ∈ now.entries ↔ id ∈ now.active) ∧
      now.active.Pairwise (· > ·) ∧ (∀ id ∈ now.active, id < now.nextId) ∧
      (now.closed = true → now.active = [] ∧ now.entries = [])) ∧
    ((start.replies requests).filterMap Reply.filterId? = List.range now.nextId ∧
      ((start.replies requests).filterMap Reply.filterId?).Pairwise (· < ·)) ∧
    (∀ id, ((now.perform (.remove id)).1 = .notFound id ↔ id ∉ now.active) ∧
      (id ∉ now.active → now.served (.remove id) = now)) ∧
    (∀ id < now.nextId, (now.isRemoved id = true ↔ id ∉ now.active) ∧
      (now.isRemoved id = true ↔ id ∈ start.allMarks requests) ∧
      (now.isRemoved id = true → ∀ more, (now.run more).isRemoved id = true)) ∧
    (start.allMarks requests).Nodup := by
  intro start now
  have sound : now.WellFormed := wellFormed_run (wellFormed_ofCapacity capacity) requests
  obtain ⟨replies, roster⟩ := run_roster (wellFormed_ofCapacity capacity) requests
  obtain ⟨once, marked⟩ := allMarks_spec capacity requests
  have ids := ids_eq_range capacity requests
  have distinct : now.active.Nodup := sound.newestFirst.imp fun above => Nat.ne_of_gt above
  refine ⟨⟨replies, congrArg Roster.active roster⟩, ⟨sound.entries.nodup_iff.mpr distinct,
    fun id => sound.entries.mem_iff, sound.newestFirst, fun id active => sound.lt_nextId active,
    fun closed => ?_⟩, ⟨ids, ?_⟩, fun id => ?_, fun id known => ?_, once⟩
  · have active := sound.closed closed
    exact ⟨active, List.perm_nil.mp (active ▸ sound.entries)⟩
  · rw [ids]
    exact List.pairwise_lt_range
  · rw [← remove?_eq_none_iff sound]
    cases removed : now.remove? id <;> simp [served, perform, removed]
  · refine ⟨?_, ?_, fun removed more => ?_⟩
    · rw [sound.active_iff]
      cases now.isRemoved id <;> simp
    · rw [marked, marked_iff]
      exact (and_iff_right known).symm
    · have marked : now.Marked id := marked_iff.mpr ⟨known, removed⟩
      have still : (now.run more).Marked id := (ages_run more).marked marked
      exact (marked_iff.mp still).2

/-- Adds and removals: one repeated, one of an unknown id, one add after close. -/
def churn : List Request :=
  [.add .anything, .add .failures, .remove 0, .remove 0, .remove 7, .add .anything, .snapshot,
    .closeAll, .add .failures, .remove 3, .size, .isEmpty]

theorem refines_roster_churn :
    (ofCapacity 1).replies churn =
        [.filterId 0, .filterId 1, .ok, .notFound 0, .notFound 7, .filterId 2, .filters [2, 1],
          .count 2, .filterId 3, .notFound 3, .count 0, .flag true] ∧
      ((ofCapacity 1).allMarks churn).Perm [0, 1, 2, 3] ∧ ((ofCapacity 1).allMarks churn).Nodup ∧
      ∀ more, (((ofCapacity 1).run churn).run more).isRemoved 3 = true := by
  obtain ⟨⟨replies, -⟩, -, -, -, tokens, once⟩ := refines_roster 1 churn
  obtain ⟨-, -, stays⟩ := tokens 3 (by decide +kernel)
  refine ⟨?_, by decide +kernel, once, stays (by decide +kernel)⟩
  rw [replies]
  decide +kernel

end Registry

end StanzaExchange
