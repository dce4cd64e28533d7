import StanzaExchange.Proofs.Conservation
import StanzaExchange.Proofs.Ending

/-!
The correlation filters of running queries (section 4.5 of the specification). `Attended` is the
invariant: every running query has a filter of its own with the matcher of its id, and is its only
receiver. A correlation filter stays active until teardown unless some caller removes it by id. Its
id is never handed out, so this needs a guess: `Spares` excludes the removal itself, and `Entitled`,
the condition on the application that removes only ids it was given, implies it
(`spares_of_entitled`).
-/
namespace StanzaExchange

open Inflow (Flow Touch handsTo Advance)

namespace Conversation

variable {c after : Conversation} {touch : Touch} {n : Nat} {query : Query}

/-- The invariant of the correlation filters. -/
structure Attended (c : Conversation) : Prop where
  known : ∀ n query, c.query? n = some query → query.filter < c.inflow.registry.nextId
  wants : ∀ n query, c.query? n = some query → ∀ stanza,
    c.inflow.registry.accepts query.filter stanza = stanza.answers query.iq.id
  reads : ∀ n query, c.query? n = some query → c.inflow.registry.isReceiving query.filter = true
  distinct : ∀ n n' query query', c.query? n = some query → c.query? n' = some query' →
    query.filter = query'.filter → n = n'

theorem query?_eq {standing : Bool × Work} (stands : c.stands? n = some standing) :
    c.query? n = standing.2.query? := by
  rw [query?, stands, Option.bind_some]

/-- A query has just registered its correlation filter. -/
structure Registers (c after : Conversation) (touch : Touch) (n : Nat) (query : Query) : Prop where
  fresh : c.query? n = none
  filter : query.filter = c.inflow.registry.nextId
  touch : touch = .add (.replyTo query.iq.id)
  others : ∀ n', n' ≠ n → after.query? n' = c.query? n'

/-- A turn of one call spares the filters of all other queries. -/
private theorem Attended.others (attended : c.Attended) {n₀ : Nat} {call : Call} {givenUp : Bool}
    {put : List Stanza} {work : Work} (here : c.calls[n₀]? = some call)
    (turn : Turn c call givenUp touch put work) (other : n ≠ n₀) (has : c.query? n = some query) :
    touch.Spares query.filter := by
  have apart : ∀ {query'}, call.work.query? = some query' → query.filter ≠ query'.filter := by
    intro query' runs same
    have has' : c.query? n₀ = some query' := by simp [query?, stands?, here, runs]
    exact other (attended.distinct n n₀ query query' has has' same)
  cases turn with
  | plain running before after mild => rcases mild with rfl | rfl <;> trivial
  | registers asked | waits offering | queues unsent | forgets asked => trivial
  | refused unsent shut =>
    rcases unsent with asked | asked <;> exact apart (by simp [asked, Work.query?])
  | answered awaiting first => exact apart (by simp [awaiting, Work.query?])
  | deserted awaiting empty removed => exact apart (by simp [awaiting, Work.query?])
  | expires runs limited empty => exact apart runs
  | abandons runs => exact apart runs

/-- Backward inversion for a running query. -/
theorem Attended.unfolds (attended : c.Attended) (unfolds : c.Unfolds after touch)
    (has : after.query? n = some query) :
    (c.query? n = some query ∧ touch.Spares query.filter) ∨ Registers c after touch n query := by
  cases unfolds with
  | keeps same apart =>
    have had : c.query? n = some query := by rw [query?, ← same n]; exact has
    have mine : c.isQueryFilter query.filter = true := isQueryFilter_iff.mpr ⟨n, query, had, rfl⟩
    refine .inl ⟨had, ?_⟩
    cases touch with
    | takeFrom id | drop id =>
      rintro rfl
      exact Bool.false_ne_true (apart.symm.trans mine)
    | leave id reads => exact apart.elim
    | _ => trivial
  | begins sender work fresh leaves opens new =>
    by_cases last : n = c.calls.length
    · rw [query?, new, if_pos last] at has
      exact absurd (has.symm.trans (Work.query?_of_isFresh fresh)) (Option.some_ne_none query)
    · rw [query?, new, if_neg last] at has
      exact .inl ⟨has, trivial⟩
  | @turns n₀ call givenUp touch put work here turned =>
    have stands := stands?_modify here turned.calls
    by_cases mine : n = n₀
    · subst mine
      have now : work.query? = some query := by
        rw [query?, stands, if_pos rfl] at has
        exact has
      have before : c.query? n = call.work.query? := by simp [query?, stands?, here]
      cases turned.turn with
      | plain running earlier later mild =>
        rw [Work.isQuery_of_query? now] at later
        cases later.1
      | registers asked =>
        obtain rfl := Option.some.inj now
        refine .inr ⟨by simp [before, asked, Work.query?], rfl, rfl, fun n' other => ?_⟩
        simp [query?, stands, other]
      | waits offering =>
        obtain rfl := Option.some.inj now
        exact .inl ⟨by simp [before, offering, Work.query?], trivial⟩
      | queues unsent =>
        obtain rfl := Option.some.inj now
        rcases unsent with asked | asked <;>
          exact .inl ⟨by simp [before, asked, Work.query?], trivial⟩
      | refused | answered | deserted | expires | forgets | abandons => cases now
    · rw [query?, stands, if_neg mine] at has
      exact .inl ⟨has, attended.others here turned.turn mine has⟩

private theorem Registers.apart (attended : c.Attended) (new : Registers c after touch n query)
    {n' : Nat} {query' : Query} (has' : after.query? n' = some query')
    (same : query'.filter = query.filter) : n' = n := by
  by_cases mine : n' = n
  · exact mine
  · rw [new.others n' mine] at has'
    have known := attended.known n' query' has'
    rw [same, new.filter] at known
    exact absurd known (Nat.lt_irrefl _)

/-- The invariant is preserved by updates: a query keeps its filter or has registered a fresh one.
-/
private theorem attended_told (attended : c.Attended)
    (ages : c.inflow.registry.Ages after.inflow.registry)
    (inflow : after.inflow = c.inflow.touch touch) (unfolds : c.Unfolds after touch) :
    after.Attended := by
  have split := fun n query (has : after.query? n = some query) => attended.unfolds unfolds has
  have added : ∀ {n query}, Registers c after touch n query →
      after.inflow.registry = c.inflow.registry.add (.replyTo query.iq.id) := by
    intro n query new
    rw [inflow, new.touch]
    rfl
  refine ⟨fun n query has => ?_, fun n query has stanza => ?_, fun n query has => ?_,
    fun n n' query query' has has' same => ?_⟩
  · rcases split n query has with ⟨had, -⟩ | new
    · exact ages.lt_nextId (attended.known n query had)
    · rw [added new, Registry.nextId_add, new.filter]
      exact Nat.lt_succ_self _
  · rcases split n query has with ⟨had, -⟩ | new
    · obtain ⟨f, found⟩ := Registry.exists_of_lt_nextId (attended.known n query had)
      rw [ages.accepts_eq found, attended.wants n query had]
    · rw [added new, new.filter, Registry.accepts_add_self]
      rfl
  · rcases split n query has with ⟨had, spares⟩ | new
    · rw [inflow, Inflow.isReceiving_touch spares (attended.known n query had)]
      exact attended.reads n query had
    · rw [added new, new.filter, Registry.isReceiving_add_self]
  · rcases split n query has with ⟨had, -⟩ | new
    · rcases split n' query' has' with ⟨had', -⟩ | new'
      · exact attended.distinct n n' query query' had had' same
      · exact new'.apart attended has same
    · exact (new.apart attended has' same.symm).symm

/-- The invariant is preserved by the receiver task. -/
private theorem attended_advances {flow : Flow} {faults : Faults} (attended : c.Attended)
    (step : Advance faults c.inflow flow after.inflow) (same : ∀ n, after.query? n = c.query? n) :
    after.Attended := by
  refine ⟨fun n query has => ?_, fun n query has stanza => ?_, fun n query has => ?_,
    fun n n' query query' has has' => ?_⟩
  · exact step.ages.lt_nextId (attended.known n query (same n ▸ has))
  · have known := attended.known n query (same n ▸ has)
    obtain ⟨f, found⟩ := Registry.exists_of_lt_nextId known
    rw [step.ages.accepts_eq found, attended.wants n query (same n ▸ has)]
  · rw [step.isReceiving]
    exact attended.reads n query (same n ▸ has)
  · exact attended.distinct n n' query query' (same n ▸ has) (same n' ▸ has')

theorem query?_advances {m : Moment} {flow : Flow} (advances : m.Advances flow) (n : Nat) :
    m.after.query? n = m.before.query? n := by
  rw [query?, advances.calls n, query?]

theorem attended_move (attended : c.Attended) (move : Move) : (c.move move).Attended := by
  rcases Moment.told_or_advances ⟨c, move⟩ with ⟨touch, told⟩ | ⟨flow, advances⟩
  · exact attended_told attended (ages_move move) told.inflow told.calls
  · exact attended_advances attended advances.step (query?_advances advances)

end Conversation

/-- The step does not remove the correlation filter of a running query by its id. -/
def Moment.spares (m : Moment) : Bool :=
  match m.move with
  | .outside (.removeFilter _ id) => !m.before.isQueryFilter id
  | _ => true

/-- No correlation filter of a running query is removed by its id. -/
def History.Spares (h : History) : Prop := ∀ m ∈ h, m.spares = true

instance (h : History) : Decidable h.Spares :=
  inferInstanceAs (Decidable (∀ m ∈ h, m.spares = true))

namespace Course

variable {n : Nat} {query : Query}

theorem query?_origin (k : Course) (n : Nat) : k.origin.query? n ≠ some query := by
  have none : k.origin.query? n = none := rfl
  simp [none]

theorem attended (k : Course) : k.now.Attended := by
  refine k.induction (P := fun _ now => now.Attended) ?_
    fun moves move attended => Conversation.attended_move attended move
  exact ⟨fun n query has => absurd has (k.query?_origin n),
    fun n query has => absurd has (k.query?_origin n),
    fun n query has => absurd has (k.query?_origin n),
    fun n n' query query' has => absurd has (k.query?_origin n)⟩

/-- A running query has received nothing yet. -/
theorem returned_eq_nil (k : Course) (has : k.now.query? n = some query) :
    k.past.returned query.filter = [] := by
  refine k.induction (P := fun past now => ∀ n query, now.query? n = some query →
    past.returned query.filter = []) (fun _ _ _ => rfl) (fun moves move unread n query has => ?_)
    n query has
  rw [History.returned_concat]
  rcases Moment.told_or_advances ⟨_, move⟩ with ⟨touch, told⟩ | ⟨flow, advances⟩
  · rw [told.returned]
    rcases (attended _).unfolds told.calls has with ⟨had, spares⟩ | new
    · rw [unread n query had, Touch.returned_of_spares spares]
      rfl
    · obtain ⟨lost, whole, -⟩ := (conserved _).filters query.filter
      rw [(conserved _).unknown query.filter (Nat.le_of_eq new.filter.symm)] at whole
      rw [(List.append_eq_nil_iff.mp (List.append_eq_nil_iff.mp whole.symm).1).1, new.touch]
      rfl
  · rw [advances.returned, unread n query]
    · rfl
    · rw [← has]
      exact (Conversation.query?_advances advances n).symm

/-- The queue of a running query's filter holds all deliveries to it. -/
theorem handedTo_eq_queueOf (k : Course) (has : k.now.query? n = some query) :
    k.past.handedTo query.filter = k.now.inflow.registry.queueOf query.filter := by
  obtain ⟨lost, whole, none⟩ := k.conserved.filters query.filter
  rw [whole, none (k.attended.reads n query has), k.returned_eq_nil has]
  simp

/-- The correlation filter of a running query is removed only by teardown. -/
theorem closed_of_isRemoved (k : Course) (spares : k.past.Spares)
    (has : k.now.query? n = some query)
    (removed : k.now.inflow.registry.isRemoved query.filter = true) :
    k.now.inflow.registry.closed = true := by
  revert spares n query
  refine k.induction (P := fun past now => ∀ {n query}, past.Spares → now.query? n = some query →
    now.inflow.registry.isRemoved query.filter = true → now.inflow.registry.closed = true)
    (fun {n query} _ has => absurd has (k.query?_origin n)) ?_
  intro moves move j kept n query spares has removed
  have before : j.past.Spares := fun m member => spares m (List.mem_append_left _ member)
  rcases Moment.told_or_advances ⟨j.now, move⟩ with ⟨touch, told⟩ | ⟨flow, advances⟩
  · have inflow : (j.now.move move).inflow = j.now.inflow.touch touch := told.inflow
    rw [inflow] at removed
    rw [inflow, Inflow.closed_touch]
    rcases j.attended.unfolds told.calls has with ⟨had, apart⟩ | new
    · have spared : touch ≠ .remove query.filter := by
        rintro rfl
        rcases told.removes with kept | ⟨via, id, removal, removes⟩
        · cases kept
        cases removal
        obtain rfl : move = .outside (.removeFilter via query.filter) := removes
        have mine : j.now.isQueryFilter query.filter = true :=
          Conversation.isQueryFilter_iff.mpr ⟨n, query, had, rfl⟩
        have others := spares ⟨j.now, .outside (.removeFilter via query.filter)⟩ (by simp)
        simp [Moment.spares, mine] at others
      rw [Inflow.isRemoved_touch apart (j.attended.known n query had) spared] at removed
      exact kept before had removed
    · rw [new.touch, Inflow.touch, Registry.isRemoved_add, if_pos new.filter] at removed
      exact removed
  · have step : Advance j.now.faults j.now.inflow flow (j.now.move move).inflow := advances.step
    have had : j.now.query? n = some query := by
      rw [← has]
      exact (Conversation.query?_advances advances n).symm
    rcases step.isRemoved query.filter removed with earlier | closed
    · exact step.closed_mono (kept before had earlier)
    · exact closed

end Course

/-- The filter id that the application is given in a step. -/
def Moment.handedOut (m : Moment) : Option FilterId :=
  match m.move with
  | .outside (.addFilter via matcher) =>
    match (m.before.act (.addFilter via matcher)).1 with
    | .filterId id => some id
    | _ => none
  | _ => none

/-- The application removes only filters whose ids it was given. -/
def History.Entitled (h : History) : Prop :=
  ∀ m ∈ h, ∀ via id, m.move = .outside (.removeFilter via id) → ∃ m' ∈ h, m'.handedOut = some id

namespace Course

/-- A correlation filter is old, or has the next id. -/
theorem isQueryFilter_move (k : Course) (move : Move) {id : FilterId}
    (mine : (k.now.move move).isQueryFilter id = true) :
    k.now.isQueryFilter id = true ∨ id = k.now.inflow.registry.nextId := by
  obtain ⟨n, query, has, rfl⟩ := Conversation.isQueryFilter_iff.mp mine
  rw [Conversation.isQueryFilter_iff]
  rcases Moment.told_or_advances ⟨k.now, move⟩ with ⟨touch, told⟩ | ⟨flow, advances⟩
  · rcases k.attended.unfolds told.calls has with ⟨had, -⟩ | new
    · exact .inl ⟨n, query, had, rfl⟩
    · exact .inr new.filter
  · have had := (Conversation.query?_advances advances n).symm.trans has
    exact .inl ⟨n, query, had, rfl⟩

/-- An id handed out is the next one, and belongs to no query. -/
theorem handedOut_eq (k : Course) (move : Move) {id : FilterId}
    (out : Moment.handedOut ⟨k.now, move⟩ = some id) :
    id = k.now.inflow.registry.nextId ∧ id < (k.now.move move).inflow.registry.nextId ∧
      (k.now.move move).isQueryFilter id = k.now.isQueryFilter id := by
  unfold Moment.handedOut at out
  split at out
  next via matcher adds =>
    obtain rfl : move = .outside (.addFilter via matcher) := adds
    simp only [Conversation.move, Conversation.act, Conversation.reaching] at out ⊢
    cases gone : k.now.unreachable? via with
    | some missing =>
      rw [gone] at out
      cases out
    | none =>
      rw [gone] at out
      obtain rfl := Option.some.inj out
      refine ⟨rfl, ?_, rfl⟩
      exact Nat.lt_of_lt_of_eq (Nat.lt_succ_self _) (Registry.nextId_add matcher).symm
  · cases out

/-- Ids of correlation filters and ids handed out are disjoint, over the whole history. -/
structure Numbered (past : History) (now : Conversation) : Prop where
  queried : ∀ m ∈ past, ∀ id, m.before.isQueryFilter id = true → id < now.inflow.registry.nextId
  below : ∀ m ∈ past, ∀ id, m.handedOut = some id → id < now.inflow.registry.nextId
  now : ∀ m ∈ past, ∀ id, m.handedOut = some id → now.isQueryFilter id = false
  before : ∀ m ∈ past, ∀ id, m.handedOut = some id → ∀ m' ∈ past, m'.before.isQueryFilter id = false

theorem lt_of_isQueryFilter (k : Course) {id : FilterId}
    (mine : k.now.isQueryFilter id = true) : id < k.now.inflow.registry.nextId := by
  obtain ⟨n, query, has, rfl⟩ := Conversation.isQueryFilter_iff.mp mine
  exact k.attended.known n query has

/-- `Numbered` holds in every reachable state. -/
theorem numbered (k : Course) : Numbered k.past k.now := by
  refine k.induction ?_ ?_
  · constructor <;> exact fun m member => absurd member List.not_mem_nil
  intro moves move j kept
  have ages : j.now.inflow.registry.Ages (j.now.move move).inflow.registry :=
    Conversation.ages_move move
  have split : ∀ {m}, m ∈ j.past ++ [⟨j.now, move⟩] → m ∈ j.past ∨ m = ⟨j.now, move⟩ := by simp
  refine ⟨fun m member id mine => ?_, fun m member id out => ?_, fun m member id out => ?_,
    fun m member id out m' member' => ?_⟩
  · rcases split member with earlier | rfl
    · exact ages.lt_nextId (kept.queried m earlier id mine)
    · exact ages.lt_nextId (j.lt_of_isQueryFilter mine)
  · rcases split member with earlier | rfl
    · exact ages.lt_nextId (kept.below m earlier id out)
    · exact (j.handedOut_eq move out).2.1
  · refine Bool.eq_false_iff.mpr fun mine => ?_
    rcases split member with earlier | rfl
    · rcases j.isQueryFilter_move move mine with before | next
      · exact Bool.false_ne_true ((kept.now m earlier id out).symm.trans before)
      · exact Nat.ne_of_lt (kept.below m earlier id out) next
    · obtain ⟨next, -, same⟩ := j.handedOut_eq move out
      rw [same] at mine
      exact Nat.ne_of_lt (j.lt_of_isQueryFilter mine) next
  · refine Bool.eq_false_iff.mpr fun mine => ?_
    rcases split member with earlier | rfl
    · rcases split member' with earlier' | rfl
      · exact Bool.false_ne_true ((kept.before m earlier id out m' earlier').symm.trans mine)
      · exact Bool.false_ne_true ((kept.now m earlier id out).symm.trans mine)
    · obtain ⟨next, -, -⟩ := j.handedOut_eq move out
      rcases split member' with earlier' | rfl
      · exact Nat.ne_of_lt (kept.queried m' earlier' id mine) next
      · exact Nat.ne_of_lt (j.lt_of_isQueryFilter mine) next

/-- An application that removes only ids it was given removes no correlation filter. -/
theorem spares_of_entitled (k : Course) (entitled : k.past.Entitled) : k.past.Spares := by
  intro m member
  unfold Moment.spares
  split
  next via id removes =>
    obtain ⟨m', member', out⟩ := entitled m member via id removes
    rw [k.numbered.before m' member' id out m member]
    rfl
  · rfl

end Course

end StanzaExchange
