import Mathlib.Data.List.Nodup
import StanzaExchange.Proofs.Deeds
import StanzaExchange.Proofs.Queries

/-!
The active filters of a conversation (sections 4.2 and 4.5 of the specification). Before teardown
exactly four kinds of steps change the registry: the application adds or removes a filter, and a
query registers its correlation filter or drops it; `Counts` proves this of every move. So the
active filters are those the application holds and those of the running queries, and the drop guard
of `send_recv` removes its filter on every exit path.
-/
namespace StanzaExchange

open Conversation
open Inflow (Touch Deed Flow Advance)

namespace Registry

variable {r after : Registry} {id : FilterId}

theorem active_leave (sound : r.WellFormed) : (r.leave id).active = r.active.erase id := by
  by_cases listed : id ∈ r.entries
  · simp [leave, remove?, listed, modifyChannel]
  · have inactive : id ∉ r.active := mt sound.entries.mem_iff.mpr listed
    simp [leave, remove?, listed, modifyChannel, List.erase_of_not_mem inactive]

theorem active_add (matcher : Matcher) (opened : r.closed = false) :
    (r.add matcher).active = r.nextId :: r.active := by
  simp [add, opened]

end Registry

/-- The receiver task changes no registration before teardown. -/
theorem Inflow.Advance.active {faults : Faults} {flow : Flow} {i after : Inflow}
    (step : Advance faults i flow after) (unfinished : i.reader ≠ .closing) :
    after.registry.active = i.registry.active := by
  cases step with
  | hands busy wanted put =>
    obtain ⟨f, found, kept, reads, room, rfl⟩ := Registry.offer_accepted put
    rfl
  | closes busy => exact absurd busy unfinished
  | _ => rfl

/-- The update leaves the registrations unchanged. -/
def Inflow.Touch.isIdle : Touch → Bool
  | .add _ | .remove _ | .leave _ _ => false
  | _ => true

theorem Inflow.active_touch {i : Inflow} {t : Touch} (idle : t.isIdle = true) :
    (i.touch t).registry.active = i.registry.active := by
  cases t <;> first | rfl | cases idle

namespace Conversation

variable {c : Conversation} {action : Action}

/-- The call is unchanged, or new and not yet registered. -/
def StandsOrBegins (c after : Conversation) (n : Nat) : Prop :=
  after.stands? n = c.stands? n ∨ c.stands? n = none ∧
    ∃ sender work, after.stands? n = some (sender, work) ∧ work.query? = none

theorem standsOrBegins_of_calls {after : Conversation} (calls : after.calls = c.calls) (n : Nat) :
    c.StandsOrBegins after n := .inl (by rw [stands?, calls, stands?])

theorem standsOrBegins_addCall {call : Call} (fresh : call.work.query? = none) (n : Nat) :
    c.StandsOrBegins (c.addCall call).2 n := by
  rcases Nat.lt_trichotomy n c.calls.length with known | rfl | beyond
  · exact .inl (congrArg (Option.map _) (List.getElem?_append_left known))
  · refine .inr ⟨by simp [stands?], call.sender, call.work, ?_, fresh⟩
    simp [stands?, addCall]
  · refine .inl ?_
    rw [stands?, addCall, List.getElem?_eq_none (by simp; omega), stands?,
      List.getElem?_eq_none (Nat.le_of_lt beyond)]

/-- No action other than dropping a call changes a call that exists. The cases follow the actions.
-/
theorem standsOrBegins_act (other : ∀ n, action ≠ .drop n) (n : Nat) :
    c.StandsOrBegins (c.act action).2 n := by
  let P : Conversation → Prop := fun after => c.StandsOrBegins after n
  have still : P c := .inl rfl
  have reaching : ∀ {via result}, P result.2 → P (c.reaching via result).2 :=
    fun done => reaching_keeps still fun _ => done
  have ofPeer : ∀ {result}, P result.2 → P (c.ofPeer result).2 := ofPeer_keeps still
  have ofReceiver : ∀ {id result}, P result.2 → P (c.ofReceiver id result).2 :=
    ofReceiver_keeps still
  cases action with
  | push arrival =>
    apply ofPeer
    unfold push
    split <;> exact .inl rfl
  | takeWrite =>
    apply ofPeer
    unfold takeWrite
    split <;> exact .inl rfl
  | hangUp | dropPeer | takeWrites => exact ofPeer (.inl rfl)
  | receive =>
    apply reaching
    unfold receive
    cases c.inflow.inbound.read (c.inflow.reader = .closed) <;> exact .inl rfl
  | receiveFrom id =>
    apply ofReceiver
    unfold receiveFrom
    cases c.inflow.registry.read id <;> exact .inl rfl
  | dropReceiver id => exact ofReceiver (.inl rfl)
  | finish => exact reaching (standsOrBegins_of_calls c.finishOwn_keeps.2.2.1 n)
  | handle =>
    apply reaching
    split <;> exact .inl rfl
  | removeFilter via id =>
    apply reaching
    unfold removeFilter?
    cases c.inflow.registry.remove? id <;> exact .inl rfl
  | send | query | join => exact reaching (standsOrBegins_addCall rfl n)
  | abort call =>
    refine .inl ?_
    simp only [act, stands?, List.getElem?_modify]
    split
    · cases c.calls[n]? <;> rfl
    · simp
  | drop n => exact absurd rfl (other n)
  | setJid | cloneHandle | dropHandle | dropOwn | addFilter | close => exact reaching (.inl rfl)
  | stall | advance => exact .inl rfl

/-- No query begins or ends by an action other than dropping a call. -/
theorem query?_act (other : ∀ n, action ≠ .drop n) (n : Nat) :
    (c.act action).2.query? n = c.query? n := by
  rcases standsOrBegins_act other n with same | ⟨absent, sender, work, begun, fresh⟩
  · rw [query?, same, query?]
  · rw [query?, begun, query?, absent]
    exact fresh

end Conversation

namespace Moment

variable {m : Moment}

/-- The filter the application removes in this step. -/
def revoked (m : Moment) : Option FilterId :=
  match m.move with
  | .outside (.removeFilter via id) =>
    if (m.before.act (.removeFilter via id)).1 = .ok then some id else none
  | _ => none

/-- The effect of a step on the active filters. -/
inductive Counts (m : Moment) : Prop
  | idle (queries : ∀ n, m.after.query? n = m.before.query? n) (granted : m.handedOut = none)
      (revoked : m.revoked = none)
      (active : m.after.inflow.registry.active = m.before.inflow.registry.active)
  /-- The application adds a filter. -/
  | grants (matcher : Matcher) (queries : ∀ n, m.after.query? n = m.before.query? n)
      (granted : m.handedOut = some m.before.inflow.registry.nextId) (revoked : m.revoked = none)
      (registry : m.after.inflow.registry = m.before.inflow.registry.add matcher)
  /-- The application removes a filter. -/
  | revokes (id : FilterId) (queries : ∀ n, m.after.query? n = m.before.query? n)
      (granted : m.handedOut = none) (revoked : m.revoked = some id)
      (known : id ∈ m.before.inflow.registry.active)
      (active : m.after.inflow.registry.active = m.before.inflow.registry.active.erase id)
  /-- A query registers its correlation filter. -/
  | begins (n : Nat) (query : Query) (unasked : m.before.query? n = none)
      (asks : m.after.query? n = some query)
      (queries : ∀ n', n' ≠ n → m.after.query? n' = m.before.query? n')
      (granted : m.handedOut = none) (revoked : m.revoked = none)
      (filter : query.filter = m.before.inflow.registry.nextId)
      (registry : m.after.inflow.registry =
        m.before.inflow.registry.add (.replyTo query.iq.id))
  /-- A query drops its correlation filter. -/
  | ends (n : Nat) (query : Query) (asks : m.before.query? n = some query)
      (ended : m.after.query? n = none)
      (queries : ∀ n', n' ≠ n → m.after.query? n' = m.before.query? n')
      (granted : m.handedOut = none) (revoked : m.revoked = none)
      (active : m.after.inflow.registry.active =
        m.before.inflow.registry.active.erase query.filter)
  /-- Teardown. -/
  | closes (queries : ∀ n, m.after.query? n = m.before.query? n) (granted : m.handedOut = none)
      (revoked : m.revoked = none) (closed : m.after.inflow.registry.closed = true)

private theorem counts_of_void (void : m.after = m.before) (granted : m.handedOut = none)
    (revoked : m.revoked = none) : m.Counts :=
  .idle (fun n => by rw [void]) granted revoked (by rw [void])

/-- An action that changes no registration. -/
private theorem counts_of_apart {c : Conversation} {action : Action}
    (other : ∀ n, action ≠ .drop n) (granted : handedOut ⟨c, .outside action⟩ = none)
    (revoked : revoked ⟨c, .outside action⟩ = none)
    (idle : ∀ t, action.touch? = some t → t.isIdle = true) : Counts ⟨c, .outside action⟩ := by
  refine .idle (query?_act other) granted revoked ?_
  change (c.act action).2.inflow.registry.active = c.inflow.registry.active
  rw [inflow_act other, Conversation.touch?]
  split
  · cases touch : action.touch? with
    | none => rfl
    | some t => exact Inflow.active_touch (idle t touch)
  · rfl

private theorem counts_addFilter (c : Conversation) (via : Via) (matcher : Matcher) :
    Counts ⟨c, .outside (.addFilter via matcher)⟩ := by
  rcases reaching_or c via (.filterId c.inflow.registry.nextId, c.addFilter matcher) with
    ⟨-, acted⟩ | ⟨missing, gone⟩
  · have acted : c.act (.addFilter via matcher) = _ := acted
    refine .grants matcher (query?_act nofun) ?_ rfl ?_
    · simp [handedOut, acted]
    · change (c.act (.addFilter via matcher)).2.inflow.registry = _
      rw [acted]
      rfl
  · have gone : c.act (.addFilter via matcher) = _ := gone
    exact counts_of_void (congrArg Prod.snd gone) (by simp [handedOut, gone]) rfl

private theorem counts_removeFilter {c : Conversation} (sound : c.inflow.registry.WellFormed)
    (via : Via) (id : FilterId) :
    Counts ⟨c, .outside (.removeFilter via id)⟩ := by
  cases reach : c.unreachable? via with
  | some missing =>
    have acts : c.act (.removeFilter via id) = (.gone missing, c) := by simp [act, reaching, reach]
    exact counts_of_void (congrArg Prod.snd acts) rfl (by simp [revoked, acts])
  | none =>
    cases removed : c.inflow.registry.remove? id with
    | none =>
      have acts : c.act (.removeFilter via id) = (.notFound id, c) := by
        simp [act, reaching, reach, removeFilter?, removed]
      exact counts_of_void (congrArg Prod.snd acts) rfl (by simp [revoked, acts])
    | some registry =>
      have acts : c.act (.removeFilter via id) = (.ok, (c.setRegistry registry).report .application
          [registry.removeEvent id]) := by
        simp [act, reaching, reach, removeFilter?, removed]
      have known : id ∈ c.inflow.registry.active := by
        refine sound.entries.mem_iff.mp ?_
        by_contra absent
        simp [Registry.remove?, absent] at removed
      refine .revokes id (query?_act (by simp)) rfl (by simp [revoked, acts]) known ?_
      change (c.act (.removeFilter via id)).2.inflow.registry.active = _
      rw [acts]
      exact congrArg Registry.active (Registry.eq_of_remove? removed)

/-- Backward inversion: a running query has registered a fresh filter just now, or ran before with
the same one. -/
private theorem query?_before {c : Conversation} (attended : c.Attended) {move : Move} {n : Nat}
    {query : Query} (has : (c.move move).query? n = some query) : c.query? n = some query ∨
      c.query? n = none ∧ query.filter = c.inflow.registry.nextId := by
  rcases told_or_advances ⟨c, move⟩ with ⟨touch, told⟩ | ⟨flow, advances⟩
  · rcases attended.unfolds told.calls has with ⟨had, -⟩ | new
    · exact .inl had
    · exact .inr ⟨new.fresh, new.filter⟩
  · exact .inl ((query?_advances advances n).symm.trans has)

/-- A turn of a call registers its correlation filter, drops it, or changes no registration. -/
private theorem counts_of_turn {c : Conversation} (attended : c.Attended)
    (sound : c.inflow.registry.WellFormed) {move : Move} {n : Nat} (turn : isTurnOf n move) :
    Counts ⟨c, move⟩ := by
  have granted : handedOut ⟨c, move⟩ = none := by rcases turn with rfl | rfl | rfl <;> rfl
  have revoked : revoked ⟨c, move⟩ = none := by rcases turn with rfl | rfl | rfl <;> rfl
  rcases still_or_turns turn with still | ⟨call, here, later, calls, inflow⟩
  · exact counts_of_void still granted revoked
  · have stands := stands?_modify here calls
    have before : c.query? n = call.work.query? := by simp [query?, stands?, here]
    have after : (c.move move).query? n = later.query? := by simp [query?, stands]
    have others : ∀ n', n' ≠ n → (c.move move).query? n' = c.query? n' := by
      intro n' other
      rw [query?, stands, if_neg other, query?]
    have same : later.query? = call.work.query? →
        ∀ n', (c.move move).query? n' = c.query? n' := by
      intro kept n'
      by_cases mine : n' = n
      · rw [mine, after, kept, before]
      · exact others n' mine
    have released : (c.touched (if call.work.holdsInbound && !later.holdsInbound then some .shut
        else none)).registry.active = c.inflow.registry.active := by
      split <;> rfl
    cases had : call.work.query? with
    | none =>
      rw [had] at before
      cases has : later.query? with
      | none =>
        refine .idle (same (has.trans had.symm)) granted revoked ?_
        change (c.move move).inflow.registry.active = _
        rw [inflow, Work.touch?, had, has]
        exact released
      | some query =>
        rw [has] at after
        obtain ⟨-, filter⟩ := (query?_before attended after).resolve_left (by simp [before])
        refine .begins n query before after others granted revoked filter ?_
        change (c.move move).inflow.registry = _
        rw [inflow, Work.touch?, had, has]
        rfl
    | some query =>
      rw [had] at before
      cases has : later.query? with
      | none =>
        rw [has] at after
        refine .ends n query before after others granted revoked ?_
        change (c.move move).inflow.registry.active = _
        rw [inflow, Work.touch?, had, has]
        exact Registry.active_leave sound
      | some kept =>
        have keeps : later.query? = call.work.query? := by
          rcases query?_before attended (after.trans has) with earlier | ⟨new, -⟩
          · rw [has, had, ← earlier, before]
          · cases new.symm.trans before
        refine .idle (same keeps) granted revoked ?_
        change (c.move move).inflow.registry.active = _
        rw [inflow, Work.touch?, had, has]
        exact released

/-- The receiver task changes the active filters only at teardown. -/
private theorem counts_of_reader (c : Conversation) : Counts ⟨c, .step .reader⟩ := by
  have queries : ∀ n, (c.move (.step .reader)).query? n = c.query? n := by
    obtain ⟨flow, advances⟩ := reader_advances c
    exact query?_advances advances
  obtain ⟨flow, step⟩ := Inflow.advance_spec c.faults c.inflow
  rw [← (move_reader c).1] at step
  by_cases closing : c.inflow.reader = .closing
  · refine .closes queries rfl rfl ?_
    change (c.move (.step .reader)).inflow.registry.closed = true
    rw [(move_reader c).1, Inflow.advance, if_pos closing]
    rfl
  · exact .idle queries rfl rfl (step.active closing)

/-- Every move has one of these effects. -/
theorem counts (c : Conversation) (attended : c.Attended) (sound : c.inflow.registry.WellFormed)
    (move : Move) : Counts ⟨c, move⟩ := by
  cases move with
  | outside action =>
    cases action with
    | drop n => exact counts_of_turn attended sound (.inr (.inr rfl))
    | addFilter via matcher => exact counts_addFilter c via matcher
    | removeFilter via id => exact counts_removeFilter sound via id
    | push | hangUp | dropPeer | receive | receiveFrom | dropReceiver | dropOwn =>
      refine counts_of_apart nofun rfl rfl fun t touch => ?_
      obtain rfl := Option.some.inj touch
      rfl
    | takeWrite | takeWrites | stall | setJid | finish | handle | cloneHandle | dropHandle | send
    | query | join | abort | close | advance =>
      exact counts_of_apart nofun rfl rfl fun t touch => nomatch touch
  | step agent =>
    cases agent with
    | reader => exact counts_of_reader c
    | writer =>
      have still : ∀ n, (c.move (.step .writer)).query? n = c.query? n ∧
          (c.move (.step .writer)).inflow = c.inflow := by
        rw [Conversation.move, Conversation.step?, writerStep?]
        cases c.outflow.step? c.faults c.trace c.producing <;> exact fun n => ⟨rfl, rfl⟩
      exact .idle (fun n => (still n).1) rfl rfl
        (congrArg (fun i : Inflow => i.registry.active) (still 0).2)
    | call n => exact counts_of_turn attended sound (.inl rfl)
    | timer n => exact counts_of_turn attended sound (.inr (.inl rfl))

/-- A query that begins has registered a fresh filter with the matcher of its id. -/
theorem Counts.begun {n : Nat} {query : Query} (counts : m.Counts)
    (unasked : m.before.query? n = none) (asks : m.after.query? n = some query) :
    query.filter = m.before.inflow.registry.nextId ∧
      m.after.inflow.registry = m.before.inflow.registry.add (.replyTo query.iq.id) := by
  cases counts with
  | idle queries | grants matcher queries | revokes id queries | closes queries =>
    cases unasked.symm.trans ((queries n).symm.trans asks)
  | begins n' query' unasked' asks' queries granted revoked filter registry =>
    by_cases mine : n = n'
    · subst mine
      obtain rfl := Option.some.inj (asks'.symm.trans asks)
      exact ⟨filter, registry⟩
    · cases unasked.symm.trans ((queries n mine).symm.trans asks)
  | ends n' query' asks' ended' queries =>
    by_cases mine : n = n'
    · subst mine
      cases unasked.symm.trans asks'
    · cases unasked.symm.trans ((queries n mine).symm.trans asks)

/-- A query that ends has removed its filter and no other. -/
theorem Counts.ended {n : Nat} {query : Query} (counts : m.Counts)
    (asks : m.before.query? n = some query) (ended : m.after.query? n = none) :
    m.after.inflow.registry.active = m.before.inflow.registry.active.erase query.filter := by
  cases counts with
  | idle queries | grants matcher queries | revokes id queries | closes queries =>
    cases ended.symm.trans ((queries n).trans asks)
  | begins n' query' unasked' asks' queries =>
    by_cases mine : n = n'
    · subst mine
      cases unasked'.symm.trans asks
    · cases ended.symm.trans ((queries n mine).trans asks)
  | ends n' query' asks' ended' queries granted revoked active =>
    by_cases mine : n = n'
    · subst mine
      obtain rfl := Option.some.inj (asks'.symm.trans asks)
      exact active
    · cases ended.symm.trans ((queries n mine).trans asks)

end Moment

namespace History

/-- The filters handed out to the application. -/
def granted (h : History) : List FilterId := h.filterMap Moment.handedOut

/-- The filters the application has removed. -/
def revoked (h : History) : List FilterId := h.filterMap Moment.revoked

/-- The filters handed out to the application and not removed by it. -/
def kept (h : History) : List FilterId := h.granted.filter (· ∉ h.revoked)

variable {past : History} {m : Moment}

theorem granted_concat : granted (past ++ [m]) = past.granted ++ m.handedOut.toList :=
  filterMap_concat

theorem revoked_concat : revoked (past ++ [m]) = past.revoked ++ m.revoked.toList :=
  filterMap_concat

end History

namespace Conversation

variable {c after : Conversation} {id : FilterId}

/-- The correlation filters of the running queries, by call number. -/
def queryFilters (c : Conversation) : List FilterId :=
  c.callNumbers.filterMap fun n => (c.query? n).map Query.filter

/-- `queryFilters` lists the correlation filters of running queries. -/
theorem mem_queryFilters : id ∈ c.queryFilters ↔ c.isQueryFilter id = true := by
  rw [isQueryFilter_iff, queryFilters, List.mem_filterMap]
  constructor
  · rintro ⟨n, -, filter⟩
    obtain ⟨query, has, rfl⟩ := Option.map_eq_some_iff.mp filter
    exact ⟨n, query, has, rfl⟩
  · rintro ⟨n, query, has, rfl⟩
    refine ⟨n, List.mem_range.mpr ?_, by rw [has]; rfl⟩
    by_contra beyond
    rw [query?, stands?, List.getElem?_eq_none (Nat.le_of_not_lt beyond)] at has
    cases has

theorem Attended.nodup_queryFilters (attended : c.Attended) : c.queryFilters.Nodup := by
  refine List.Nodup.filterMap (fun n n' id mine other => ?_) List.nodup_range
  obtain ⟨query, has, rfl⟩ := Option.map_eq_some_iff.mp mine
  obtain ⟨query', has', same⟩ := Option.map_eq_some_iff.mp other
  exact attended.distinct n n' query query' has has' same.symm

theorem isQueryFilter_congr (queries : ∀ n, after.query? n = c.query? n) (id : FilterId) :
    after.isQueryFilter id = c.isQueryFilter id := by
  rw [Bool.eq_iff_iff, isQueryFilter_iff, isQueryFilter_iff]
  simp only [queries]

/-- The correlation filters after the beginning of a query. -/
theorem isQueryFilter_begins {n : Nat} {query : Query} (unasked : c.query? n = none)
    (asks : after.query? n = some query)
    (others : ∀ n', n' ≠ n → after.query? n' = c.query? n') :
    after.isQueryFilter id = true ↔ id = query.filter ∨ c.isQueryFilter id = true := by
  rw [isQueryFilter_iff, isQueryFilter_iff]
  constructor
  · rintro ⟨n', query', has, rfl⟩
    by_cases mine : n' = n
    · subst mine
      rw [asks] at has
      exact .inl (congrArg Query.filter (Option.some.inj has).symm)
    · exact .inr ⟨n', query', (others n' mine).symm.trans has, rfl⟩
  · rintro (rfl | ⟨n', query', has, rfl⟩)
    · exact ⟨n, query, asks, rfl⟩
    · have other : n' ≠ n := by
        rintro rfl
        cases unasked.symm.trans has
      exact ⟨n', query', (others n' other).trans has, rfl⟩

/-- The correlation filters after the end of a query. -/
theorem Attended.isQueryFilter_ends (attended : c.Attended) {n : Nat} {query : Query}
    (asks : c.query? n = some query) (ended : after.query? n = none)
    (others : ∀ n', n' ≠ n → after.query? n' = c.query? n') :
    after.isQueryFilter id = true ↔ id ≠ query.filter ∧ c.isQueryFilter id = true := by
  rw [isQueryFilter_iff, isQueryFilter_iff]
  constructor
  · rintro ⟨n', query', has, rfl⟩
    have other : n' ≠ n := by
      rintro rfl
      cases ended.symm.trans has
    have had := (others n' other).symm.trans has
    exact ⟨fun same => other (attended.distinct n' n query' query had asks same),
      n', query', had, rfl⟩
  · rintro ⟨apart, n', query', has, rfl⟩
    have other : n' ≠ n := by
      rintro rfl
      rw [asks] at has
      exact apart (congrArg Query.filter (Option.some.inj has).symm)
    exact ⟨n', query', (others n' other).trans has, rfl⟩

theorem open_of_move {move : Move} (opened : (c.move move).inflow.registry.closed = false) :
    c.inflow.registry.closed = false := by
  refine Moment.inflow_of_after (P := fun after => after.registry.closed = false →
    c.inflow.registry.closed = false) ⟨c, move⟩ (fun touch opened => ?_)
    (fun step opened => Bool.eq_false_iff.mpr fun closed => ?_) opened
  · rwa [Inflow.closed_touch] at opened
  · exact Bool.false_ne_true (opened.symm.trans (step.closed_mono closed))

end Conversation

namespace Course

variable {k : Course} {id : FilterId}

theorem counts (k : Course) (move : Move) : Moment.Counts ⟨k.now, move⟩ :=
  Moment.counts k.now k.attended k.wellFormed move

theorem lt_of_granted (given : id ∈ k.past.granted) : id < k.now.inflow.registry.nextId := by
  obtain ⟨m, member, out⟩ := List.mem_filterMap.mp given
  exact k.numbered.below m member id out

/-- No correlation filter is handed out. -/
theorem isQueryFilter_of_granted (given : id ∈ k.past.granted) :
    k.now.isQueryFilter id = false := by
  obtain ⟨m, member, out⟩ := List.mem_filterMap.mp given
  exact k.numbered.now m member id out

/-- No id is handed out twice. -/
theorem nodup_granted (k : Course) : k.past.granted.Nodup := by
  refine k.induction (P := fun past _ => past.granted.Nodup) List.nodup_nil ?_
  intro moves move j distinct
  rw [History.granted_concat]
  cases out : Moment.handedOut ⟨j.now, move⟩ with
  | none => simpa using distinct
  | some id =>
    obtain ⟨next, -⟩ := j.handedOut_eq move out
    refine List.nodup_append.mpr ⟨distinct, List.nodup_singleton id, ?_⟩
    rintro other given last new rfl
    obtain rfl : other = id := List.mem_singleton.mp new
    exact Nat.ne_of_lt (lt_of_granted given) next

/-- The application removes active filters only, and no query begins or ends in that step. -/
theorem of_revoked {move : Move} (out : Moment.revoked ⟨k.now, move⟩ = some id) :
    id ∈ k.now.inflow.registry.active ∧ ∀ n, (k.now.move move).query? n = k.now.query? n := by
  cases k.counts move with
  | revokes other queries granted revoked known active =>
    obtain rfl := Option.some.inj (revoked.symm.trans out)
    exact ⟨known, queries⟩
  | idle queries granted revoked | grants matcher queries granted revoked
  | begins n query unasked asks queries granted revoked
  | ends n query asks ended queries granted revoked
  | closes queries granted revoked => cases revoked.symm.trans out

theorem lt_of_revoked (removed : id ∈ k.past.revoked) : id < k.now.inflow.registry.nextId := by
  refine k.induction (P := fun past now => ∀ id ∈ past.revoked, id < now.inflow.registry.nextId)
    (fun _ absent => absurd absent List.not_mem_nil) ?_ id removed
  intro moves move j known id removed
  have ages : j.now.inflow.registry.Ages (j.now.move move).inflow.registry := ages_move move
  rw [History.revoked_concat, List.mem_append, Option.mem_toList] at removed
  rcases removed with earlier | last
  · exact ages.lt_nextId (known id earlier)
  · exact ages.lt_nextId (j.wellFormed.lt_nextId (of_revoked last).1)

/-- Under `Spares` no correlation filter was removed by the application. -/
theorem isQueryFilter_of_revoked (spares : k.past.Spares) (removed : id ∈ k.past.revoked) :
    k.now.isQueryFilter id = false := by
  refine k.induction (P := fun past now => past.Spares → ∀ id ∈ past.revoked,
    now.isQueryFilter id = false) (fun _ _ absent => absurd absent List.not_mem_nil) ?_ spares id
    removed
  intro moves move j kept spares id removed
  have before : j.past.Spares := fun m member => spares m (List.mem_append_left _ member)
  rw [History.revoked_concat, List.mem_append, Option.mem_toList] at removed
  rcases removed with earlier | last
  · refine Bool.eq_false_iff.mpr fun mine => ?_
    rcases j.isQueryFilter_move move mine with already | new
    · exact Bool.false_ne_true ((kept before id earlier).symm.trans already)
    · exact Nat.ne_of_lt (lt_of_revoked earlier) new
  · rw [isQueryFilter_congr (of_revoked last).2]
    have spared : Moment.spares ⟨j.now, move⟩ = true := spares _ (by simp)
    cases move with
    | outside action =>
      cases action with
      | removeFilter via other =>
        unfold Moment.revoked at last
        dsimp only at last
        split at last
        · cases last
          simpa [Moment.spares] using spared
        · cases last
      | _ => cases last
    | step agent => cases last

theorem nodup_active (k : Course) : k.now.inflow.registry.active.Nodup :=
  k.wellFormed.nodup_active

end Course

/-- The invariant: a filter is active exactly if it was handed out or belongs to a running query,
and the application has not removed it. -/
def Conversation.Accounted (past : History) (now : Conversation) : Prop :=
  ∀ id, id ∈ now.inflow.registry.active ↔
    (id ∈ past.granted ∨ now.isQueryFilter id = true) ∧ id ∉ past.revoked

/-- `Accounted` is preserved by every move that leaves the registry open. The cases follow `Counts`.
-/
theorem Moment.Counts.accounted {m : Moment} {past : History} (counts : m.Counts)
    (account : m.before.Accounted past) (attended : m.before.Attended)
    (distinct : m.before.inflow.registry.active.Nodup)
    (unrevoked : m.before.inflow.registry.nextId ∉ past.revoked)
    (ungranted : ∀ id ∈ past.granted, m.before.isQueryFilter id = false)
    (before : m.before.inflow.registry.closed = false)
    (opened : m.after.inflow.registry.closed = false) : m.after.Accounted (past ++ [m]) := by
  intro id
  rw [History.granted_concat, History.revoked_concat, List.mem_append, List.mem_append]
  cases counts with
  | idle queries granted revoked active =>
    rw [granted, revoked, active, isQueryFilter_congr queries, account]
    simp
  | grants matcher queries granted revoked registry =>
    rw [granted, revoked, registry, Registry.active_add _ before, isQueryFilter_congr queries,
      List.mem_cons, account]
    by_cases new : id = m.before.inflow.registry.nextId
    · simp [new, unrevoked]
    · simp [new]
  | revokes other queries granted revoked known active =>
    rw [granted, revoked, active, isQueryFilter_congr queries, distinct.mem_erase_iff, account]
    simp only [Option.toList_none, Option.toList_some, List.not_mem_nil, List.mem_singleton]
    tauto
  | begins n query unasked asks queries granted revoked filter registry =>
    rw [granted, revoked, registry, Registry.active_add _ before,
      isQueryFilter_begins unasked asks queries, filter, List.mem_cons, account]
    by_cases new : id = m.before.inflow.registry.nextId
    · simp [new, unrevoked]
    · simp [new]
  | ends n query asks ended queries granted revoked active =>
    have apart : query.filter ∉ past.granted := fun given => Bool.false_ne_true
      ((ungranted _ given).symm.trans (isQueryFilter_iff.mpr ⟨n, query, asks, rfl⟩))
    rw [granted, revoked, active, attended.isQueryFilter_ends asks ended queries,
      distinct.mem_erase_iff, account]
    by_cases mine : id = query.filter
    · simp [mine, apart]
    · simp [mine]
  | closes queries granted revoked closed =>
    exact absurd (opened.symm.trans closed) Bool.false_ne_true

namespace Course

variable {k : Course}

theorem accounted (k : Course) (opened : k.now.inflow.registry.closed = false) :
    k.now.Accounted k.past := by
  refine k.induction (P := fun past now => now.inflow.registry.closed = false →
    now.Accounted past) ?_ ?_ opened
  · intro _ id
    refine iff_of_false List.not_mem_nil ?_
    rintro ⟨absent | mine, -⟩
    · cases absent
    · cases mine
  · intro moves move j account opened
    have before := open_of_move opened
    exact (j.counts move).accounted (account before) j.attended j.nodup_active
      (fun removed => Nat.lt_irrefl _ (lt_of_revoked removed))
      (fun _ given => isQueryFilter_of_granted given) before opened

/-- The active filters before teardown, as a permutation. -/
theorem active_perm (k : Course) (opened : k.now.inflow.registry.closed = false) :
    k.now.inflow.registry.active.Perm
      ((k.past.granted ++ k.now.queryFilters).filter (· ∉ k.past.revoked)) := by
  have apart : ∀ given ∈ k.past.granted, ∀ asked ∈ k.now.queryFilters, given ≠ asked := by
    rintro given known asked runs rfl
    have foreign := isQueryFilter_of_granted known
    exact Bool.false_ne_true (foreign.symm.trans (mem_queryFilters.mp runs))
  have distinct : (k.past.granted ++ k.now.queryFilters).Nodup :=
    List.nodup_append.mpr ⟨k.nodup_granted, k.attended.nodup_queryFilters, apart⟩
  refine (List.perm_ext_iff_of_nodup k.nodup_active (distinct.filter _)).mpr fun id => ?_
  rw [k.accounted opened, List.mem_filter, List.mem_append, mem_queryFilters, decide_eq_true_iff]

theorem unrevoked_eq (spares : k.past.Spares) :
    (k.past.granted ++ k.now.queryFilters).filter (· ∉ k.past.revoked) =
      k.past.kept ++ k.now.queryFilters := by
  rw [List.filter_append, History.kept]
  congr 1
  refine List.filter_eq_self.mpr fun id mine => decide_eq_true fun removed => ?_
  exact Bool.false_ne_true
    ((isQueryFilter_of_revoked spares removed).symm.trans (mem_queryFilters.mp mine))

/-- The same if no correlation filter is removed by a guessed id. -/
theorem active_perm_kept (k : Course) (opened : k.now.inflow.registry.closed = false)
    (spares : k.past.Spares) :
    k.now.inflow.registry.active.Perm (k.past.kept ++ k.now.queryFilters) := by
  rw [← unrevoked_eq spares]
  exact k.active_perm opened

/-- The same for an application that removes only ids it was given. -/
theorem active_perm_of_entitled (k : Course) (opened : k.now.inflow.registry.closed = false)
    (entitled : k.past.Entitled) :
    k.now.inflow.registry.active.Perm (k.past.kept ++ k.now.queryFilters) :=
  k.active_perm_kept opened (k.spares_of_entitled entitled)

/-- A query still runs, or its filter belongs to no query any more. -/
theorem runs_or_free {n : Nat} {query : Query} (has : k.now.query? n = some query)
    (more : List Move) : query.filter < (k.andThen more).now.inflow.registry.nextId ∧
      ((k.andThen more).now.query? n = some query ∨
        (k.andThen more).now.isQueryFilter query.filter = false) := by
  induction more using List.reverseRecOn with
  | nil =>
    rw [now_andThen]
    exact ⟨k.attended.known n query has, .inl has⟩
  | append_singleton moves move ih =>
    obtain ⟨known, state⟩ := ih
    rw [andThen_concat, now_move]
    generalize k.andThen moves = j at known state
    have ages : j.now.inflow.registry.Ages (j.now.move move).inflow.registry := ages_move move
    refine ⟨ages.lt_nextId known, ?_⟩
    rcases state with runs | free
    · cases j.counts move with
      | idle queries | grants matcher queries | revokes id queries | closes queries =>
        exact .inl ((queries n).trans runs)
      | begins n' query' unasked asks queries =>
        have other : n ≠ n' := by
          rintro rfl
          cases runs.symm.trans unasked
        exact .inl ((queries n other).trans runs)
      | ends n' query' asks ended queries =>
        by_cases mine : n = n'
        · subst mine
          obtain rfl := Option.some.inj (asks.symm.trans runs)
          refine .inr (Bool.eq_false_iff.mpr fun again => ?_)
          exact ((j.attended.isQueryFilter_ends asks ended queries).mp again).1 rfl
        · exact .inl ((queries n mine).trans runs)
    · refine .inr (Bool.eq_false_iff.mpr fun again => ?_)
      rcases j.isQueryFilter_move move again with before | next
      · exact Bool.false_ne_true (free.symm.trans before)
      · exact Nat.ne_of_lt known next

theorem inactive_of_ended {n : Nat} {query : Query} (has : k.now.query? n = some query)
    {more : List Move} (ended : (k.andThen more).now.query? n = none) :
    query.filter ∉ (k.andThen more).now.inflow.registry.active := by
  intro active
  obtain ⟨-, runs | free⟩ := runs_or_free has more
  · cases ended.symm.trans runs
  have opened : (k.andThen more).now.inflow.registry.closed = false := by
    refine Bool.eq_false_iff.mpr fun closed => ?_
    rw [(k.andThen more).wellFormed.closed closed] at active
    cases active
  rcases ((k.andThen more).accounted opened _).mp active |>.1 with given | mine
  · cases more with
    | nil =>
      rw [now_andThen] at ended
      cases ended.symm.trans has
    | cons move rest =>
      -- ids handed out and ids of queries are disjoint, already at that step
      obtain ⟨m, member, out⟩ := List.mem_filterMap.mp given
      have never := (k.andThen (move :: rest)).numbered.before m member _ out ⟨k.now, move⟩
        (by simp [past_andThen, moments])
      exact Bool.false_ne_true (never.symm.trans (isQueryFilter_iff.mpr ⟨n, query, has, rfl⟩))
  · exact Bool.false_ne_true (free.symm.trans mine)

theorem active_of_closed (closed : k.now.inflow.registry.closed = true) (more : List Move) :
    (k.andThen more).now.inflow.registry.active = [] := by
  refine (k.andThen more).wellFormed.closed ?_
  rw [now_andThen]
  refine run_keeps (P := fun c => c.inflow.registry.closed = true) (fun c move closed => ?_) closed
    more
  by_contra opened
  exact Bool.false_ne_true ((open_of_move (Bool.eq_false_iff.mpr opened)).symm.trans closed)

/-- No correlation filter leaks. Before teardown the active filters, without duplicates, are those
handed out and those of running queries, from registration to the end of the call, except those the
application has removed. An id of a correlation filter is never handed out, so removing one by id
takes a guess or an id of another conversation; if nobody does this, all correlation filters of
running queries are active. Registration adds that filter alone, and the end of the query, on
whatever path, removes that filter alone, for ever. After teardown no filter is active, and none
will be. -/
theorem no_filter_leaks (k : Course) :
    (k.now.inflow.reader ≠ .closed → k.now.inflow.registry.active.Nodup ∧
      k.now.inflow.registry.active.Perm
        ((k.past.granted ++ k.now.queryFilters).filter (· ∉ k.past.revoked)) ∧
      (k.past.Spares →
        k.now.inflow.registry.active.Perm (k.past.kept ++ k.now.queryFilters))) ∧
    (∀ move n query, k.now.inflow.reader ≠ .closed → k.now.query? n = none →
      (k.now.move move).query? n = some query → (k.now.move move).inflow.registry.active =
        query.filter :: k.now.inflow.registry.active) ∧
    (∀ move n query, k.now.query? n = some query → (k.now.move move).query? n = none →
      (k.now.move move).inflow.registry.active =
        k.now.inflow.registry.active.erase query.filter) ∧
    (∀ n query more, k.now.query? n = some query → (k.andThen more).now.query? n = none →
      query.filter ∉ (k.andThen more).now.inflow.registry.active) ∧
    (k.now.inflow.reader = .closed → ∀ more,
      (k.andThen more).now.inflow.registry.active = []) := by
  have opened : k.now.inflow.reader ≠ .closed → k.now.inflow.registry.closed = false :=
    fun goesOn => Bool.eq_false_iff.mpr fun closed => goesOn (k.closed_iff.mp closed)
  refine ⟨fun goesOn => ⟨k.nodup_active, k.active_perm (opened goesOn),
      k.active_perm_kept (opened goesOn)⟩,
    fun move n query goesOn unasked asks => ?_, fun move n query asks ended => ?_,
    fun n query more has ended => inactive_of_ended has ended,
    fun ended => active_of_closed (k.closed_iff.mpr ended)⟩
  · obtain ⟨filter, registry⟩ := (k.counts move).begun unasked asks
    rw [filter, ← Registry.active_add _ (opened goesOn)]
    exact congrArg Registry.active registry
  · exact (k.counts move).ended asks ended

/-- The application is given two filters and removes the first; two queries run, one with a time
limit. -/
def attending : Course where
  jid := ⟨none, "example", none⟩
  settings := {}
  moves :=
    [.outside (.addFilter .own (.named "message")), .outside (.addFilter .own (.named "presence")),
      .outside (.query .own (.get "first" (.named "ping")) none),
      .outside (.query .own (.get "second" (.named "ping")) (some 5)), .step (.call 0),
      .step (.call 1), .outside (.removeFilter .own 0)]

/-- The time limit of the second query expires. -/
def unanswered : List Move :=
  [.step (.call 1), .outside (.advance 5), .step (.timer 1)]

/-- The receiver task ends. -/
def torn : Course := attending.andThen
  (.outside .hangUp :: List.replicate 4 (.step .reader) ++ [.step (.call 0), .step (.call 0)])

theorem no_filter_leaks_attending :
    let query : Query := ⟨.get "first" (.named "ping"), 2, none⟩
    let limited : Query := ⟨.get "second" (.named "ping"), 3, some 5⟩
    attending.past.Spares ∧ attending.past.kept = [1] ∧ attending.now.queryFilters = [2, 3] ∧
      attending.now.inflow.registry.active.Perm [1, 2, 3] ∧
      attending.now.query? 0 = some query ∧
      (attending.now.move (.outside (.drop 0))).inflow.registry.active = [3, 1] ∧
      attending.now.query? 1 = some limited ∧
      3 ∉ (attending.andThen unanswered).now.inflow.registry.active ∧
      torn.now.inflow.reader = .closed ∧ torn.now.inflow.registry.active = [] := by
  intro query limited
  have spares : attending.past.Spares := by decide +kernel
  have kept : attending.past.kept = [1] := by decide +kernel
  have queries : attending.now.queryFilters = [2, 3] := by decide +kernel
  have first : attending.now.query? 0 = some query := by decide +kernel
  have second : attending.now.query? 1 = some limited := by decide +kernel
  obtain ⟨account, -, ends, gone, -⟩ := attending.no_filter_leaks
  obtain ⟨-, -, active⟩ := account (by decide +kernel)
  have dropped := ends (.outside (.drop 0)) 0 query first (by decide +kernel)
  obtain ⟨-, -, -, -, inactive⟩ := torn.no_filter_leaks
  have closed : torn.now.inflow.reader = .closed := by decide +kernel
  have empty := inactive closed []
  rw [now_andThen] at empty
  refine ⟨spares, kept, queries, ?_, first, ?_, second,
    gone 1 limited unanswered second (by decide +kernel), closed, empty⟩
  · rw [kept, queries] at active
    exact active spares
  · rw [dropped]
    decide +kernel

end Course

end StanzaExchange
