import StanzaExchange.Proofs.Run

/-!
Inversion of the moves of an execution, on the inbound side. Every move other than a poll of the
receiver task performs one `Touch` on the inbound half, and leaves the calls as they are, adds one,
or is a turn of one (`Unfolds`); the observations of the step are those of the touch (`Told`).
Together with `Advances` for the receiver task, `told_or_advances` is the case split on which the
invariants rest.
-/
namespace StanzaExchange

open Inflow (Flow Touch handsTo)

namespace Conversation

/-- Whether the application holds an outbound sender, by the conversation or by a handle. -/
def opens (c : Conversation) : Bool := c.ownSender || c.handles.any id

variable {c after : Conversation} {n : Nat} {id : FilterId}

theorem stands?_modify {call : Call} {work : Work} (here : c.calls[n]? = some call)
    (calls : after.calls = c.calls.modify n fun call => { call with work }) (k : Nat) :
    after.stands? k = if k = n then some (call.sender, work) else c.stands? k := by
  unfold stands?
  rw [calls, List.getElem?_modify]
  by_cases same : k = n
  · simp [same, here]
  · simp [same, Ne.symm same]

theorem stands?_length : c.stands? c.calls.length = none := by
  rw [stands?, List.getElem?_eq_none (Nat.le_refl _), Option.map_none]

/-- A correlation filter is that of some running query. -/
theorem isQueryFilter_iff :
    c.isQueryFilter id = true ↔ ∃ n query, c.query? n = some query ∧ query.filter = id := by
  unfold isQueryFilter query? stands?
  rw [List.any_eq_true]
  constructor
  · rintro ⟨call, member, filter⟩
    obtain ⟨n, here⟩ := List.mem_iff_getElem?.mp member
    obtain ⟨query, has, same⟩ := (Option.any_eq_true _ _).mp filter
    exact ⟨n, query, by simp [here, has], by simpa using same⟩
  · rintro ⟨n, query, has, rfl⟩
    obtain ⟨standing, stands, has⟩ := Option.bind_eq_some_iff.mp has
    obtain ⟨call, here, rfl⟩ := Option.map_eq_some_iff.mp stands
    exact ⟨call, List.mem_of_getElem? here, by simp [has]⟩

/-- Whether an operation leaves alone the correlation filters of running queries. -/
def Apart (c : Conversation) : Touch → Prop
  | .takeFrom id | .drop id => c.isQueryFilter id = false
  | .leave _ _ => False
  | _ => True

/-- A reachable access path with an outbound sender keeps the outbound channel open. -/
theorem opens_of_canSend {via : Via} (reached : c.unreachable? via = none)
    (sends : c.canSend via = true) : c.opens = true := by
  cases via with
  | own => exact Bool.or_eq_true_iff.mpr (.inl sends)
  | handle number =>
    refine Bool.or_eq_true_iff.mpr (.inr (List.any_eq_true.mpr ⟨true, ?_, rfl⟩))
    have mine : c.handles[number]?.getD false = true := by
      by_contra gone
      simp [unreachable?, hasHandle, gone] at reached
    cases there : c.handles[number]? with
    | none => simp [there] at mine
    | some held =>
      obtain rfl : held = true := by simpa [there] using mine
      exact List.mem_of_getElem? there

/-- A guarded action takes effect or leaves the state unchanged. -/
theorem reaching_or (c : Conversation) (via : Via) (result : Answer × Conversation) :
    (c.unreachable? via = none ∧ c.reaching via result = result) ∨
      ∃ missing, c.reaching via result = (.gone missing, c) := by
  unfold reaching
  split
  · exact .inr ⟨_, rfl⟩
  next reached => exact .inl ⟨reached, rfl⟩

theorem ofPeer_or (c : Conversation) (result : Answer × Conversation) :
    c.ofPeer result = result ∨ ∃ missing, c.ofPeer result = (.gone missing, c) := by
  unfold ofPeer
  split
  · exact .inl rfl
  · exact .inr ⟨_, rfl⟩

theorem ofReceiver_or (c : Conversation) (id : FilterId) (result : Answer × Conversation) :
    (c.ofReceiver id result = result ∧ c.isQueryFilter id = false) ∨
      ∃ missing, c.ofReceiver id result = (.gone missing, c) := by
  unfold ofReceiver
  split
  next mine =>
    have apart : c.isQueryFilter id = false := by simpa using (Bool.and_eq_true_iff.mp mine).2
    exact .inl ⟨rfl, apart⟩
  · exact .inr ⟨_, rfl⟩

theorem reaching_keeps {P : Conversation → Prop} {via : Via} {result : Answer × Conversation}
    (here : P c) (done : c.unreachable? via = none → P result.2) :
    P (c.reaching via result).2 := by
  rcases reaching_or c via result with ⟨reached, same⟩ | ⟨missing, gone⟩
  · rw [same]
    exact done reached
  · rwa [gone]

theorem ofPeer_keeps {P : Conversation → Prop} {result : Answer × Conversation} (here : P c)
    (done : P result.2) : P (c.ofPeer result).2 := by
  rcases ofPeer_or c result with same | ⟨missing, gone⟩
  · rwa [same]
  · rwa [gone]

theorem ofReceiver_keeps {P : Conversation → Prop} {result : Answer × Conversation} (here : P c)
    (done : P result.2) : P (c.ofReceiver id result).2 := by
  rcases ofReceiver_or c id result with ⟨same, -⟩ | ⟨missing, gone⟩
  · rwa [same]
  · rwa [gone]

/-- The result of a receive on the inbound channel. -/
theorem answer_receive (c : Conversation) : (c.act .receive).1 =
    if c.held then
      match c.inflow.inbound.queue with
      | stanza :: _ => .stanza stanza
      | [] => if c.inflow.reader = .closed then .nothing else .pending
    else .gone .conversation := by
  cases held : c.held with
  | false => simp [act, reaching, unreachable?, held]
  | true =>
    cases queue : c.inflow.inbound.queue with
    | cons stanza rest =>
      simp [act, reaching, unreachable?, held, receive, Channel.read, Channel.take?, queue,
        Finding.map, found]
    | nil =>
      by_cases closed : c.inflow.reader = .closed <;>
        simp [act, reaching, unreachable?, held, receive, Channel.read, Channel.take?, queue,
          closed, Finding.map, found]

/-- The effect of a move on the calls. -/
inductive Unfolds (c after : Conversation) : Touch → Prop
  | keeps {touch : Touch} (same : ∀ n, after.stands? n = c.stands? n) (apart : c.Apart touch) :
      Unfolds c after touch
  | begins (sender : Bool) (work : Work) (fresh : work.isFresh = true)
      (leaves : work.isJoin = false ∨ after.held = false) (opens : sender = true → c.opens = true)
      (new : ∀ n, after.stands? n =
        if n = c.calls.length then some (sender, work) else c.stands? n) :
      Unfolds c after .nothing
  | turns {n : Nat} {call : Call} {givenUp : Bool} {touch : Touch} {put : List Stanza} {work : Work}
      (here : c.calls[n]? = some call) (turned : Turned c n call givenUp touch put work after) :
      Unfolds c after touch

/-- Backward inversion for the state of a call. -/
theorem Unfolds.stood {touch : Touch} {sender : Bool} {work : Work}
    (unfolds : c.Unfolds after touch) (stands : after.stands? n = some (sender, work)) :
    c.stands? n = some (sender, work) ∨
      (work.isFresh = true ∧ (work.isJoin = false ∨ after.held = false) ∧
        (sender = true → c.opens = true)) ∨
      ∃ call givenUp put, c.calls[n]? = some call ∧ call.sender = sender ∧
        Turned c n call givenUp touch put work after := by
  cases unfolds with
  | keeps same apart => exact .inl ((same n).symm.trans stands)
  | begins caller begun fresh leaves opens new =>
    rw [new] at stands
    split at stands
    · cases stands
      exact .inr (.inl ⟨fresh, leaves, opens⟩)
    · exact .inl stands
  | @turns other call givenUp touch put later here turned =>
    rw [stands?_modify here turned.calls] at stands
    split at stands
    next mine =>
      cases stands
      subst mine
      exact .inr (.inr ⟨call, givenUp, put, here, rfl, turned⟩)
    · exact .inl stands

end Conversation

open Conversation

/-- The operation that a step performs, with the observations of the step. -/
structure Moment.Told (m : Moment) (touch : Touch) : Prop where
  inflow : m.after.inflow = m.before.inflow.touch touch
  calls : m.before.Unfolds m.after touch
  fed : m.fed = touch.fed
  feeding : touch.fed ≠ [] → m.before.inflow.feed.feeding = true
  received : m.received = touch.received m.before.inflow
  returned : ∀ id, m.returned id = touch.returned m.before.inflow id
  removes : touch.isRemoval = false ∨
    ∃ via id, touch = .remove id ∧ m.move = .outside (.removeFilter via id)

/-- Neither a push of the peer nor a receive. -/
def Action.isQuiet : Action → Bool
  | .push _ | .receive | .receiveFrom _ => false
  | _ => true

namespace Moment

variable {m : Moment} {c after : Conversation} {action : Action} {answer : Answer} {touch : Touch}

private theorem unfolds_of_calls (calls : after.calls = c.calls) (apart : c.Apart touch) :
    c.Unfolds after touch :=
  .keeps (fun n => by simp [stands?, calls]) apart

private theorem nothing_seen (quiet : action.isQuiet = true) :
    fed ⟨c, .outside action⟩ = [] ∧ received ⟨c, .outside action⟩ = [] ∧
      ∀ id, returned ⟨c, .outside action⟩ id = [] := by
  cases action <;> first | exact ⟨rfl, rfl, fun _ => rfl⟩ | cases quiet

/-- An action that neither feeds nor receives is described by the update it makes. -/
private theorem told_quiet (quiet : action.isQuiet = true) (silent : touch.isSilent = true)
    (acted : c.act action = (answer, after)) (inflow : after.inflow = c.inflow.touch touch)
    (calls : c.Unfolds after touch)
    (removes : touch.isRemoval = false ∨
      ∃ via id, touch = .remove id ∧ action = .removeFilter via id) :
    Told ⟨c, .outside action⟩ touch := by
  have reached : Moment.after ⟨c, .outside action⟩ = after := congrArg Prod.snd acted
  obtain ⟨fed, received, returned⟩ := nothing_seen (c := c) quiet
  obtain ⟨feeds, takes, takesFrom⟩ := touch.silent c.inflow silent
  refine ⟨by rw [reached]; exact inflow, by rw [reached]; exact calls, fed.trans feeds.symm,
    fun feeding => absurd feeds feeding, received.trans takes.symm,
    fun id => (returned id).trans (takesFrom id).symm, removes.imp_right ?_⟩
  rintro ⟨via, id, removal, rfl⟩
  exact ⟨via, id, removal, rfl⟩

private theorem told_kept (quiet : action.isQuiet = true) (silent : touch.isSilent = true)
    (acted : c.act action = (answer, after)) (inflow : after.inflow = c.inflow.touch touch)
    (calls : after.calls = c.calls) (apart : c.Apart touch) (removes : touch.isRemoval = false) :
    Told ⟨c, .outside action⟩ touch :=
  told_quiet quiet silent acted inflow (unfolds_of_calls calls apart) (.inl removes)

/-- An action without effect is described by the empty update. -/
private theorem told_void (acted : c.act action = (answer, c))
    (unfed : decide (answer = .flag true) = false) (unread : answer.stanza? = none) :
    Told ⟨c, .outside action⟩ .nothing := by
  have reached : Moment.after ⟨c, .outside action⟩ = c := congrArg Prod.snd acted
  have refused : answer ≠ .flag true := of_decide_eq_false unfed
  refine ⟨by rw [reached]; rfl, ?_, ?_, fun fed => absurd rfl fed, ?_, fun id => ?_, .inl rfl⟩
  · rw [reached]
    exact .keeps (fun _ => rfl) trivial
  · cases action <;> first | rfl | simp [fed, acted, refused, Touch.fed]
  · cases action <;> first | rfl | simp [received, acted, unread, Touch.received]
  · cases action <;> first | rfl | skip
    next other =>
      by_cases same : id = other
      · subst same
        simp [returned, acted, unread, Touch.returned]
      · simp [returned, same, Touch.returned]

private theorem told_gone {missing : Missing} (gone : c.act action = (.gone missing, c)) :
    Told ⟨c, .outside action⟩ .nothing :=
  told_void gone rfl rfl

private theorem told_still (quiet : action.isQuiet = true)
    (inflow : (c.act action).2.inflow = c.inflow) (calls : (c.act action).2.calls = c.calls) :
    Told ⟨c, .outside action⟩ .nothing := by
  have acted : c.act action = ((c.act action).1, (c.act action).2) := rfl
  exact told_kept quiet rfl acted inflow calls trivial rfl

/-- The beginning of a call leaves the inbound half unchanged. -/
private theorem told_call (call : Call) (quiet : action.isQuiet = true)
    (fresh : call.work.isFresh = true)
    (leaves : call.work.isJoin = false ∨ (c.act action).2.held = false)
    (opens : call.sender = true → c.opens = true)
    (inflow : (c.act action).2.inflow = c.inflow)
    (calls : (c.act action).2.calls = c.calls ++ [call]) :
    Told ⟨c, .outside action⟩ .nothing := by
  have acted : c.act action = ((c.act action).1, (c.act action).2) := rfl
  refine told_quiet quiet rfl acted inflow
    (.begins call.sender call.work fresh leaves opens fun n => ?_) (.inl rfl)
  unfold stands?
  rw [calls, List.getElem?_append]
  split
  next known => simp [Nat.ne_of_lt known]
  next beyond =>
    by_cases same : n = c.calls.length
    · simp [same]
    · have more : n - c.calls.length ≠ 0 := by omega
      have old : c.calls.length ≤ n := by omega
      simp [same, more, old]

private theorem told_reaching {via : Via} {result : Answer × Conversation}
    (acts : c.act action = c.reaching via result)
    (told : c.unreachable? via = none → c.act action = result →
      ∃ touch, Told ⟨c, .outside action⟩ touch) :
    ∃ touch, Told ⟨c, .outside action⟩ touch := by
  rcases reaching_or c via result with ⟨reached, same⟩ | ⟨missing, gone⟩
  · exact told reached (acts.trans same)
  · exact ⟨.nothing, told_gone (acts.trans gone)⟩

private theorem told_ofPeer {result : Answer × Conversation} (acts : c.act action = c.ofPeer result)
    (told : c.act action = result → ∃ touch, Told ⟨c, .outside action⟩ touch) :
    ∃ touch, Told ⟨c, .outside action⟩ touch := by
  rcases ofPeer_or c result with same | ⟨missing, gone⟩
  · exact told (acts.trans same)
  · exact ⟨.nothing, told_gone (acts.trans gone)⟩

private theorem told_ofReceiver {id : FilterId} {result : Answer × Conversation}
    (acts : c.act action = c.ofReceiver id result)
    (told : c.act action = result → c.isQueryFilter id = false →
      ∃ touch, Told ⟨c, .outside action⟩ touch) :
    ∃ touch, Told ⟨c, .outside action⟩ touch := by
  rcases ofReceiver_or c id result with ⟨same, apart⟩ | ⟨missing, gone⟩
  · exact told (acts.trans same) apart
  · exact ⟨.nothing, told_gone (acts.trans gone)⟩

/-- Feeding appends one arrival, or nothing if it is refused. -/
private theorem told_push {arrival : Arrival} (acted : c.act (.push arrival) = c.push arrival) :
    ∃ touch, Told ⟨c, .outside (.push arrival)⟩ touch := by
  cases feeds : (if c.linked then c.inflow.feed.push? arrival else none) with
  | none =>
    rw [Conversation.push, feeds] at acted
    exact ⟨.nothing, told_void acted rfl rfl⟩
  | some feed =>
    rw [Conversation.push, feeds] at acted
    have opened : c.inflow.feed.feeding = true ∧
        feed = { c.inflow.feed with arrivals := c.inflow.feed.arrivals ++ [arrival] } := by
      unfold Feed.push? at feeds
      split at feeds
      · split at feeds
        next feeding =>
          cases feeds
          exact ⟨feeding, rfl⟩
        · cases feeds
      · cases feeds
    have reached : Moment.after ⟨c, .outside (.push arrival)⟩ = c.setFeed feed :=
      congrArg Prod.snd acted
    exact ⟨.push arrival, {
      inflow := by rw [reached, opened.2]; rfl
      calls := by rw [reached]; exact unfolds_of_calls rfl trivial
      fed := by simp [fed, acted, Touch.fed]
      feeding := fun _ => opened.1
      received := rfl
      returned := fun _ => rfl
      removes := .inl rfl }⟩

/-- A receive takes the oldest inbound stanza, if any. -/
private theorem told_receive (acted : c.act .receive = c.receive) :
    ∃ touch, Told ⟨c, .outside .receive⟩ touch := by
  cases queue : c.inflow.inbound.queue with
  | nil =>
    rw [receive, Channel.read, Channel.take?, queue] at acted
    refine ⟨.nothing, ?_⟩
    cases done : decide (c.inflow.reader = .closed) with
    | true =>
      have ended : c.act .receive = (.nothing, c) := by
        rw [acted, done]
        rfl
      exact told_void ended rfl rfl
    | false =>
      have waits : c.act .receive = (.pending, c) := by
        rw [acted, done]
        rfl
      exact told_void waits rfl rfl
  | cons stanza rest =>
    have taken : c.act .receive =
        (.stanza stanza, c.setInbound { c.inflow.inbound with queue := rest }) := by
      rw [acted, receive, Channel.read, Channel.take?, queue]
      rfl
    have reached : Moment.after ⟨c, .outside .receive⟩ =
        c.setInbound { c.inflow.inbound with queue := rest } := congrArg Prod.snd taken
    exact ⟨.take, {
      inflow := by simp [reached, setInbound, Inflow.touch, queue]
      calls := by rw [reached]; exact unfolds_of_calls rfl trivial
      fed := rfl
      feeding := fun fed => absurd rfl fed
      received := by simp [received, taken, Answer.stanza?, Touch.received, queue]
      returned := fun _ => rfl
      removes := .inl rfl }⟩

/-- A receive from a filter takes its oldest stanza, if any. -/
private theorem told_receiveFrom {id : FilterId}
    (acted : c.act (.receiveFrom id) = c.receiveFrom id) (apart : c.isQueryFilter id = false) :
    ∃ touch, Told ⟨c, .outside (.receiveFrom id)⟩ touch := by
  cases read : c.inflow.registry.read id with
  | taken stanza registry =>
    obtain ⟨first, rfl⟩ := Registry.read_taken read
    rw [receiveFrom, read] at acted
    refine ⟨.takeFrom id, congrArg (fun result => result.2.inflow) acted, ?_, rfl,
      fun fed => absurd rfl fed, rfl, fun other => ?_, .inl rfl⟩
    · exact .keeps (fun n => congrArg (fun result => result.2.stands? n) acted) apart
    · by_cases same : other = id
      · subst same
        simp [returned, acted, found, Finding.map, Answer.stanza?, Touch.returned, first]
      · simp [returned, same, Touch.returned]
  | empty =>
    rw [receiveFrom, read] at acted
    exact ⟨.nothing, told_void acted rfl rfl⟩
  | ended =>
    rw [receiveFrom, read] at acted
    exact ⟨.nothing, told_void acted rfl rfl⟩

/-- Every action updates the inbound half once, and shows what this update tells. The cases follow
the actions. -/
theorem told_outside (c : Conversation) (action : Action) :
    ∃ touch, Told ⟨c, .outside action⟩ touch := by
  cases action with
  | push arrival => exact told_ofPeer rfl told_push
  | hangUp =>
    refine told_ofPeer rfl fun acted => ⟨.hangUp, ?_⟩
    exact told_kept rfl rfl acted rfl rfl trivial rfl
  | dropPeer =>
    refine told_ofPeer rfl fun acted => ⟨.hangUp, ?_⟩
    exact told_kept rfl rfl acted rfl rfl trivial rfl
  | takeWrite =>
    refine told_ofPeer rfl fun acted => ⟨.nothing, told_still rfl ?_ ?_⟩ <;>
    · rw [acted, takeWrite]
      split <;> rfl
  | takeWrites =>
    refine told_ofPeer rfl fun acted => ⟨.nothing, told_still rfl ?_ ?_⟩ <;>
    · rw [acted]
      rfl
  | stall value => exact ⟨.nothing, told_still rfl rfl rfl⟩
  | receive => exact told_reaching rfl fun _ => told_receive
  | receiveFrom id => exact told_ofReceiver rfl told_receiveFrom
  | dropReceiver id =>
    refine told_ofReceiver rfl fun acted apart => ⟨.drop id, ?_⟩
    exact told_kept rfl rfl acted rfl rfl apart rfl
  | setJid jid =>
    refine told_reaching rfl fun _ acted => ⟨.nothing, ?_⟩
    exact told_kept rfl rfl acted rfl rfl trivial rfl
  | finish =>
    refine told_reaching rfl fun _ acted => ⟨.nothing, told_still rfl ?_ ?_⟩ <;>
    · rw [acted, finishOwn]
      split <;> rfl
  | handle =>
    refine told_reaching rfl fun _ acted => ⟨.nothing, told_still rfl ?_ ?_⟩ <;>
    · rw [acted]
      split <;> rfl
  | cloneHandle number =>
    refine told_reaching rfl fun _ acted => ⟨.nothing, ?_⟩
    exact told_kept rfl rfl acted rfl rfl trivial rfl
  | dropHandle number =>
    refine told_reaching rfl fun _ acted => ⟨.nothing, ?_⟩
    exact told_kept rfl rfl acted rfl rfl trivial rfl
  | send via stanza =>
    refine told_reaching rfl fun reached acted => ⟨.nothing, ?_⟩
    apply told_call ⟨c.canSend via, .send stanza, false⟩ rfl rfl (.inl rfl)
      (opens_of_canSend reached)
    · simp [acted, addCall]
    · simp [acted, addCall]
  | query via iq limit =>
    refine told_reaching rfl fun reached acted => ⟨.nothing, ?_⟩
    apply told_call ⟨c.canSend via, .query iq limit, false⟩ rfl rfl (.inl rfl)
      (opens_of_canSend reached)
    · simp [acted, addCall]
    · simp [acted, addCall]
  | join =>
    refine told_reaching rfl fun _ acted => ⟨.nothing, ?_⟩
    apply told_call ⟨false, .join, false⟩ rfl rfl
    · exact .inr (by simp [acted, addCall])
    · exact fun sends => absurd sends Bool.false_ne_true
    · simp [acted, addCall]
    · simp [acted, addCall]
  | dropOwn =>
    refine told_reaching rfl fun _ acted => ⟨.shut, ?_⟩
    exact told_kept rfl rfl acted rfl rfl trivial rfl
  | abort call =>
    refine ⟨.nothing, told_quiet rfl rfl rfl rfl (.keeps (fun n => ?_) trivial) (.inl rfl)⟩
    simp only [stands?, List.getElem?_modify]
    split
    · cases c.calls[n]? <;> rfl
    · simp
  | drop n =>
    cases here : c.calls[n]? with
    | none =>
      have gone : c.act (.drop n) = (.gone .call, c) := by simp only [act, here]
      exact ⟨.nothing, told_gone gone⟩
    | some call =>
      have acted : c.act (.drop n) = (.ok, c.abandon n call.work) := by simp only [act, here]
      cases running : call.work.isRunning with
      | true =>
        obtain ⟨touch, turned⟩ := abandon_turned (c := c) (n := n) running
        exact ⟨touch, told_quiet rfl turned.turn.silent_of_givenUp acted turned.inflow
          (.turns here turned) (.inl turned.turn.keeps.2.2)⟩
      | false =>
        rw [abandon_of_ended running] at acted
        exact ⟨.nothing, told_kept rfl rfl acted rfl rfl trivial rfl⟩
  | addFilter via matcher =>
    refine told_reaching rfl fun _ acted => ⟨.add matcher, ?_⟩
    exact told_kept rfl rfl acted rfl rfl trivial rfl
  | removeFilter via id =>
    refine told_reaching rfl fun _ acted => ?_
    cases removed : c.inflow.registry.remove? id with
    | none =>
      simp only [removeFilter?, removed, Option.map_none] at acted
      exact ⟨.nothing, told_kept rfl rfl acted rfl rfl trivial rfl⟩
    | some registry =>
      simp only [removeFilter?, removed, Option.map_some] at acted
      refine ⟨.remove id, told_quiet rfl rfl acted ?_ (unfolds_of_calls rfl trivial) ?_⟩
      · simp [Inflow.touch, removed, setRegistry, report]
      · exact .inr ⟨via, id, rfl, rfl⟩
  | close via =>
    refine told_reaching rfl fun _ acted => ⟨.nothing, ?_⟩
    exact told_kept rfl rfl acted rfl rfl trivial rfl
  | advance milliseconds => exact ⟨.nothing, told_still rfl rfl rfl⟩

private theorem returned_idle {agent : Agent} (waits : c.step? agent = none) (id : FilterId) :
    returned ⟨c, .step agent⟩ id = [] := by
  cases agent with
  | call n =>
    simp only [returned]
    split
    next awaiting =>
      obtain ⟨call, here, awaits⟩ := (Option.any_eq_true _ _).mp awaiting
      have awaited : call.work.awaited? = some id := by
        simpa using (Bool.and_eq_true_iff.mp awaits).2
      have empty := queueOf_of_stuck waits here awaited
      simp [empty]
    · rfl
  | writer | reader | timer n => rfl

/-- A step of an agent that is not ready has no effect. -/
private theorem told_idle {agent : Agent} (waits : c.step? agent = none) :
    Told ⟨c, .step agent⟩ .nothing := by
  have reached : Moment.after ⟨c, .step agent⟩ = c := by
    rw [Moment.after, Conversation.move, waits, Option.getD_none]
  exact {
    inflow := by rw [reached]; rfl
    calls := by rw [reached]; exact unfolds_of_calls rfl trivial
    fed := rfl
    feeding := fun fed => absurd rfl fed
    received := rfl
    returned := returned_idle waits
    removes := .inl rfl }

/-- The sender task leaves the inbound half unchanged. -/
private theorem told_writer (c : Conversation) : Told ⟨c, .step .writer⟩ .nothing := by
  have still : (c.move (.step .writer)).inflow = c.inflow ∧
      (c.move (.step .writer)).calls = c.calls := by
    rw [Conversation.move, step?, writerStep?]
    cases c.outflow.step? c.faults c.trace c.producing <;> exact ⟨rfl, rfl⟩
  exact {
    inflow := still.1
    calls := unfolds_of_calls still.2 trivial
    fed := rfl
    feeding := fun fed => absurd rfl fed
    received := rfl
    returned := fun _ => rfl
    removes := .inl rfl }

/-- A poll of a call returns from the filter channels what its update takes. -/
private theorem returned_turn {n : Nat} {call : Call} {put : List Stanza} {work : Work}
    (here : c.calls[n]? = some call)
    (turn : Turn c call (call.aborted && call.work.isRunning) touch put work) (id : FilterId) :
    returned ⟨c, .step (.call n)⟩ id = touch.returned c.inflow id := by
  simp only [returned, awaits, here, Option.any_some]
  cases given : call.aborted && call.work.isRunning with
  | true =>
    rw [given] at turn
    have aborted : call.aborted = true := (Bool.and_eq_true_iff.mp given).1
    have silent := (touch.silent c.inflow turn.silent_of_givenUp).2.2 id
    simp [aborted, silent]
  | false =>
    rw [given] at turn
    rw [turn.returned id]
    by_cases awaiting : call.work.awaited? = some id
    · obtain ⟨query, asked, rfl⟩ := Work.awaited?_eq_some awaiting
      have kept : call.aborted = false := by simpa [asked, Work.isRunning] using given
      simp [awaiting, kept]
    · simp [awaiting]

/-- A poll of a call is described by one update. -/
private theorem told_call_step (c : Conversation) (n : Nat) :
    ∃ touch, Told ⟨c, .step (.call n)⟩ touch := by
  cases step : c.callStep? n with
  | none => exact ⟨.nothing, told_idle step⟩
  | some after =>
    obtain ⟨call, touch, put, work, here, turned⟩ := callStep?_turned step
    have reached : Moment.after ⟨c, .step (.call n)⟩ = after := by
      simp [Moment.after, Conversation.move, step?, step]
    obtain ⟨fed, received, removes⟩ := turned.turn.keeps
    exact ⟨touch, {
      inflow := by rw [reached]; exact turned.inflow
      calls := by rw [reached]; exact .turns here turned
      fed := fed.symm
      feeding := fun feeding => absurd fed feeding
      received := received.symm
      returned := returned_turn here turned.turn
      removes := .inl removes }⟩

/-- A step of a timer is described by one update. -/
private theorem told_timer (c : Conversation) (n : Nat) :
    ∃ touch, Told ⟨c, .step (.timer n)⟩ touch := by
  cases step : c.timerStep? n with
  | none => exact ⟨.nothing, told_idle step⟩
  | some after =>
    obtain ⟨call, filter, work, here, turned⟩ := timerStep?_turned step
    have reached : Moment.after ⟨c, .step (.timer n)⟩ = after := by
      simp [Moment.after, Conversation.move, step?, step]
    exact ⟨.leave filter false, {
      inflow := by rw [reached]; exact turned.inflow
      calls := by rw [reached]; exact .turns here turned
      fed := rfl
      feeding := fun fed => absurd rfl fed
      received := rfl
      returned := fun _ => rfl
      removes := .inl rfl }⟩

/-- Every move other than a step of the receiver task is described by one update. -/
theorem exists_told (m : Moment) (other : m.move ≠ .step .reader) : ∃ touch, m.Told touch := by
  obtain ⟨c, move⟩ := m
  cases move with
  | outside action => exact told_outside c action
  | step agent =>
    cases agent with
    | reader => exact absurd rfl other
    | writer => exact ⟨.nothing, told_writer c⟩
    | call n => exact told_call_step c n
    | timer n => exact told_timer c n

theorem Told.still (told : m.Told touch) : m.read = [] ∧ m.handed = [] ∧ m.surfaced = [] := by
  refine ⟨?_, ?_, ?_⟩
  · simp [read, told.inflow, Inflow.arrivals_touch]
  · refine List.flatMap_eq_nil_iff.mpr fun id _ => ?_
    obtain ⟨lost, queue, -⟩ := Inflow.queueOf_touch (i := m.before.inflow) touch id
    have shorter : ((m.before.inflow.touch touch).registry.queueOf id).length ≤
        (m.before.inflow.registry.queueOf id).length := by
      simp only [queue, List.length_append]
      omega
    rw [told.inflow, gained_of_le shorter, List.map_nil]
  · obtain ⟨lost, queue, -⟩ := Inflow.inbound_touch (i := m.before.inflow) touch
    apply gained_of_le
    simp only [told.inflow, queue, List.length_append]
    omega

/-- A poll of the receiver task, with the observations of the step. -/
structure Advances (m : Moment) (flow : Flow) : Prop where
  step : Inflow.Advance m.before.faults m.before.inflow flow m.after.inflow
  calls : ∀ n, m.after.stands? n = m.before.stands? n
  fed : m.fed = []
  received : m.received = []
  returned : ∀ id, m.returned id = []
  read : m.read = flow.read
  handed : m.handed = flow.handed
  surfaced : m.surfaced = flow.surfaced

private theorem flatMap_single {α : Type} (f : Nat → List α) (n id : Nat)
    (others : ∀ k, k ≠ id → f k = []) :
    (List.range n).flatMap f = if id < n then f id else [] := by
  induction n with
  | zero => rfl
  | succ n ih =>
    rw [List.range_succ, List.flatMap_append, ih, List.flatMap_singleton]
    by_cases last : n = id
    · simp [last]
    · have same : id < n + 1 ↔ id < n := by omega
      simp [others n last, same]

theorem move_reader (c : Conversation) :
    (c.move (.step .reader)).inflow = c.inflow.advance c.faults ∧
      (c.move (.step .reader)).calls = c.calls := by
  rw [Conversation.move, step?, readerStep?, Inflow.advance]
  split
  · exact ⟨rfl, rfl⟩
  · rw [← Inflow.step?_fst c.trace]
    cases c.inflow.step? c.faults c.trace <;> exact ⟨rfl, rfl⟩

/-- A step of the receiver task is described by its flow. -/
theorem reader_advances (c : Conversation) : ∃ flow, Advances ⟨c, .step .reader⟩ flow := by
  have still := move_reader c
  obtain ⟨flow, step⟩ := Inflow.advance_spec c.faults c.inflow
  have reached : Moment.after ⟨c, .step .reader⟩ = c.move (.step .reader) := rfl
  refine ⟨flow, ?_, ?_, rfl, rfl, fun _ => rfl, ?_, ?_, ?_⟩
  · rw [reached, still.1]
    exact step
  · intro n
    rw [reached, stands?, still.2, stands?]
  · simp [read, reached, still.1, step.arrivals]
  · have put : ∀ id, gained (c.inflow.registry.queueOf id)
        ((c.inflow.advance c.faults).registry.queueOf id) = handsTo id flow.handed := by
      intro id
      rw [step.queueOf, gained_append]
    simp only [handed, reached, still.1, put]
    rcases step.handed with none | ⟨id, stanza, one, known, -, -⟩
    · simp [none, handsTo]
    · rw [one, flatMap_single _ _ id (fun k other => by simp [handsTo, Ne.symm other])]
      simp [handsTo, step.ages.lt_nextId known]
  · rw [surfaced, reached, still.1, step.inbound.1, gained_append]

/-- Inversion of a move on the inbound side. -/
theorem told_or_advances (m : Moment) : (∃ touch, m.Told touch) ∨ ∃ flow, m.Advances flow := by
  by_cases reader : m.move = .step .reader
  · obtain ⟨c, move⟩ := m
    subst reader
    exact .inr (reader_advances c)
  · exact .inl (m.exists_told reader)

/-- The inbound half after a move has a property that every operation and every poll of the receiver
task gives it. -/
theorem inflow_of_after {P : Inflow → Prop} (m : Moment)
    (touched : ∀ touch, P (m.before.inflow.touch touch))
    (advanced : ∀ {flow after}, Inflow.Advance m.before.faults m.before.inflow flow after →
      P after) :
    P m.after.inflow := by
  rcases m.told_or_advances with ⟨touch, told⟩ | ⟨flow, advances⟩
  · rw [told.inflow]
    exact touched touch
  · exact advanced advances.step

/-- Backward inversion for calls: a call was in the same state before, or is new, or has had a turn.
-/
theorem stood (m : Moment) {n : Nat} {sender : Bool} {work : Work}
    (stands : m.after.stands? n = some (sender, work)) :
    m.before.stands? n = some (sender, work) ∨
      (work.isFresh = true ∧ (work.isJoin = false ∨ m.after.held = false) ∧
        (sender = true → m.before.opens = true)) ∨
      ∃ call givenUp touch put, m.before.calls[n]? = some call ∧ call.sender = sender ∧
        Turned m.before n call givenUp touch put work m.after := by
  rcases m.told_or_advances with ⟨touch, told⟩ | ⟨flow, advances⟩
  · refine (told.calls.stood stands).imp_right (Or.imp_right ?_)
    rintro ⟨call, givenUp, put, turned⟩
    exact ⟨call, givenUp, touch, put, turned⟩
  · exact .inl ((advances.calls n).symm.trans stands)

/-- Forward inversion for the state of a call. -/
theorem stands_or_turned (m : Moment) {n : Nat} {sender : Bool} {work : Work}
    (stands : m.before.stands? n = some (sender, work)) :
    m.after.stands? n = some (sender, work) ∨ ∃ call givenUp touch put later,
      m.before.calls[n]? = some call ∧ call.sender = sender ∧ call.work = work ∧ m.Told touch ∧
        Turned m.before n call givenUp touch put later m.after ∧
        m.after.stands? n = some (sender, later) := by
  rcases m.told_or_advances with ⟨touch, told⟩ | ⟨flow, advances⟩
  · cases told.calls with
    | keeps same apart => exact .inl ((same n).trans stands)
    | begins caller begun fresh leaves opens new =>
      have old : n ≠ m.before.calls.length := by
        rintro rfl
        rw [stands?_length] at stands
        cases stands
      exact .inl ((new n).trans ((if_neg old).trans stands))
    | @turns other call givenUp touch put later here turned =>
      have after := stands?_modify here turned.calls n
      by_cases mine : n = other
      · subst mine
        have stood : m.before.stands? n = some (call.sender, call.work) := by simp [stands?, here]
        obtain ⟨rfl, rfl⟩ : call.sender = sender ∧ call.work = work := by simpa [stood] using stands
        rw [if_pos rfl] at after
        exact .inr ⟨call, givenUp, touch, put, later, here, rfl, rfl, told, turned, after⟩
      · rw [if_neg mine] at after
        exact .inl (after.trans stands)
  · exact .inl ((advances.calls n).trans stands)

end Moment

end StanzaExchange
