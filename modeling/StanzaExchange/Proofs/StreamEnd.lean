import StanzaExchange.Proofs.Ending
import StanzaExchange.Proofs.OutboundMoves

/-!
Idempotent termination (section 9 and property P6 of the specification). The application, the sender
task and the receiver task may attempt it in any order and any number of times. `closers` is the
sequence of the attempts; every fact about the stream end is a function of it: the first attempt
writes the end and reports so, the others find the guard taken.
-/
namespace StanzaExchange

/-- The events of the first attempt; the write fails if the peer is gone. -/
def Reporter.ends (origin : Reporter) (heard : Bool) : List Report :=
  ⟨origin, .closing origin⟩ :: ⟨origin, .endWritten⟩ ::
    if heard then [] else [⟨origin, .endFailed origin .closed⟩]

/-- The event of a later attempt. -/
def Reporter.comesLate (origin : Reporter) : Report := ⟨origin, .alreadyClosed origin⟩

namespace History

/-- The originators of all attempts, in order. -/
def closers (h : History) : List Reporter := h.filterMap Moment.closer?

/-- Whether the peer was there at the first attempt. -/
def heard (h : History) : Bool :=
  (h.find? fun m => m.closer?.isSome).all fun m => m.before.outflow.wire.listening

/-- The events of the attempts. -/
def endStory (h : History) : List Report :=
  match h.closers with
  | [] => []
  | first :: others => first.ends h.heard ++ others.map Reporter.comesLate

variable {past : History} {m : Moment}

theorem closers_concat : closers (past ++ [m]) = past.closers ++ m.closer?.toList :=
  filterMap_concat

/-- The peer heard the first attempt if it was there. -/
theorem heard_concat : heard (past ++ [m]) =
    if past.closers = [] then !m.closer?.isSome || m.before.outflow.wire.listening
    else past.heard := by
  unfold heard
  rw [List.find?_append]
  split
  next nobody =>
    have unasked : past.find? (fun m => m.closer?.isSome) = none := by
      simpa [closers, List.find?_eq_none] using nobody
    rw [unasked, Option.none_or]
    cases asks : m.closer? <;> simp [asks]
  next somebody =>
    cases found : past.find? (fun m => m.closer?.isSome) with
    | none =>
      refine absurd ?_ somebody
      simpa [closers, List.find?_eq_none] using found
    | some first => rfl

/-- The events of an attempt depend on whether it is the first one. -/
theorem endStory_concat : endStory (past ++ [m]) = past.endStory ++
    (m.closer?.map fun origin =>
      if past.closers = [] then origin.ends m.before.outflow.wire.listening
      else [origin.comesLate]).getD [] := by
  simp only [endStory, closers_concat, heard_concat]
  cases asks : m.closer? with
  | none => cases past.closers <;> simp
  | some origin => cases past.closers <;> simp

end History

theorem Event.tellsEnd_of_name {event : Event} (named : event.name = "conversation.close" ∨
    event.name = "conversation.close.already_closed") : event.tellsEnd = true := by
  cases event <;> first | rfl | simp [name] at named

/-- One close event for any number of attempts, and one for every attempt that comes too late. -/
theorem History.countP_endStory (h : History) :
    h.endStory.countP (·.event.name = "conversation.close") = min 1 h.closers.length ∧
      h.endStory.countP (·.event.name = "conversation.close.already_closed") =
        h.closers.length - 1 := by
  unfold endStory
  cases h.closers with
  | nil => exact ⟨rfl, rfl⟩
  | cons first others =>
    cases h.heard <;> simp [Reporter.ends, Reporter.comesLate, Event.name, List.countP_map,
      Function.comp_def]

/-- The write of the stream end fails only with closed. -/
theorem History.failure_of_endStory (h : History) : ∀ report ∈ h.endStory, ∀ origin failure,
    report.event = .endFailed origin failure → failure = .closed := by
  unfold endStory
  cases h.closers with
  | nil => simp
  | cons first others =>
    refine List.forall_mem_append.mpr ⟨?_, List.forall_mem_map.mpr fun other _ _ _ same => ?_⟩
    · cases h.heard <;> simp [Reporter.ends]
    · cases same

/-- The number of events with a name. -/
def Conversation.times (c : Conversation) (name : String) : Nat :=
  c.journal.countP (·.event.name = name)

theorem Conversation.times_eq (c : Conversation) {name : String}
    (about : ∀ event : Event, event.name = name → event.tellsEnd = true) :
    c.times name = c.endReports.countP (·.event.name = name) := by
  rw [endReports, List.countP_reverse, List.countP_filter, times]
  refine List.countP_congr fun report _ => ?_
  have tells := about report.event
  simpa using tells

/-- The events of one attempt. -/
theorem Outflow.EndsOnce.announces {faults : Faults} {o : Outflow} (once : o.EndsOnce)
    (faultless : faults.sendEnd = false) (origin : Reporter) :
    o.announces faults origin =
      if o.terminated then [origin.comesLate] else origin.ends o.wire.listening := by
  unfold Outflow.announces Outflow.close
  split
  · rfl
  next first =>
    have goes : o.wire.ended = false := by rw [once.ended]; simpa using first
    simp only [writeEnd, faultless, Wire.sendEnd, goes, Reporter.ends]
    cases o.wire.listening <;> rfl

theorem Moment.terminated_after (m : Moment) :
    m.after.outflow.terminated = (m.before.outflow.terminated || m.closer?.isSome) := by
  rcases m.stirs_or_writes with ⟨touch, stirs⟩ | ⟨events, writes⟩
  · rw [stirs.stirred.outflow, Outflow.terminated_touch, stirs.closer?]
  · rw [writes.advance.terminated, writes.closer?]
    cases m.before.outflow.asks m.before.producing <;> rfl

theorem Moment.sound_after (m : Moment) (sound : m.before.outflow.Sound) :
    m.after.outflow.Sound := by
  rcases m.stirs_or_writes with ⟨touch, stirs⟩ | ⟨events, writes⟩
  · rw [stirs.stirred.outflow]
    exact sound.touch stirs.stirred.fits
  · exact sound.advance writes.advance

theorem Moment.endsOnce_after (m : Moment) (once : m.before.outflow.EndsOnce)
    (faultless : m.before.faults.sendEnd = false) : m.after.outflow.EndsOnce := by
  rcases m.stirs_or_writes with ⟨touch, stirs⟩ | ⟨events, writes⟩
  · rw [stirs.stirred.outflow]
    exact once.touch faultless touch
  · exact once.advance faultless writes.advance

namespace Course

theorem terminated_now (k : Course) : k.now.outflow.terminated = !k.past.closers.isEmpty := by
  refine k.induction (P := fun past now => now.outflow.terminated = !past.closers.isEmpty) rfl ?_
  intro moves move j before
  have after := Moment.terminated_after ⟨j.now, move⟩
  rw [History.closers_concat, Moment.after] at *
  rw [after, before]
  cases (Moment.closer? ⟨j.now, move⟩) <;> simp

theorem sound (k : Course) : k.now.outflow.Sound := by
  have room : 0 < max 1 k.settings.outboundCapacity :=
    Nat.lt_of_lt_of_le Nat.one_pos (Nat.le_max_left _ _)
  have start : k.origin.outflow.Sound :=
    ⟨room, iff_of_false (nomatch ·) (nomatch ·), (nomatch ·), (nomatch ·)⟩
  exact k.induction (P := fun _ now => now.outflow.Sound) start
    fun _ move sound => Moment.sound_after ⟨_, move⟩ sound

theorem endsOnce (k : Course) (faultless : k.faults.sendEnd = false) :
    k.now.outflow.EndsOnce := by
  refine k.induction (P := fun _ now => now.outflow.EndsOnce) ⟨rfl, rfl⟩ ?_
  intro moves move j once
  exact Moment.endsOnce_after ⟨j.now, move⟩ once (by rw [j.faults_now]; exact faultless)

/-- The reports of terminations in the journal are the events of the attempts. -/
theorem endReports_now (k : Course) (faultless : k.faults.sendEnd = false) :
    k.now.endReports = k.past.endStory := by
  refine k.induction (P := fun past now => now.endReports = past.endStory) rfl ?_
  intro moves move j before
  have after := Moment.endReports_after ⟨j.now, move⟩
  have none : j.now.faults.sendEnd = false := by rw [j.faults_now]; exact faultless
  rw [Moment.after] at after
  rw [after, before, History.endStory_concat]
  cases (Moment.closer? ⟨j.now, move⟩) with
  | none => rfl
  | some origin =>
    -- a non-empty list of attempts means that the guard is taken
    have announced := (j.endsOnce faultless).announces none origin
    rw [j.terminated_now] at announced
    simp only [Option.map_some, Option.getD_some, announced]
    cases j.past.closers <;> rfl

/-- The stream ends at most once, for attempts from any origin in any order: the end is written at
the first attempt, whose caller alone is answered true, and `terminated` tells whether there was
one. -/
theorem stream_ends_once (k : Course) (faultless : k.faults.sendEnd = false) :
    k.now.outflow.wire.endWrites = (if k.past.closers = [] then 0 else 1) ∧
    (∀ origin, (k.now.close origin).1 = decide (k.past.closers = [])) ∧
    (∀ via, k.now.unreachable? via = none →
      (k.now.act (.close via)).1 = .flag (decide (k.past.closers = []))) ∧
    k.now.endReports = k.past.endStory ∧
    k.now.times "conversation.close" = min 1 k.past.closers.length ∧
    k.now.times "conversation.close.already_closed" = k.past.closers.length - 1 ∧
    (∀ report ∈ k.now.journal, ∀ origin,
      report.event ≠ .endFailed origin (.framing "stream end written twice")) ∧
    (k.now.outflow.terminated = true ↔ k.now.outflow.wire.endWrites = 1) ∧
    (k.now.outflow.terminated = true → ∀ more, (k.andThen more).now.outflow.terminated = true) := by
  have once := k.endsOnce faultless
  have asked := k.terminated_now
  have told := k.endReports_now faultless
  have first : ∀ origin, (k.now.close origin).1 = decide (k.past.closers = []) := by
    intro origin
    rw [Conversation.close, Outflow.close_fst, asked]
    cases k.past.closers <;> rfl
  have ends : k.now.times "conversation.close" = min 1 k.past.closers.length := by
    rw [k.now.times_eq fun _ named => Event.tellsEnd_of_name (.inl named), told]
    exact k.past.countP_endStory.1
  have late : k.now.times "conversation.close.already_closed" = k.past.closers.length - 1 := by
    rw [k.now.times_eq fun _ named => Event.tellsEnd_of_name (.inr named), told]
    exact k.past.countP_endStory.2
  refine ⟨?_, first, fun via reached => ?_, told, ends, late, ?_, ?_, fun ended more => ?_⟩
  · rw [once.endWrites, asked]
    cases k.past.closers <;> rfl
  · simpa [Conversation.act, Conversation.reaching, reached] using first .application
  · intro report member origin twice
    have listed : report ∈ k.past.endStory := by
      rw [← told, Conversation.endReports, List.mem_reverse]
      exact List.mem_filter.mpr ⟨member, by rw [twice]; rfl⟩
    cases k.past.failure_of_endStory report listed origin _ twice
  · rw [once.endWrites]
    cases k.now.outflow.terminated <;> simp
  · rw [k.now_andThen]
    exact (Conversation.proceeds_run more).terminated ended

/-- The peer is dropped; while the receiver task comes to its end the application closes twice, and
the sender task stops. -/
def deserted : Course where
  jid := ⟨none, "example", none⟩
  settings := {}
  moves :=
    [.outside .dropPeer, .step .reader, .step .reader, .outside (.close .own), .step .reader,
      .outside .handle, .outside (.close (.handle 0)), .step .writer]

theorem stream_ends_once_deserted :
    deserted.past.closers = [.application, .reader, .application] ∧
      deserted.now.outflow.wire.endWrites = 1 ∧ deserted.now.times "conversation.close" = 1 ∧
      deserted.now.times "conversation.close.already_closed" = 2 ∧
      deserted.now.endReports =
        [⟨.application, .closing .application⟩, ⟨.application, .endWritten⟩,
          ⟨.application, .endFailed .application .closed⟩, ⟨.reader, .alreadyClosed .reader⟩,
          ⟨.application, .alreadyClosed .application⟩] := by
  have asked : deserted.past.closers = [.application, .reader, .application] := by decide +kernel
  obtain ⟨written, -, -, told, ends, late, -⟩ := deserted.stream_ends_once rfl
  rw [asked] at written ends late
  refine ⟨asked, written, ends, late, ?_⟩
  rw [told]
  decide +kernel

end Course

end StanzaExchange
