import StanzaExchange.Registry

/-!
Effects of the registry operations (section 4.2 of the specification), filter by filter: queue, mark
and receiver. Each operation has an equation for its result and a frame statement; `Ages` collects
what no operation ever reverts, and `WellFormed` is the invariant that ties index, arena and marks
together. Callers cite these lemmas and do not unfold the operations.
-/
namespace StanzaExchange

/-- Later states of a filter: the matcher is fixed, removal and the drop of the receiver are final.
-/
structure Filter.Ages (f later : Filter) : Prop where
  matcher : later.matcher = f.matcher
  removed : f.removed = true → later.removed = true
  dropped : f.channel.receiving = false → later.channel.receiving = false

theorem Filter.Ages.refl (f : Filter) : f.Ages f := ⟨rfl, id, id⟩

theorem Filter.Ages.trans {f g h : Filter} (first : f.Ages g) (second : g.Ages h) : f.Ages h :=
  ⟨second.matcher.trans first.matcher, second.removed ∘ first.removed,
    second.dropped ∘ first.dropped⟩

namespace Channel

variable {α : Type} {c after : Channel α} {value : α} {ahead ticket : Nat}

/-- A successful attempt appends to a queue with a free slot and a live receiver. -/
theorem offerBehind_accepted (taken : c.offerBehind ahead value = .accepted after) :
    c.receiving = true ∧ c.queue.length + ahead < c.capacity ∧
      after = { c with queue := c.queue ++ [value] } := by
  unfold offerBehind at taken
  split at taken
  · cases taken
  next reads =>
    split at taken
    next room =>
      cases taken
      exact ⟨by simpa using reads, room, rfl⟩
    · cases taken

theorem offerBehind_refused (refused : c.offerBehind ahead value = .refused) :
    c.receiving = false := by
  unfold offerBehind at refused
  split at refused
  next shut => simpa using shut
  · split at refused <;> cases refused

/-- An offer is full only if queue and senders ahead leave no slot. -/
theorem offerBehind_full (full : c.offerBehind ahead value = .full) :
    c.receiving = true ∧ c.capacity ≤ c.queue.length + ahead := by
  unfold offerBehind at full
  split at full
  · cases full
  next reads =>
    split at full
    · cases full
    next crowded => exact ⟨by simpa using reads, Nat.le_of_not_lt crowded⟩

/-- A waiting sender that succeeds leaves the queue of waiting senders. -/
theorem offerAs_accepted (taken : c.offerAs ticket value = .accepted after) :
    c.receiving = true ∧ c.queue.length + c.waiting.idxOf ticket < c.capacity ∧
      after = ({ c with queue := c.queue ++ [value] } : Channel α).withdraw ticket := by
  unfold offerAs at taken
  cases put : c.offerBehind (c.waiting.idxOf ticket) value with
  | accepted later =>
    obtain ⟨reads, room, rfl⟩ := offerBehind_accepted put
    simp only [put, Offer.map, Offer.accepted.injEq] at taken
    exact ⟨reads, room, taken.symm⟩
  | full => simp [put, Offer.map] at taken
  | refused => simp [put, Offer.map] at taken

theorem offerAs_refused (refused : c.offerAs ticket value = .refused) : c.receiving = false := by
  unfold offerAs at refused
  cases put : c.offerBehind (c.waiting.idxOf ticket) value with
  | accepted later => simp [put, Offer.map] at refused
  | full => simp [put, Offer.map] at refused
  | refused => exact offerBehind_refused put

theorem offerAs_full (full : c.offerAs ticket value = .full) :
    c.receiving = true ∧ c.capacity ≤ c.queue.length + c.waiting.idxOf ticket := by
  unfold offerAs at full
  cases put : c.offerBehind (c.waiting.idxOf ticket) value with
  | accepted later => simp [put, Offer.map] at full
  | full => exact offerBehind_full put
  | refused => simp [put, Offer.map] at full

theorem take?_eq_some (taken : c.take? = some (value, after)) :
    ∃ rest, c.queue = value :: rest ∧ after = { c with queue := rest } := by
  unfold take? at taken
  split at taken
  · cases taken
  next first rest queue =>
    cases taken
    exact ⟨rest, queue, rfl⟩

theorem take?_eq_none (untaken : c.take? = none) : c.queue = [] := by
  unfold take? at untaken
  split at untaken
  next empty => exact empty
  · cases untaken

/-- A channel of the given capacity that holds at most as many values. -/
structure Within (c : Channel α) (room : Nat) : Prop where
  capacity : c.capacity = room
  length_le : c.queue.length ≤ room

namespace Within

variable {room : Nat}

theorem ofCapacity (capacity : Nat) : (Channel.ofCapacity capacity : Channel α).Within
    (max 1 capacity) := ⟨rfl, Nat.zero_le _⟩

theorem put (within : c.Within room) (free : c.queue.length < c.capacity) :
    Within { c with queue := c.queue ++ [value] } room := by
  refine ⟨within.capacity, ?_⟩
  rw [within.capacity] at free
  simp only [List.length_append, List.length_singleton]
  omega

theorem of_le (within : c.Within room) (capacity : after.capacity = c.capacity)
    (shorter : after.queue.length ≤ c.queue.length) : after.Within room :=
  ⟨capacity.trans within.capacity, Nat.le_trans shorter within.length_le⟩

theorem tail (within : c.Within room) : Within { c with queue := c.queue.tail } room := by
  refine within.of_le rfl ?_
  simp

theorem shut (within : c.Within room) : c.shut.Within room :=
  within.of_le rfl (Nat.zero_le _)

end Within

end Channel

namespace Registry

variable {r after : Registry} {id other : FilterId} {stanza : Stanza}

/-- The queue of a delivery channel. -/
def queueOf (r : Registry) (id : FilterId) : List Stanza :=
  ((r.filter? id).map fun f => f.channel.queue).getD []

/-- Removed, or without a receiver. -/
def Gone (r : Registry) (id : FilterId) : Prop :=
  r.isRemoved id = true ∨ r.isReceiving id = false

/-- The drop guard of a correlation filter: remove the filter and drop its receiver. -/
def leave (r : Registry) (id : FilterId) : Registry :=
  ((r.remove? id).getD r).modifyChannel id .shut

theorem queueOf_eq {f : Filter} (found : r.filter? id = some f) :
    r.queueOf id = f.channel.queue := by
  simp [queueOf, found]

theorem queueOf_unknown (absent : r.filter? id = none) : r.queueOf id = [] := by
  simp [queueOf, absent]

theorem length_queueOf_le {room : Nat}
    (within : ∀ f, r.filter? id = some f → f.channel.queue.length ≤ room) :
    (r.queueOf id).length ≤ room := by
  cases found : r.filter? id with
  | none =>
    rw [queueOf_unknown found]
    exact Nat.zero_le room
  | some f =>
    rw [queueOf_eq found]
    exact within f found

theorem isReceiving_eq {f : Filter} (found : r.filter? id = some f) :
    r.isReceiving id = f.channel.receiving := by
  simp [isReceiving, found]

theorem isRemoved_eq {f : Filter} (found : r.filter? id = some f) : r.isRemoved id = f.removed := by
  simp [isRemoved, found]

theorem accepts_eq {f : Filter} (found : r.filter? id = some f) :
    r.accepts id stanza = f.matcher.accepts stanza := by
  simp [accepts, found]

theorem exists_of_accepts (wanted : r.accepts id stanza = true) :
    ∃ f, r.filter? id = some f ∧ f.matcher.accepts stanza = true := by
  simpa [accepts, Option.any_eq_true] using wanted

/-- The ids in use are those below the next one. -/
theorem filter?_eq_none_iff : r.filter? id = none ↔ r.nextId ≤ id := by
  simp [filter?, nextId]

/-- `add` creates the filter with the next id and changes no other. -/
theorem filter?_add (matcher : Matcher) :
    (r.add matcher).filter? id =
      if id = r.nextId then
        some { matcher, removed := r.closed, channel := .ofCapacity r.capacity }
      else r.filter? id := by
  simp only [filter?, add, nextId, List.getElem?_append, List.getElem?_singleton]
  by_cases known : id < r.filters.length
  · simp [known, Nat.ne_of_lt known]
  · by_cases same : id = r.filters.length
    · simp [same]
    · have beyond : r.filters.length < id :=
        Nat.lt_of_le_of_ne (Nat.le_of_not_lt known) (Ne.symm same)
      simp [known, same, Nat.sub_ne_zero_of_lt beyond]

theorem filter?_modifyChannel (change : Channel Stanza → Channel Stanza) :
    (r.modifyChannel other change).filter? id =
      if id = other then (r.filter? id).map fun f => { f with channel := change f.channel }
      else r.filter? id := by
  simp only [filter?, modifyChannel, List.getElem?_modify]
  by_cases same : id = other
  · simp [same]
  · simp [same, Ne.symm same]

/-- The exact effect of a successful removal. -/
theorem eq_of_remove? (removed : r.remove? other = some after) :
    after = { r with
      filters := r.filters.modify other markRemoved
      active := r.active.erase other
      entries := r.entries.erase other } := by
  unfold remove? at removed
  split at removed
  · cases removed
    rfl
  · cases removed

/-- `remove?` marks one filter and changes no other. -/
theorem filter?_remove (removed : r.remove? other = some after) :
    after.filter? id =
      if id = other then (r.filter? id).map markRemoved else r.filter? id := by
  rw [eq_of_remove? removed]
  simp only [filter?, List.getElem?_modify]
  by_cases same : id = other
  · simp [same]
  · simp [same, Ne.symm same]

theorem filter?_close : r.close.filter? id =
    (r.filter? id).map fun f => if id ∈ r.entries then markRemoved f else f := by
  simp [filter?, close]

/-- Leaving marks one filter and drops its receiver. -/
theorem filter?_leave :
    (r.leave other).filter? id =
      if id = other then (r.filter? id).map fun f =>
        { f with removed := f.removed || decide (other ∈ r.entries), channel := f.channel.shut }
      else r.filter? id := by
  rw [leave, filter?_modifyChannel]
  by_cases listed : other ∈ r.entries
  · obtain ⟨without, removed⟩ : ∃ without, r.remove? other = some without := by
      simp [remove?, listed]
    rw [removed, Option.getD_some, filter?_remove removed]
    split <;> simp [Function.comp_def, markRemoved, listed]
  · simp [remove?, listed]

theorem putChannel_eq {f : Filter} (found : r.filter? id = some f)
    (change : Channel Stanza → Channel Stanza) :
    r.putChannel id (change f.channel) = r.modifyChannel id change := by
  have filters : (r.filters.modify id fun g => { g with channel := change f.channel }) =
      r.filters.modify id fun g => { g with channel := change g.channel } := by
    apply List.ext_getElem?
    intro other
    have here : r.filters[id]? = some f := found
    by_cases same : id = other
    · simp [← same, here]
    · simp [same]
  simp only [putChannel, modifyChannel, filters]

/-- An accepted attempt has found an unmarked filter whose channel accepts. -/
theorem offerWith_accepted {attempt : Channel Stanza → Offer (Channel Stanza)}
    (taken : r.offerWith id attempt = .accepted after) :
    ∃ f channel, r.filter? id = some f ∧ f.removed = false ∧
      attempt f.channel = .accepted channel ∧ after = r.putChannel id channel := by
  unfold offerWith at taken
  split at taken
  · cases taken
  next f found =>
    split at taken
    · cases taken
    next kept =>
      cases put : attempt f.channel with
      | full => simp [put, Offer.map] at taken
      | refused => simp [put, Offer.map] at taken
      | accepted channel =>
        simp only [put, Offer.map, Offer.accepted.injEq] at taken
        exact ⟨f, channel, found, by simpa using kept, put, taken.symm⟩

/-- A refused attempt has found a marked filter or a channel without receiver. -/
theorem offerWith_refused {attempt : Channel Stanza → Offer (Channel Stanza)}
    (refused : r.offerWith id attempt = .refused) : r.isRemoved id = true ∨
      ∃ f, r.filter? id = some f ∧ attempt f.channel = .refused := by
  unfold offerWith at refused
  split at refused
  next absent => exact .inl (by simp [isRemoved, absent])
  next f found =>
    split at refused
    next removed => exact .inl (by rw [isRemoved_eq found, removed])
    · cases put : attempt f.channel with
      | full => simp [put, Offer.map] at refused
      | accepted channel => simp [put, Offer.map] at refused
      | refused => exact .inr ⟨f, found, put⟩

/-- A removed filter refuses every delivery. -/
theorem offerWith_removed {attempt : Channel Stanza → Offer (Channel Stanza)}
    (removed : r.isRemoved id = true) : r.offerWith id attempt = .refused := by
  unfold offerWith
  cases found : r.filter? id with
  | none => rfl
  | some f =>
    rw [isRemoved_eq found] at removed
    simp [removed]

/-- A delivery appends to the queue of a filter that is not removed and has a receiver. -/
theorem offer_accepted (taken : r.offer id stanza = .accepted after) :
    ∃ f, r.filter? id = some f ∧ f.removed = false ∧ f.channel.receiving = true ∧
      f.channel.queue.length + f.channel.waiting.length < f.channel.capacity ∧
      after = r.modifyChannel id fun c => { c with queue := c.queue ++ [stanza] } := by
  obtain ⟨f, channel, found, kept, put, rfl⟩ := offerWith_accepted taken
  obtain ⟨reads, room, rfl⟩ := Channel.offerBehind_accepted put
  refine ⟨f, found, kept, reads, room, ?_⟩
  rw [← putChannel_eq found]

theorem offer_refused (refused : r.offer id stanza = .refused) : r.Gone id := by
  apply (offerWith_refused refused).imp_right
  rintro ⟨f, found, put⟩
  rw [isReceiving_eq found, Channel.offerBehind_refused put]

/-- A receive takes the oldest stanza of the channel. -/
theorem read_taken (read : r.read id = .taken stanza after) :
    (r.queueOf id).head? = some stanza ∧
      after = r.modifyChannel id fun c => { c with queue := c.queue.tail } := by
  unfold Registry.read at read
  split at read
  · cases read
  next f found =>
    cases queue : f.channel.queue with
    | nil =>
      cases removed : f.removed <;>
        simp [Channel.read, Channel.take?, queue, removed, Finding.map] at read
    | cons first rest =>
      simp only [Channel.read, Channel.take?, queue, Finding.map, Finding.taken.injEq] at read
      obtain ⟨rfl, rfl⟩ := read
      refine ⟨by simp [queueOf_eq found, queue], ?_⟩
      rw [← putChannel_eq found]
      simp [queue]

theorem read_not_taken (read : ∀ stanza after, r.read id ≠ .taken stanza after) :
    r.queueOf id = [] := by
  cases found : r.filter? id with
  | none => exact queueOf_unknown found
  | some f =>
    cases queue : f.channel.queue with
    | nil => rw [queueOf_eq found, queue]
    | cons first rest =>
      exact absurd (by simp [Registry.read, found, Channel.read, Channel.take?, queue, Finding.map])
        (read first (r.putChannel id { f.channel with queue := rest }))

/-- A receive is pending only on an empty channel of a filter that is not removed. -/
theorem read_empty (read : r.read id = .empty) :
    r.queueOf id = [] ∧ r.isRemoved id = false := by
  refine ⟨read_not_taken (by simp [read]), ?_⟩
  unfold Registry.read at read
  split at read
  · cases read
  next f found =>
    rw [isRemoved_eq found]
    cases queue : f.channel.queue <;> cases removed : f.removed <;>
      simp [Channel.read, Channel.take?, queue, removed, Finding.map] at read ⊢

/-- A channel has ended only if its filter is removed. -/
theorem read_ended (read : r.read id = .ended) : r.isRemoved id = true := by
  unfold Registry.read at read
  split at read
  next absent => simp [isRemoved, absent]
  next f found =>
    rw [isRemoved_eq found]
    cases queue : f.channel.queue with
    | nil =>
      cases removed : f.removed with
      | true => rfl
      | false => simp [Channel.read, Channel.take?, queue, removed, Finding.map] at read
    | cons first rest => simp [Channel.read, Channel.take?, queue, Finding.map] at read

@[simp] theorem queueOf_add (matcher : Matcher) : (r.add matcher).queueOf id = r.queueOf id := by
  unfold queueOf
  rw [filter?_add]
  split
  next fresh =>
    have absent : r.filter? id = none := filter?_eq_none_iff.mpr (Nat.le_of_eq fresh.symm)
    simp [absent, Channel.ofCapacity]
  · rfl

theorem queueOf_remove (removed : r.remove? other = some after) :
    after.queueOf id = r.queueOf id := by
  unfold queueOf
  rw [filter?_remove removed]
  split
  · cases r.filter? id <;> rfl
  · rfl

@[simp] theorem queueOf_close : r.close.queueOf id = r.queueOf id := by
  unfold queueOf
  rw [filter?_close]
  cases r.filter? id with
  | none => rfl
  | some f => by_cases listed : id ∈ r.entries <;> simp [listed, markRemoved]

theorem queueOf_modifyChannel_self {f : Filter} (found : r.filter? id = some f)
    (change : Channel Stanza → Channel Stanza) :
    (r.modifyChannel id change).queueOf id = (change f.channel).queue := by
  simp [queueOf, filter?_modifyChannel, found]

theorem queueOf_modifyChannel_of_ne (different : id ≠ other)
    (change : Channel Stanza → Channel Stanza) :
    (r.modifyChannel other change).queueOf id = r.queueOf id := by
  simp [queueOf, filter?_modifyChannel, different]

@[simp] theorem queueOf_tail :
    (r.modifyChannel id fun c => { c with queue := c.queue.tail }).queueOf id =
      (r.queueOf id).tail := by
  cases found : r.filter? id with
  | none => simp [queueOf, filter?_modifyChannel, found]
  | some f => rw [queueOf_modifyChannel_self found, queueOf_eq found]

@[simp] theorem queueOf_shut : (r.modifyChannel id .shut).queueOf id = [] := by
  cases found : r.filter? id with
  | none => simp [queueOf, filter?_modifyChannel, found]
  | some f =>
    rw [queueOf_modifyChannel_self found]
    rfl

theorem leave_tail :
    (r.modifyChannel id fun c => { c with queue := c.queue.tail }).leave id = r.leave id := by
  by_cases listed : id ∈ r.entries <;>
    simp [leave, remove?, modifyChannel, listed, markRemoved, Function.comp_def, Channel.shut,
      List.modify_modify_eq]

@[simp] theorem isReceiving_leave :
    (r.leave other).isReceiving id = if id = other then false else r.isReceiving id := by
  unfold isReceiving
  rw [filter?_leave]
  split
  · cases r.filter? id <;> rfl
  · rfl

@[simp] theorem queueOf_leave :
    (r.leave other).queueOf id = if id = other then [] else r.queueOf id := by
  unfold queueOf
  rw [filter?_leave]
  split
  · cases r.filter? id <;> rfl
  · rfl

@[simp] theorem nextId_add (matcher : Matcher) : (r.add matcher).nextId = r.nextId + 1 := by
  simp [nextId, add]

@[simp] theorem accepts_add_self (matcher : Matcher) :
    (r.add matcher).accepts r.nextId stanza = matcher.accepts stanza := by
  simp [accepts, filter?_add]

@[simp] theorem isReceiving_add_self (matcher : Matcher) :
    (r.add matcher).isReceiving r.nextId = true := by
  simp [isReceiving, filter?_add, Channel.ofCapacity]

theorem isReceiving_add (matcher : Matcher) (known : id ≠ r.nextId) :
    (r.add matcher).isReceiving id = r.isReceiving id := by
  simp [isReceiving, filter?_add, known]

theorem isReceiving_remove (removed : r.remove? other = some after) :
    after.isReceiving id = r.isReceiving id := by
  unfold isReceiving
  rw [filter?_remove removed]
  split
  · cases r.filter? id <;> rfl
  · rfl

@[simp] theorem isReceiving_close : r.close.isReceiving id = r.isReceiving id := by
  unfold isReceiving
  rw [filter?_close]
  cases r.filter? id with
  | none => rfl
  | some f => by_cases listed : id ∈ r.entries <;> simp [listed, markRemoved]

theorem isReceiving_modifyChannel (different : id ≠ other)
    (change : Channel Stanza → Channel Stanza) :
    (r.modifyChannel other change).isReceiving id = r.isReceiving id := by
  simp [isReceiving, filter?_modifyChannel, different]

theorem isReceiving_modifyChannel_of_same {change : Channel Stanza → Channel Stanza}
    (same : ∀ c, (change c).receiving = c.receiving) :
    (r.modifyChannel other change).isReceiving id = r.isReceiving id := by
  simp only [isReceiving, filter?_modifyChannel]
  split
  · cases r.filter? id with
    | none => rfl
    | some f => exact same f.channel
  · rfl

@[simp] theorem isReceiving_tail :
    (r.modifyChannel other fun c => { c with queue := c.queue.tail }).isReceiving id =
      r.isReceiving id :=
  isReceiving_modifyChannel_of_same fun _ => rfl

@[simp] theorem isReceiving_shut : (r.modifyChannel id .shut).isReceiving id = false := by
  unfold isReceiving
  rw [filter?_modifyChannel, if_pos rfl]
  cases r.filter? id <;> rfl

/-- Later states of a registry: no filter is ever forgotten, and each ages. -/
def Ages (r later : Registry) : Prop :=
  ∀ id f, r.filter? id = some f → ∃ g, later.filter? id = some g ∧ f.Ages g

theorem Ages.refl (r : Registry) : r.Ages r := fun _ f found => ⟨f, found, .refl f⟩

theorem Ages.trans {later last : Registry} (first : r.Ages later) (second : later.Ages last) :
    r.Ages last := by
  intro id f found
  obtain ⟨g, foundThen, ages⟩ := first id f found
  obtain ⟨h, foundLast, agesMore⟩ := second id g foundThen
  exact ⟨h, foundLast, ages.trans agesMore⟩

theorem exists_of_lt_nextId (known : id < r.nextId) : ∃ f, r.filter? id = some f := by
  cases found : r.filter? id with
  | none => exact absurd (filter?_eq_none_iff.mp found) (Nat.not_le_of_lt known)
  | some f => exact ⟨f, rfl⟩

theorem lt_nextId_of_filter? {f : Filter} (found : r.filter? id = some f) : id < r.nextId := by
  refine Nat.lt_of_not_le fun beyond => ?_
  have absent : r.filter? id = none := filter?_eq_none_iff.mpr beyond
  simp [absent] at found

theorem lt_nextId_of_isReceiving (reads : r.isReceiving id = true) : id < r.nextId := by
  cases found : r.filter? id with
  | none => simp [Registry.isReceiving, found] at reads
  | some f => exact lt_nextId_of_filter? found

theorem Ages.lt_nextId (ages : r.Ages after) (known : id < r.nextId) : id < after.nextId := by
  obtain ⟨f, found⟩ := exists_of_lt_nextId known
  obtain ⟨g, foundThen, -⟩ := ages id f found
  exact lt_nextId_of_filter? foundThen

theorem Ages.nextId_le (ages : r.Ages after) : r.nextId ≤ after.nextId :=
  Nat.le_of_not_lt fun shrunk => Nat.lt_irrefl _ (ages.lt_nextId shrunk)

theorem Ages.accepts_eq {f : Filter} (ages : r.Ages after) (found : r.filter? id = some f) :
    after.accepts id stanza = r.accepts id stanza := by
  obtain ⟨g, foundThen, older⟩ := ages id f found
  rw [Registry.accepts_eq found, Registry.accepts_eq foundThen, older.matcher]

theorem Ages.gone {f : Filter} (ages : r.Ages after) (found : r.filter? id = some f)
    (gone : r.Gone id) : after.Gone id := by
  obtain ⟨g, foundThen, older⟩ := ages id f found
  rw [Gone, isRemoved_eq foundThen, isReceiving_eq foundThen]
  rw [Gone, isRemoved_eq found, isReceiving_eq found] at gone
  exact gone.imp older.removed older.dropped

/-- A receiver that exists later existed before. -/
theorem Ages.isReceiving (ages : r.Ages after) (known : id < r.nextId)
    (reads : after.isReceiving id = true) : r.isReceiving id = true := by
  obtain ⟨f, found⟩ := exists_of_lt_nextId known
  obtain ⟨g, foundThen, older⟩ := ages id f found
  rw [isReceiving_eq foundThen] at reads
  rw [isReceiving_eq found]
  cases reading : f.channel.receiving with
  | true => rfl
  | false => simp [older.dropped reading] at reads

theorem ages_add (matcher : Matcher) : r.Ages (r.add matcher) := by
  intro id f found
  have known : id ≠ r.nextId := by
    intro equal
    have absent : r.filter? id = none := filter?_eq_none_iff.mpr (Nat.le_of_eq equal.symm)
    simp [absent] at found
  exact ⟨f, by rw [filter?_add, if_neg known, found], .refl f⟩

/-- A change of a channel that revives no receiver. -/
theorem ages_modifyChannel {change : Channel Stanza → Channel Stanza}
    (dropped : ∀ c, c.receiving = false → (change c).receiving = false) :
    r.Ages (r.modifyChannel other change) := by
  intro id f found
  rw [filter?_modifyChannel]
  split
  · exact ⟨{ f with channel := change f.channel }, by simp [found], rfl, fun h => h,
      dropped f.channel⟩
  · exact ⟨f, found, .refl f⟩

theorem ages_remove (removed : r.remove? other = some after) : r.Ages after := by
  intro id f found
  rw [filter?_remove removed]
  split
  · exact ⟨markRemoved f, by simp [found], rfl, fun _ => rfl, fun h => h⟩
  · exact ⟨f, found, .refl f⟩

theorem ages_close : r.Ages r.close := by
  intro id f found
  by_cases listed : id ∈ r.entries
  · exact ⟨markRemoved f, by simp [filter?_close, found, listed], rfl, fun _ => rfl, fun h => h⟩
  · exact ⟨f, by simp [filter?_close, found, listed], .refl f⟩

theorem ages_leave : r.Ages (r.leave other) := by
  have shut : ∀ c : Channel Stanza, c.receiving = false → c.shut.receiving = false := fun _ _ => rfl
  cases removed : r.remove? other with
  | none =>
    rw [leave, removed]
    exact ages_modifyChannel shut
  | some after =>
    rw [leave, removed]
    exact (ages_remove removed).trans (ages_modifyChannel shut)

theorem isRemoved_add (matcher : Matcher) :
    (r.add matcher).isRemoved id = if id = r.nextId then r.closed else r.isRemoved id := by
  unfold isRemoved
  rw [filter?_add]
  split <;> rfl

@[simp] theorem isRemoved_modifyChannel (change : Channel Stanza → Channel Stanza) :
    (r.modifyChannel other change).isRemoved id = r.isRemoved id := by
  unfold isRemoved
  rw [filter?_modifyChannel]
  split
  · cases r.filter? id <;> rfl
  · rfl

theorem isRemoved_remove (removed : r.remove? other = some after) :
    after.isRemoved id = if id = other then true else r.isRemoved id := by
  unfold isRemoved
  rw [filter?_remove removed]
  split
  · cases r.filter? id <;> rfl
  · rfl

theorem isRemoved_leave (different : id ≠ other) :
    (r.leave other).isRemoved id = r.isRemoved id := by
  simp [isRemoved, filter?_leave, different]

theorem isRemoved_close : r.close.isRemoved id = (r.isRemoved id || decide (id ∈ r.entries)) := by
  unfold isRemoved
  rw [filter?_close]
  cases r.filter? id with
  | none => rfl
  | some f => by_cases listed : id ∈ r.entries <;> simp [listed, markRemoved]

/-- The invariant of the registry: index and arena list the filters that are not removed, the index
newest first, and both are empty after teardown. -/
structure WellFormed (r : Registry) : Prop where
  newestFirst : r.active.Pairwise (· > ·)
  active_iff : ∀ id, id ∈ r.active ↔ r.isRemoved id = false
  entries : r.entries.Perm r.active
  closed : r.closed = true → r.active = []

theorem WellFormed.exists_of_active (sound : r.WellFormed) (active : id ∈ r.active) :
    ∃ f, r.filter? id = some f ∧ f.removed = false := by
  have kept := (sound.active_iff id).mp active
  cases found : r.filter? id with
  | none => simp [isRemoved, found] at kept
  | some f => exact ⟨f, rfl, by rwa [isRemoved_eq found] at kept⟩

theorem WellFormed.lt_nextId (sound : r.WellFormed) (active : id ∈ r.active) : id < r.nextId := by
  obtain ⟨f, found, -⟩ := sound.exists_of_active active
  exact lt_nextId_of_filter? found

theorem WellFormed.nodup_active (sound : r.WellFormed) : r.active.Nodup :=
  sound.newestFirst.imp fun newer => (Nat.ne_of_lt newer).symm

theorem wellFormed_ofCapacity (capacity : Nat) : (ofCapacity capacity).WellFormed where
  newestFirst := List.Pairwise.nil
  active_iff id := by simp [ofCapacity, isRemoved, filter?]
  entries := .nil
  closed := (nomatch ·)

/-- `add` keeps index, arena and marks consistent. -/
theorem WellFormed.add (sound : r.WellFormed) (matcher : Matcher) :
    (r.add matcher).WellFormed := by
  by_cases closed : r.closed = true
  · have active : (r.add matcher).active = r.active := by simp [Registry.add, closed]
    have entries : (r.add matcher).entries = r.entries := by simp [Registry.add, closed]
    refine ⟨by rw [active]; exact sound.newestFirst, fun id => ?_,
      by rw [active, entries]; exact sound.entries, fun _ => ?_⟩
    · rw [active, isRemoved_add, sound.active_iff]
      split
      next fresh =>
        have absent : r.filter? id = none := filter?_eq_none_iff.mpr (Nat.le_of_eq fresh.symm)
        simp [isRemoved, absent, closed]
      · rfl
    · rw [active]
      exact sound.closed closed
  · have active : (r.add matcher).active = r.nextId :: r.active := by simp [Registry.add, closed]
    have fresh : r.nextId ∉ r.entries := fun listed =>
      Nat.lt_irrefl _ (sound.lt_nextId (sound.entries.mem_iff.mp listed))
    have entries : (r.add matcher).entries = r.nextId :: r.entries := by
      simp [Registry.add, closed, fresh]
    constructor
    · rw [active]
      exact List.pairwise_cons.mpr ⟨fun id member => sound.lt_nextId member, sound.newestFirst⟩
    · intro id
      rw [active, isRemoved_add, List.mem_cons, sound.active_iff]
      split
      next fresh => simp [fresh, closed]
      next known => simp [known]
    · rw [active, entries]
      exact sound.entries.cons r.nextId
    · exact fun shut => absurd shut closed

theorem WellFormed.modifyChannel (sound : r.WellFormed)
    (change : Channel Stanza → Channel Stanza) : (r.modifyChannel other change).WellFormed where
  newestFirst := sound.newestFirst
  active_iff id := by rw [isRemoved_modifyChannel]; exact sound.active_iff id
  entries := sound.entries
  closed := sound.closed

/-- `remove?` keeps index, arena and marks consistent. -/
theorem WellFormed.remove (sound : r.WellFormed) (removed : r.remove? other = some after) :
    after.WellFormed := by
  have active : after.active = r.active.erase other := by rw [eq_of_remove? removed]
  have distinct : r.active.Nodup := sound.newestFirst.imp fun above => Nat.ne_of_gt above
  constructor
  · rw [active]
    exact sound.newestFirst.sublist List.erase_sublist
  · intro id
    rw [active, isRemoved_remove removed, distinct.mem_erase_iff, sound.active_iff]
    split
    next same => simp [same]
    next different => simp [different]
  · rw [eq_of_remove? removed]
    exact sound.entries.erase other
  · intro closed
    have shut : r.closed = true := by simpa [eq_of_remove? removed] using closed
    rw [active, sound.closed shut]
    rfl

theorem WellFormed.isRemoved_close (sound : r.WellFormed) : r.close.isRemoved id = true := by
  rw [Registry.isRemoved_close, Bool.or_eq_true, decide_eq_true_iff, sound.entries.mem_iff,
    sound.active_iff]
  cases r.isRemoved id <;> simp

theorem WellFormed.close (sound : r.WellFormed) : r.close.WellFormed where
  newestFirst := List.Pairwise.nil
  active_iff id := by rw [sound.isRemoved_close]; simp [Registry.close]
  entries := .nil
  closed _ := rfl

/-- The snapshot is the index. -/
theorem WellFormed.snapshot (sound : r.WellFormed) : r.snapshot = r.active :=
  List.filter_eq_self.mpr fun id active => by simpa using sound.entries.mem_iff.mpr active

theorem WellFormed.leave (sound : r.WellFormed) : (r.leave other).WellFormed := by
  cases removed : r.remove? other with
  | none =>
    rw [Registry.leave, removed]
    exact sound.modifyChannel _
  | some after =>
    rw [Registry.leave, removed]
    exact (sound.remove removed).modifyChannel _

/-- A property of all delivery channels, including the one that the next `add` creates. -/
structure Every (P : Channel Stanza → Prop) (r : Registry) : Prop where
  next : P (.ofCapacity r.capacity)
  channels : ∀ id f, r.filter? id = some f → P f.channel

namespace Every

variable {P : Channel Stanza → Prop}

theorem add (every : r.Every P) (matcher : Matcher) : (r.add matcher).Every P where
  next := every.next
  channels id f found := by
    rw [filter?_add] at found
    split at found
    · cases found
      exact every.next
    · exact every.channels id f found

/-- A change of one channel that keeps the property. -/
theorem modifyChannel (every : r.Every P) {change : Channel Stanza → Channel Stanza}
    (changed : ∀ f, r.filter? other = some f → P (change f.channel)) :
    (r.modifyChannel other change).Every P where
  next := every.next
  channels id f found := by
    rw [filter?_modifyChannel] at found
    split at found
    next same =>
      subst same
      obtain ⟨g, foundBefore, rfl⟩ := Option.map_eq_some_iff.mp found
      exact changed g foundBefore
    · exact every.channels id f found

theorem remove (every : r.Every P) (removed : r.remove? other = some after) : after.Every P where
  next := by
    rw [eq_of_remove? removed]
    exact every.next
  channels id f found := by
    rw [filter?_remove removed] at found
    split at found
    · obtain ⟨g, foundBefore, rfl⟩ := Option.map_eq_some_iff.mp found
      exact every.channels id g foundBefore
    · exact every.channels id f found

theorem close (every : r.Every P) : r.close.Every P where
  next := every.next
  channels id f found := by
    rw [filter?_close] at found
    obtain ⟨g, foundBefore, rfl⟩ := Option.map_eq_some_iff.mp found
    split
    · exact every.channels id g foundBefore
    · exact every.channels id g foundBefore

end Every

end Registry

end StanzaExchange
