import StanzaExchange.Proofs.Correlation

/-!
Classification of elements (section 4.4, step 3, and section 7 of the specification): the stanza
made of an element depends on that element alone. The receiver task materialises the body in the
same poll in which it has read the tag, so the slot of the pending body holds the one asked for, and
decoding can fail only for its content.
-/
namespace StanzaExchange

open Inflow (Flow Touch Advance)

namespace DecodeError

/-- The error is about content, neither a missing body nor an unexpected element. -/
def isOfContent : DecodeError → Bool
  | .unexpectedElement _ _ | .missingBody _ => false
  | .missingAttribute _ _ | .invalidAttribute _ _ _ | .invalidJid _ => true

private theorem head?_append {text rest : String} {letter : Char}
    (first : text.toList.head? = some letter) : (text ++ rest).toList.head? = some letter := by
  rw [String.toList_append, List.head?_append, first, Option.some_or]

private theorem head?_of_content {error : DecodeError} (ofContent : error.isOfContent = true) :
    error.message.toList.head? = some '<' ∨ error.message.toList.head? = some 'i' := by
  cases error with
  | missingAttribute tag attr => exact .inl (head?_append (head?_append (head?_append rfl)))
  | invalidAttribute tag attr value =>
    exact .inl (head?_append (head?_append (head?_append (head?_append (head?_append rfl)))))
  | invalidJid error => exact .inr (head?_append rfl)
  | unexpectedElement expected found => cases ofContent
  | missingBody name => cases ofContent

private theorem head?_of_form {error : DecodeError} (ofForm : error.isOfContent = false) :
    error.message.toList.head? = some 'e' ∨ error.message.toList.head? = some 'n' := by
  cases error with
  | unexpectedElement expected found =>
    exact .inl (head?_append (head?_append (head?_append (head?_append rfl))))
  | missingBody name => exact .inr (head?_append (head?_append rfl))
  | missingAttribute tag attr => cases ofForm
  | invalidAttribute tag attr value => cases ofForm
  | invalidJid error => cases ofForm

/-- The messages of the two kinds of errors start differently. -/
theorem message_ne {error other : DecodeError} (ofContent : error.isOfContent = true)
    (ofForm : other.isOfContent = false) : error.message ≠ other.message := by
  intro same
  have first := head?_of_content ofContent
  rw [same] at first
  rcases first with first | first <;> rcases head?_of_form ofForm with others | others <;>
    cases first.symm.trans others

end DecodeError

/-- Every error is about content. -/
def RefusesContent {α : Type} (read : Except DecodeError α) : Prop :=
  ∀ error, read = .error error → error.isOfContent = true

namespace Element

variable {e : Element} {faults : Faults}

theorem decode_refuses {tag : Tag} (named : e.name = tag.name) : RefusesContent (e.decode tag) := by
  intro error refused
  obtain ⟨rule, -, broken⟩ := ((decode_checks error).mp refused).exists_breaks
  cases broken with
  | named other => exact absurd named other
  | given | typed | ranked | addressed => rfl

/-- The stanza of an element: unknown for an unknown name; decoded for one of the four tags;
malformed with the id and the message of the error if that fails. -/
def classify (e : Element) : Stanza :=
  match Tag.ofName? e.name with
  | none => .unknown e.name
  | some tag =>
    match e.decode tag with
    | .ok stanza => stanza
    | .error error => .malformed tag (e.attr? "id") error.message

/-- Without the decode fault an element is read as its classification. -/
theorem readAs_eq_classify (whole : faults.decode = false) : e.readAs faults = e.classify := by
  unfold readAs classify
  cases Tag.ofName? e.name with
  | none => rfl
  | some tag =>
    rw [whole]
    rfl

/-- A malformed stanza reports an error of content. -/
theorem of_classify_malformed {tag : Tag} {id : Option String} {reason : String}
    (malformed : e.classify = .malformed tag id reason) :
    ∃ error, e.decode tag = .error error ∧ error.isOfContent = true ∧ reason = error.message := by
  unfold classify at malformed
  split at malformed
  · cases malformed
  next known =>
    split at malformed
    next stanza decoded =>
      rw [malformed] at decoded
      exact absurd decoded decode_ne_malformed
    next error refused =>
      cases malformed
      exact ⟨error, refused, decode_refuses (Tag.name_of_ofName? known) error refused, rfl⟩

end Element

/-- The stanza whose routing starts in this step. -/
def Moment.opened (m : Moment) : Option Stanza :=
  if m.before.inflow.reader = .reading then m.after.inflow.reader.inHand else none

/-- All stanzas that were routed, in order. -/
def History.opened (h : History) : List Stanza := h.filterMap Moment.opened

theorem History.opened_concat {past : History} {m : Moment} :
    opened (past ++ [m]) = past.opened ++ m.opened.toList :=
  filterMap_concat

/-- A routed stanza is made of the element just read, whatever body was pending before. -/
theorem Moment.opened_eq (m : Moment) : m.opened.toList =
    (m.read.filterMap Arrival.element?).map (Element.readAs m.before.faults) := by
  rcases m.told_or_advances with ⟨touch, told⟩ | ⟨flow, advances⟩
  · have idle : m.opened = none := by
      rw [opened, told.inflow, Inflow.reader_touch]
      split
      next reading => rw [reading]; rfl
      · rfl
    rw [idle, told.still.1]
    rfl
  · have step : Advance m.before.faults m.before.inflow flow m.after.inflow := advances.step
    rw [advances.read, opened]
    generalize m.after.inflow = after at step
    cases step with
    | reads idle => simp [idle, Reader.inHand, Arrival.element?]
    | fails idle => simp [idle, Reader.inHand, Arrival.element?]
    | waits =>
      split
      next reading => rw [reading]; rfl
      · rfl
    | hangsUp idle => simp [idle, Reader.inHand]
    | hands busy | passes busy | surfaces busy | ends busy | puts busy | loses busy | reports busy
    | conceals busy | closes busy => simp [busy]

namespace Course

/-- The routed stanzas are those of the elements read, one for one. -/
theorem opened_eq (k : Course) :
    k.past.opened = (k.past.read.filterMap Arrival.element?).map (Element.readAs k.faults) := by
  refine k.induction (P := fun past _ => past.opened =
    (past.read.filterMap Arrival.element?).map (Element.readAs k.faults)) rfl ?_
  intro moves move j opened
  rw [History.opened_concat, History.read_concat, opened, Moment.opened_eq, List.filterMap_append,
    List.map_append]
  congr 2
  rw [j.faults_now]

/-- The arrivals read are elements, and possibly a failure at the end. -/
theorem exists_elements (k : Course) (whole : k.faults.decode = false) :
    ∃ elements : List Element, k.past.opened = elements.map Element.classify ∧
      k.past.passages.map (Passage.stanza k.faults) = k.past.opened ∧
      (k.past.read = elements.map Arrival.element ∨
        k.past.read = elements.map Arrival.element ++ [.failure k.past.failure]) := by
  have arrived : k.past.arrived = (k.past.passages.map Passage.element).map Arrival.element := by
    simp [History.arrived]
  have reads : (Element.readAs k.faults) = Element.classify :=
    funext fun _ => Element.readAs_eq_classify whole
  have elements : k.past.read.filterMap Arrival.element? = k.past.passages.map Passage.element := by
    rcases k.read_eq with read | read <;>
    · rw [read, arrived]
      simp [Arrival.element?, Function.comp_def]
  have opened : k.past.opened = (k.past.passages.map Passage.element).map Element.classify := by
    rw [k.opened_eq, elements, reads]
  refine ⟨k.past.passages.map Passage.element, opened, ?_, arrived ▸ k.read_eq⟩
  rw [opened, ← reads, List.map_map]
  rfl

/-- The routed stanza at a position is that of the element fed at this position. -/
theorem exists_fed_of_opened (k : Course) (whole : k.faults.decode = false) {n : Nat}
    {stanza : Stanza} (routed : k.past.opened[n]? = some stanza) :
    ∃ e, k.past.fed[n]? = some (.element e) ∧ stanza = e.classify := by
  obtain ⟨elements, opened, -, read⟩ := k.exists_elements whole
  rw [opened, List.getElem?_map] at routed
  obtain ⟨e, here, rfl⟩ := Option.map_eq_some_iff.mp routed
  refine ⟨e, ?_, rfl⟩
  obtain ⟨rest, fed⟩ : elements.map Arrival.element <+: k.past.fed := by
    rw [k.conserved.feed]
    rcases read with read | read <;> rw [read]
    · exact List.prefix_append _ _
    · rw [List.append_assoc]
      exact List.prefix_append _ _
  rw [← fed, List.getElem?_append_left, List.getElem?_map, here]
  · rfl
  · simpa using (List.getElem?_eq_some_iff.mp here).1

/-- With the in-process transport the routed stanzas are the classifications of the elements fed,
one for one and in order, up to a failure. No malformed stanza reports a missing body or an
unexpected element. The stanza at a position depends on the element at this position only, whether
the elements before it are skipped, decoded or refused, and whatever else happens. -/
theorem elements_classified (k : Course) (whole : k.faults.decode = false) :
    (∃ elements : List Element, k.past.opened = elements.map Element.classify ∧
      k.past.passages.map (Passage.stanza k.faults) = k.past.opened ∧
      (k.past.read = elements.map Arrival.element ∨
        k.past.read = elements.map Arrival.element ++ [.failure k.past.failure]) ∧
      k.past.fed = k.past.read ++ k.now.inflow.feed.arrivals) ∧
    (∀ (n : Nat) stanza, k.past.opened[n]? = some stanza →
      ∃ e : Element, k.past.fed[n]? = some (.element e) ∧ stanza = e.classify) ∧
    (∀ tag id reason, .malformed tag id reason ∈ k.past.opened →
      (∀ name, reason ≠ (DecodeError.missingBody name).message) ∧
      ∀ expected found, reason ≠ (DecodeError.unexpectedElement expected found).message) ∧
    (∀ j : Course, j.faults.decode = false → ∀ (n : Nat) stanza stanza',
      j.past.fed[n]? = k.past.fed[n]? → j.past.opened[n]? = some stanza →
      k.past.opened[n]? = some stanza' → stanza = stanza') := by
  refine ⟨?_, fun n stanza routed => k.exists_fed_of_opened whole routed,
    fun tag id reason routed => ?_, fun j whole' n stanza stanza' same routed routed' => ?_⟩
  · obtain ⟨elements, opened, passages, read⟩ := k.exists_elements whole
    exact ⟨elements, opened, passages, read, k.conserved.feed⟩
  · obtain ⟨elements, opened, -, -⟩ := k.exists_elements whole
    rw [opened] at routed
    obtain ⟨e, -, malformed⟩ := List.mem_map.mp routed
    obtain ⟨error, -, ofContent, rfl⟩ := Element.of_classify_malformed malformed
    exact ⟨fun name => DecodeError.message_ne ofContent rfl,
      fun expected found => DecodeError.message_ne ofContent rfl⟩
  · obtain ⟨e, fed, rfl⟩ := j.exists_fed_of_opened whole' routed
    obtain ⟨e', fed', rfl⟩ := k.exists_fed_of_opened whole routed'
    rw [same, fed'] at fed
    cases fed
    rfl

/-- Known, unknown and malformed elements, and a failure. -/
def mixed : Course where
  jid := ⟨none, "example", none⟩
  settings := { inboundCapacity := 5 }
  moves :=
    [.outside (.push (.element (.named "starttls"))),
      .outside (.push (.element (.build "iq" [.attr "id" "first", .attr "type" "none"]))),
      .outside (.push (.element (.named "iq"))), .outside (.push (.element (.named "message"))),
      .outside (.push (.failure .closed)), .outside (.push (.element (.named "presence")))] ++
      List.replicate 14 (.step .reader)

/-- The same message behind other elements. -/
def plainer : Course where
  jid := ⟨none, "other", none⟩
  settings := { inboundCapacity := 5 }
  moves :=
    List.replicate 4 (.outside (.push (.element (.named "message")))) ++
      List.replicate 12 (.step .reader)

theorem elements_classified_mixed :
    mixed.past.opened = [.unknown "starttls",
        .malformed .iq (some "first") "<iq/> has invalid \"type\": \"none\"",
        .malformed .iq none "<iq/> is missing attribute \"id\"", .message {}] ∧
      (∃ e, mixed.past.fed[2]? = some (.element e) ∧
        .malformed .iq none "<iq/> is missing attribute \"id\"" = e.classify) ∧
      plainer.past.opened[3]? = some (.message {}) ∧
      mixed.past.opened[3]? = plainer.past.opened[3]? := by
  have opened : mixed.past.opened = [.unknown "starttls",
      .malformed .iq (some "first") "<iq/> has invalid \"type\": \"none\"",
      .malformed .iq none "<iq/> is missing attribute \"id\"", .message {}] := by decide +kernel
  have other : plainer.past.opened[3]? = some (.message {}) := by decide +kernel
  have fed : plainer.past.fed[3]? = mixed.past.fed[3]? := by decide +kernel
  obtain ⟨-, classified, -, alike⟩ := mixed.elements_classified rfl
  refine ⟨opened, classified 2 _ (by rw [opened]; rfl), other, ?_⟩
  have fourth : mixed.past.opened[3]? = some (.message {}) := by rw [opened]; rfl
  rw [other, fourth, alike plainer rfl 3 _ _ fed other fourth]

end Course

end StanzaExchange
