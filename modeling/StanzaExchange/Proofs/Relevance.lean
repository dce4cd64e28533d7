import StanzaExchange.Proofs.Rank

/-!
The parts of an element that decoding reads (module decode of section 10.1 of the specification):
name, four attributes, and per tag the texts of first children by name, the first child as payload,
or the first child other than text as condition. `AgreesOn.decode_eq` proves that nothing else
matters, `supplies_decode` that the fields hold these parts verbatim.
-/
namespace StanzaExchange

/-- The names of the children whose texts are read. -/
def Tag.textNames : Tag → List String
  | .error => ["text"]
  | .iq => []
  | .message => ["subject", "body", "thread"]
  | .presence => ["show", "status", "priority"]

/-- Replaces the payload of an iq or the condition of an error. -/
def Stanza.rearranged (payload : Option Element) (condition : String) : Stanza → Stanza
  | .iq query => .iq { query with payload }
  | .error fault => .error { fault with condition }
  | other => other

namespace Element

variable {tag : Tag} {e other : Element} {name : String} {children more : List Element}

/-- The attributes that are read. -/
def countedAttrs : List String := ["id", "type", "from", "to"]

/-- The text of the first child of the name. -/
def ShowsText (e : Element) (name text : String) : Prop :=
  ∃ before first after, e.HasFirst name before first after ∧ first.text = text

/-- The name of the first child other than text. -/
def ShowsCondition (e : Element) (condition : String) : Prop :=
  ∃ before first after, e.children = before ++ first :: after ∧ first.name = condition ∧
    condition ≠ "text" ∧ ∀ child ∈ before, child.name = "text"

/-- Agreement on all parts read for the tag. -/
structure AgreesOn (tag : Tag) (e other : Element) : Prop where
  name : e.name = other.name
  attrs : ∀ attr ∈ countedAttrs, e.attr? attr = other.attr? attr
  texts : ∀ name ∈ tag.textNames, ∀ text, e.ShowsText name text ↔ other.ShowsText name text
  payload : tag = .iq → e.children.head? = other.children.head?
  condition : tag = .error →
    ∀ condition, e.ShowsCondition condition ↔ other.ShowsCondition condition

/-- The field holds the text of the first child of the name, or nothing if there is none. -/
def Fills (e : Element) (name : String) (field : Option String) : Prop :=
  (∀ text, field = some text ↔ e.ShowsText name text) ∧
    (field = none ↔ ∀ child ∈ e.children, child.name ≠ name)

/-- The fields of the stanza hold the parts of the element verbatim. -/
def Supplies (e : Element) : Stanza → Prop
  | .iq query => e.attr? "id" = some query.id ∧ query.payload = e.children.head?
  | .message message => message.id = e.attr? "id" ∧ e.Fills "subject" message.subject ∧
      e.Fills "body" message.body ∧ e.Fills "thread" message.thread
  | .presence presence => presence.id = e.attr? "id" ∧ e.Fills "show" presence.shown ∧
      e.Fills "status" presence.status
  | .error error => e.Fills "text" error.text ∧
      (∀ condition, e.ShowsCondition condition → error.condition = condition) ∧
      ((∀ child ∈ e.children, child.name = "text") → error.condition = "")
  | .unknown _ | .malformed _ _ _ | .failure _ => False

/-- `ShowsText` is the look-up of a child text. -/
theorem showsText_iff {text : String} : e.ShowsText name text ↔ e.childText? name = some text := by
  constructor
  · rintro ⟨before, first, after, has, rfl⟩
    exact has.childText?
  · intro shown
    obtain ⟨first, found, rfl⟩ := Option.map_eq_some_iff.mp shown
    obtain ⟨named, before, after, children, earlier⟩ := List.find?_eq_some_iff_append.mp found
    refine ⟨before, first, after, ⟨children, by simpa using named, fun child member => ?_⟩, rfl⟩
    simpa using earlier child member

theorem fills_childText? (e : Element) (name : String) : e.Fills name (e.childText? name) :=
  ⟨fun _ => showsText_iff.symm, childText?_eq_none_iff⟩

theorem childText?_congr
    (same : ∀ text, e.ShowsText name text ↔ other.ShowsText name text) :
    e.childText? name = other.childText? name :=
  Option.ext fun text => by rw [← showsText_iff, ← showsText_iff, same]

def condition? (e : Element) : Option String :=
  (e.children.find? fun child => child.name ≠ "text").map (·.name)

/-- `ShowsCondition` is the look-up of the condition. -/
theorem showsCondition_iff {condition : String} :
    e.ShowsCondition condition ↔ e.condition? = some condition := by
  unfold ShowsCondition condition?
  rw [Option.map_eq_some_iff]
  constructor
  · rintro ⟨before, first, after, children, rfl, other, texts⟩
    refine ⟨first, List.find?_eq_some_iff_append.mpr ⟨by simpa using other, before, after, children,
      fun child member => ?_⟩, rfl⟩
    simpa using texts child member
  · rintro ⟨first, found, rfl⟩
    obtain ⟨other, before, after, children, texts⟩ := List.find?_eq_some_iff_append.mp found
    refine ⟨before, first, after, children, rfl, by simpa using other, fun child member => ?_⟩
    simpa using texts child member

theorem decodeIq_congr (attrs : ∀ attr ∈ countedAttrs, e.attr? attr = other.attr? attr)
    (payload : e.children.head? = other.children.head?) : e.decodeIq = other.decodeIq := by
  simp only [countedAttrs, List.forall_mem_cons, List.not_mem_nil, false_implies, implies_true,
    and_true] at attrs
  obtain ⟨id, type, sender, recipient⟩ := attrs
  simp only [decodeIq, requiredAttr, address?, id, type, sender, recipient, payload]

theorem decodeMessage_congr (attrs : ∀ attr ∈ countedAttrs, e.attr? attr = other.attr? attr)
    (texts : ∀ name ∈ Tag.message.textNames, e.childText? name = other.childText? name) :
    e.decodeMessage = other.decodeMessage := by
  simp only [countedAttrs, Tag.textNames, List.forall_mem_cons, List.not_mem_nil, false_implies,
    implies_true, and_true] at attrs texts
  obtain ⟨id, type, sender, recipient⟩ := attrs
  obtain ⟨subject, body, thread⟩ := texts
  simp only [decodeMessage, type?, address?, id, type, sender, recipient, subject, body, thread]

theorem decodeStreamError_congr
    (texts : ∀ name ∈ Tag.error.textNames, e.childText? name = other.childText? name)
    (condition : e.condition? = other.condition?) :
    e.decodeStreamError = other.decodeStreamError := by
  have text : e.childText? "text" = other.childText? "text" :=
    texts "text" (by simp [Tag.textNames])
  change StreamError.mk (e.condition?.getD "") _ = StreamError.mk (other.condition?.getD "") _
  rw [condition, text]

/-- Elements that agree on these parts decode equally. -/
theorem AgreesOn.decode_eq (agrees : AgreesOn tag e other) : e.decode tag = other.decode tag := by
  have texts : ∀ name ∈ tag.textNames, e.childText? name = other.childText? name :=
    fun name member => childText?_congr (agrees.texts name member)
  unfold decode
  rw [agrees.name]
  split
  · rfl
  · cases tag with
    | error =>
      have condition : e.condition? = other.condition? := Option.ext fun condition => by
        rw [← showsCondition_iff, ← showsCondition_iff, agrees.condition rfl]
      rw [decodeStreamError_congr texts condition]
    | iq => rw [decodeIq_congr agrees.attrs (agrees.payload rfl)]
    | message => rw [decodeMessage_congr agrees.attrs texts]
    | presence => rw [decodePresence_congr agrees.attrs texts]

theorem supplies_decodeIq {query : Iq} (read : e.decodeIq = .ok query) :
    e.Supplies (.iq query) := by
  obtain ⟨id, there, read⟩ := bind_eq_ok_iff.mp read
  obtain ⟨value, -, read⟩ := bind_eq_ok_iff.mp read
  obtain ⟨type, -, read⟩ := bind_eq_ok_iff.mp read
  obtain ⟨sender, -, read⟩ := bind_eq_ok_iff.mp read
  obtain ⟨recipient, -, read⟩ := bind_eq_ok_iff.mp read
  obtain rfl := Except.ok.inj read
  exact ⟨attr?_of_requiredAttr there, rfl⟩

theorem supplies_decodeMessage {message : Message} (read : e.decodeMessage = .ok message) :
    e.Supplies (.message message) := by
  obtain ⟨type, -, read⟩ := bind_eq_ok_iff.mp read
  obtain ⟨sender, -, read⟩ := bind_eq_ok_iff.mp read
  obtain ⟨recipient, -, read⟩ := bind_eq_ok_iff.mp read
  obtain rfl := Except.ok.inj read
  exact ⟨rfl, e.fills_childText? _, e.fills_childText? _, e.fills_childText? _⟩

theorem supplies_decodePresence {presence : Presence} (read : e.decodePresence = .ok presence) :
    e.Supplies (.presence presence) := by
  obtain ⟨type, -, read⟩ := bind_eq_ok_iff.mp read
  obtain ⟨rank, -, read⟩ := bind_eq_ok_iff.mp read
  obtain ⟨sender, -, read⟩ := bind_eq_ok_iff.mp read
  obtain ⟨recipient, -, read⟩ := bind_eq_ok_iff.mp read
  obtain rfl := Except.ok.inj read
  exact ⟨rfl, e.fills_childText? _, e.fills_childText? _⟩

theorem supplies_decodeStreamError (e : Element) : e.Supplies (.error e.decodeStreamError) := by
  refine ⟨e.fills_childText? _, fun condition shown => ?_, fun texts => ?_⟩
  · change e.condition?.getD "" = condition
    rw [showsCondition_iff.mp shown, Option.getD_some]
  · have absent : e.condition? = none := by simpa [condition?] using texts
    change e.condition?.getD "" = ""
    rw [absent, Option.getD_none]

/-- A decoded stanza holds the parts of its element. -/
theorem supplies_decode {stanza : Stanza} (read : e.decode tag = .ok stanza) :
    e.Supplies stanza := by
  unfold decode at read
  split at read
  · cases read
  · cases tag with
    | error =>
      obtain rfl := Except.ok.inj read
      exact e.supplies_decodeStreamError
    | iq =>
      obtain ⟨query, content, rfl⟩ := map_eq_ok_iff.mp read
      exact supplies_decodeIq content
    | message =>
      obtain ⟨message, content, rfl⟩ := map_eq_ok_iff.mp read
      exact supplies_decodeMessage content
    | presence =>
      obtain ⟨presence, content, rfl⟩ := map_eq_ok_iff.mp read
      exact supplies_decodePresence content

theorem attr?_withAttr_of_ne {attr wanted value : String} (different : wanted ≠ attr) :
    (e.withAttr attr value).attr? wanted = e.attr? wanted := by
  change (e.attrs.insert attr value).get? wanted = e.attrs.get? wanted
  rw [Attributes.get?_insert, if_neg different]

theorem AgreesOn.of_children (name : e.name = other.name)
    (attrs : ∀ attr ∈ countedAttrs, e.attr? attr = other.attr? attr)
    (children : e.children = other.children) : AgreesOn tag e other where
  name := name
  attrs := attrs
  texts wanted _ text := by
    rw [showsText_iff, showsText_iff, childText?, child?, childText?, child?, children]
  payload _ := by rw [children]
  condition _ condition := by
    rw [showsCondition_iff, showsCondition_iff, condition?, condition?, children]

/-- Further children of names already present are not found by name. -/
theorem find?_append_of_named {p : String → Bool}
    (named : ∀ child ∈ more, ∃ old ∈ children, old.name = child.name) :
    (children ++ more).find? (fun child => p child.name) =
      children.find? fun child => p child.name := by
  rw [List.find?_append]
  cases found : children.find? fun child => p child.name with
  | some first => rfl
  | none =>
    rw [Option.none_or, List.find?_eq_none]
    intro child member
    obtain ⟨old, there, same⟩ := named child member
    exact same ▸ List.find?_eq_none.mp found old there

/-- Further children of names already present leave all parts unchanged. -/
theorem agreesOn_append (named : ∀ child ∈ more, ∃ old ∈ e.children, old.name = child.name) :
    AgreesOn tag { e with children := e.children ++ more } e where
  name := rfl
  attrs _ _ := rfl
  texts wanted _ text := by
    have found := find?_append_of_named (p := fun name => name = wanted) named
    rw [showsText_iff, showsText_iff, childText?, child?, childText?, child?, found]
  payload _ := by
    cases there : e.children with
    | nil =>
      cases more with
      | nil => rfl
      | cons child rest =>
        obtain ⟨old, member, -⟩ := named child List.mem_cons_self
        rw [there] at member
        cases member
    | cons first rest => simp
  condition _ condition := by
    have found := find?_append_of_named (p := fun name => name ≠ "text") named
    rw [showsCondition_iff, showsCondition_iff, condition?, condition?, found]

/-- The first texts of the names that are read are unchanged. -/
def KeepsTexts (tag : Tag) (e : Element) (children : List Element) : Prop :=
  ∀ name ∈ tag.textNames, children.filter (fun child => child.name = name) =
    e.children.filter (fun child => child.name = name)

theorem KeepsTexts.childText?_eq (keeps : KeepsTexts tag e children) :
    ∀ name ∈ tag.textNames,
      ({ e with children } : Element).childText? name = e.childText? name := by
  intro name member
  rw [childText?, child?, childText?, child?, ← List.head?_filter, ← List.head?_filter,
    keeps name member]

theorem decodeIq_rearranged (e : Element) (children : List Element) :
    ({ e with children } : Element).decodeIq =
      e.decodeIq.map fun query => { query with payload := children.head? } := by
  simp only [decodeIq, map_bind]
  rfl

/-- Reordered children decode equally, up to the payload and the condition. -/
theorem KeepsTexts.decode_eq (keeps : KeepsTexts tag e children) :
    ∃ condition, ({ e with children } : Element).decode tag =
      (e.decode tag).map (Stanza.rearranged children.head? condition) := by
  have texts := keeps.childText?_eq
  unfold decode
  split
  · exact ⟨"", rfl⟩
  · cases tag with
    | error =>
      have text : ({ e with children } : Element).childText? "text" = e.childText? "text" :=
        texts "text" (by simp [Tag.textNames])
      refine ⟨({ e with children } : Element).decodeStreamError.condition, ?_⟩
      change Except.ok (Stanza.error ⟨_, _⟩) = Except.ok (Stanza.error ⟨_, _⟩)
      rw [text]
      rfl
    | iq =>
      refine ⟨"", ?_⟩
      rw [decodeIq_rearranged]
      cases e.decodeIq <;> rfl
    | message =>
      have content : ({ e with children } : Element).decodeMessage = e.decodeMessage :=
        decodeMessage_congr (fun _ _ => rfl) texts
      refine ⟨"", ?_⟩
      rw [content]
      cases e.decodeMessage <;> rfl
    | presence =>
      have content : ({ e with children } : Element).decodePresence = e.decodePresence :=
        decodePresence_congr (fun _ _ => rfl) texts
      refine ⟨"", ?_⟩
      rw [content]
      cases e.decodePresence <;> rfl

theorem KeepsTexts.agreesOn (keeps : KeepsTexts tag e children) (notIq : tag ≠ .iq)
    (notError : tag ≠ .error) : AgreesOn tag { e with children } e where
  name := rfl
  attrs _ _ := rfl
  texts wanted member text := by
    rw [showsText_iff, showsText_iff, keeps.childText?_eq wanted member]
  payload same := absurd same notIq
  condition same := absurd same notError

/-- Decoding depends on name, four attributes and the children read for the tag: elements that agree
on them decode equally, with equal errors. Fields hold these parts verbatim, an empty text included,
and are absent only if the part is. So other attributes, the text of the element, the order of
children of different names and further children of names already present have no influence; only
the payload of an iq and the condition of an error depend on which child comes first. -/
theorem only_parts_count (tag : Tag) (e : Element) :
    (∀ other, AgreesOn tag e other → e.decode tag = other.decode tag) ∧
    (∀ stanza, e.decode tag = .ok stanza → e.Supplies stanza) ∧
    (∀ attr value, attr ∉ countedAttrs → (e.withAttr attr value).decode tag = e.decode tag) ∧
    (∀ text, (e.withText text).decode tag = e.decode tag) ∧
    (∀ children, KeepsTexts tag e children →
      (tag ≠ .iq → tag ≠ .error → ({ e with children } : Element).decode tag = e.decode tag) ∧
      ∃ condition, ({ e with children } : Element).decode tag =
        (e.decode tag).map (Stanza.rearranged children.head? condition)) ∧
    ∀ more : List Element, (∀ child ∈ more, ∃ old ∈ e.children, old.name = child.name) →
      ({ e with children := e.children ++ more } : Element).decode tag = e.decode tag := by
  refine ⟨fun other agrees => agrees.decode_eq, fun stanza => supplies_decode,
    fun attr value uncounted => ?_, fun text => ?_,
    fun children keeps => ⟨fun notIq notError => ?_, keeps.decode_eq⟩,
    fun more named => (agreesOn_append named).decode_eq⟩
  · have agrees : AgreesOn tag (e.withAttr attr value) e :=
      .of_children rfl (fun counted member =>
        attr?_withAttr_of_ne fun same => uncounted (same ▸ member)) rfl
    exact agrees.decode_eq
  · have agrees : AgreesOn tag (e.withText text) e := .of_children rfl (fun _ _ => rfl) rfl
    exact agrees.decode_eq
  · exact (keeps.agreesOn notIq notError).decode_eq

/-- A message with redundant parts. -/
def annotated : Element :=
  .build "message"
    [.attr "id" "first", .attr "lang" "en", .child (.build "subject" [.text " greeting "]),
      .child (.build "body" [.text ""]), .child (.build "subject" [.text "later"]), .text "noise"]

/-- The same message without them, reordered. -/
def concise : Element :=
  .build "message"
    [.child (.build "body" [.text ""]), .child (.build "subject" [.text " greeting "]),
      .attr "id" "first"]

theorem only_parts_count_annotated :
    annotated.decode .message = .ok (.message
        { id := some "first", subject := some " greeting ", body := some "" }) ∧
      annotated.decode .message = concise.decode .message ∧
      annotated.Fills "body" (some "") ∧ annotated.Fills "thread" none ∧
      (annotated.withAttr "lang" "de").decode .message = annotated.decode .message ∧
      (annotated.withText "").decode .message = annotated.decode .message ∧
      ({ annotated with children := concise.children ++ [.build "subject" [.text "later"]] } :
        Element).decode .message = annotated.decode .message ∧
      ({ annotated with children := annotated.children ++ [.build "body" [.text "more"]] } :
        Element).decode .message = annotated.decode .message := by
  have read : annotated.decode .message = .ok (.message
      { id := some "first", subject := some " greeting ", body := some "" }) := by decide +kernel
  have texts : ∀ name ∈ Tag.message.textNames,
      annotated.childText? name = concise.childText? name := by decide +kernel
  have agrees : AgreesOn .message annotated concise :=
    ⟨rfl, by decide +kernel,
      fun name member text => by rw [showsText_iff, showsText_iff, texts name member], nofun, nofun⟩
  obtain ⟨alike, supplied, attrs, text, rearranged, appended⟩ := only_parts_count .message annotated
  obtain ⟨-, -, body, thread⟩ := supplied _ read
  refine ⟨read, alike concise agrees, body, thread, attrs "lang" "de" (by decide), text "", ?_, ?_⟩
  · exact (rearranged _ (by unfold KeepsTexts; decide +kernel)).1 nofun nofun
  · exact appended _ (by decide +kernel)

end Element

end StanzaExchange
