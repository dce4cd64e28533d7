import Mathlib.Data.List.Forall2
import StanzaExchange.Element
import StanzaExchange.Proofs.Sequences

/-!
Laws of the element builders and of the look-ups (section 10.1 of the specification, module
element). A built element is determined by the last value of each attribute, the children in order,
and the last text; so builder calls that concern different places commute, and equality of built
elements is decided by these data. `Alike` spells out structural equality through the children.
-/
namespace StanzaExchange.Element

/-- What a builder call sets: an attribute, the children, or the text. -/
inductive Place where
  | attr (name : String)
  | children
  | text
  deriving DecidableEq

namespace Edit

def place : Edit → Place
  | .attr name _ => .attr name
  | .child _ => .children
  | .text _ => .text

def valueFor? (wanted : String) : Edit → Option String
  | .attr name value => if wanted = name then some value else none
  | .child _ | .text _ => none

def child? : Edit → Option Element
  | .child element => some element
  | .attr _ _ | .text _ => none

def text? : Edit → Option String
  | .text content => some content
  | .attr _ _ | .child _ => none

end Edit

def valuesSet (wanted : String) (edits : List Edit) : List String :=
  edits.filterMap (Edit.valueFor? wanted)

def childrenAdded (edits : List Edit) : List Element :=
  edits.filterMap Edit.child?

def textsSet (edits : List Edit) : List String :=
  edits.filterMap Edit.text?

def lastText (edits : List Edit) : String :=
  (textsSet edits).getLast?.getD ""

def childrenNamed (wanted : String) (edits : List Edit) : List Element :=
  (childrenAdded edits).filter fun child => child.name = wanted

/-- The contents of an element are those left by the builder calls. -/
structure Holds (e : Element) (name : String) (edits : List Edit) : Prop where
  name : e.name = name
  attrs : ∀ wanted, e.attr? wanted = (valuesSet wanted edits).getLast?
  children : e.children = childrenAdded edits
  text : e.text = lastText edits

/-- The calls at each place are the same and in the same order. -/
def Reordered (edits others : List Edit) : Prop :=
  ∀ place, edits.filter (fun step => step.place = place) =
    others.filter fun step => step.place = place

/-- Elements with equal names, attributes and texts, and pairwise alike children. -/
inductive Alike : Element → Element → Prop
  | intro {a b : Element} (name : a.name = b.name)
      (attrs : ∀ wanted, a.attr? wanted = b.attr? wanted)
      (children : List.Forall₂ Alike a.children b.children) (text : a.text = b.text) : Alike a b

variable {e other : Element} {name otherName : String} {edits others : List Edit}

/-- Elements with equal name, attributes, children and text are equal. -/
theorem eq_of_shown (name : e.name = other.name)
    (attrs : ∀ wanted, e.attr? wanted = other.attr? wanted)
    (children : e.children = other.children) (text : e.text = other.text) : e = other := by
  have values : e.attrs = other.attrs := Attributes.ext_get? attrs
  obtain ⟨_, _, _, _⟩ := e
  obtain ⟨_, _, _, _⟩ := other
  cases name
  cases values
  cases children
  cases text
  rfl

-- Elements contain rows of elements, so each proof about them comes with one about rows.
mutual

theorem Alike.eq : (e other : Element) → Alike e other → e = other
  | ⟨_, _, children, _⟩, ⟨_, _, children', _⟩, .intro name attrs alike text =>
    eq_of_shown name attrs (Alike.eq_all children children' alike) text

theorem Alike.eq_all : (es others : List Element) → List.Forall₂ Alike es others → es = others
  | [], [], _ => rfl
  | e :: es, other :: others, .cons head tail => by
    rw [Alike.eq e other head, Alike.eq_all es others tail]

end

mutual

theorem Alike.refl : (e : Element) → Alike e e
  | ⟨_, _, children, _⟩ => .intro rfl (fun _ => rfl) (Alike.refl_all children) rfl

theorem Alike.refl_all : (es : List Element) → List.Forall₂ Alike es es
  | [] => .nil
  | e :: es => .cons (Alike.refl e) (Alike.refl_all es)

end

theorem eq_iff_alike : e = other ↔ Alike e other :=
  ⟨fun same => same ▸ Alike.refl e, Alike.eq e other⟩

theorem attr?_edit (e : Element) (step : Edit) (wanted : String) :
    (e.edit step).attr? wanted = (step.valueFor? wanted).or (e.attr? wanted) := by
  cases step with
  | attr name value =>
    change (e.attrs.insert name value).get? wanted = _
    rw [Attributes.get?_insert, Edit.valueFor?]
    split <;> rfl
  | child element => rfl
  | text text => rfl

theorem children_edit (e : Element) (step : Edit) :
    (e.edit step).children = e.children ++ step.child?.toList := by
  cases step with
  | attr name value => exact (List.append_nil _).symm
  | child element => rfl
  | text text => exact (List.append_nil _).symm

theorem text_edit (e : Element) (step : Edit) : (e.edit step).text = step.text?.getD e.text := by
  cases step <;> rfl

theorem name_edit (e : Element) (step : Edit) : (e.edit step).name = e.name := by
  cases step <;> rfl

theorem holds_named (name : String) : (named name).Holds name [] :=
  ⟨rfl, fun _ => rfl, rfl, rfl⟩

theorem Holds.edit (holds : e.Holds name edits) (step : Edit) :
    (e.edit step).Holds name (edits ++ [step]) where
  name := by rw [name_edit, holds.name]
  attrs wanted := by
    rw [attr?_edit, holds.attrs, valuesSet, valuesSet, getLast?_filterMap_concat]
  children := by
    rw [children_edit, holds.children, childrenAdded, childrenAdded, filterMap_concat]
  text := by
    rw [text_edit, holds.text, lastText, lastText, textsSet, textsSet, getLast?_filterMap_concat,
      Option.getD_or]

/-- A built element holds what its calls leave. -/
theorem holds_build (name : String) (edits : List Edit) : (build name edits).Holds name edits := by
  induction edits using List.reverseRecOn with
  | nil => exact holds_named name
  | append_singleton edits step ih =>
    rw [build, List.foldl_append]
    exact ih.edit step

theorem Holds.child? (holds : e.Holds name edits) (wanted : String) :
    e.child? wanted = (childrenNamed wanted edits).head? := by
  rw [Element.child?, holds.children, childrenNamed, List.head?_filter]

/-- Equality of elements from equality of what the calls leave. -/
theorem Holds.eq_iff (holds : e.Holds name edits) (otherHolds : other.Holds otherName others) :
    e = other ↔ name = otherName ∧
      (∀ wanted, (valuesSet wanted edits).getLast? = (valuesSet wanted others).getLast?) ∧
      childrenAdded edits = childrenAdded others ∧ lastText edits = lastText others := by
  simp only [← holds.name, ← holds.attrs, ← holds.children, ← holds.text, ← otherHolds.name,
    ← otherHolds.attrs, ← otherHolds.children, ← otherHolds.text]
  constructor
  · rintro rfl
    exact ⟨rfl, fun _ => rfl, rfl, rfl⟩
  · rintro ⟨name, attrs, children, text⟩
    exact eq_of_shown name attrs children text

/-- What is set at a place depends on the calls at that place only. -/
theorem filterMap_filter_place {α : Type} {sets : Edit → Option α} {place : Place}
    (elsewhere : ∀ step : Edit, step.place ≠ place → sets step = none) (edits : List Edit) :
    (edits.filter fun step => step.place = place).filterMap sets = edits.filterMap sets := by
  rw [List.filterMap_filter]
  congr
  funext step
  by_cases there : step.place = place
  · simp [there]
  · simp [there, elsewhere step there]

theorem Reordered.filterMap_eq {α : Type} {sets : Edit → Option α} (same : Reordered edits others)
    (place : Place) (elsewhere : ∀ step : Edit, step.place ≠ place → sets step = none) :
    edits.filterMap sets = others.filterMap sets := by
  rw [← filterMap_filter_place elsewhere, same place, filterMap_filter_place elsewhere]

theorem Reordered.valuesSet_eq (same : Reordered edits others) (wanted : String) :
    valuesSet wanted edits = valuesSet wanted others :=
  same.filterMap_eq (.attr wanted) fun step elsewhere => by
    cases step with
    | attr name value => exact if_neg fun found => elsewhere (congrArg Place.attr found.symm)
    | child element => rfl
    | text text => rfl

theorem Reordered.childrenAdded_eq (same : Reordered edits others) :
    childrenAdded edits = childrenAdded others :=
  same.filterMap_eq .children fun step elsewhere => by
    cases step with
    | child element => exact absurd rfl elsewhere
    | attr name value => rfl
    | text text => rfl

theorem Reordered.textsSet_eq (same : Reordered edits others) : textsSet edits = textsSet others :=
  same.filterMap_eq .text fun step elsewhere => by
    cases step with
    | text text => exact absurd rfl elsewhere
    | attr name value => rfl
    | child element => rfl

theorem Reordered.build_eq (same : Reordered edits others) (name : String) :
    build name edits = build name others := by
  refine ((holds_build name edits).eq_iff (holds_build name others)).mpr
    ⟨rfl, fun wanted => ?_, same.childrenAdded_eq, ?_⟩
  · rw [same.valuesSet_eq]
  · rw [lastText, lastText, same.textsSet_eq]

/-- Adjacent calls at different places commute. -/
theorem Reordered.swap (before : List Edit) {first second : Edit} (after : List Edit)
    (different : first.place ≠ second.place) :
    Reordered (before ++ first :: second :: after) (before ++ second :: first :: after) := by
  intro place
  rw [List.filter_append, List.filter_append]
  congr 1
  by_cases atFirst : first.place = place
  · have atSecond : second.place ≠ place := fun same => different (atFirst.trans same.symm)
    simp [atFirst, atSecond]
  · simp [List.filter_cons, atFirst]

theorem Reordered.trans {middle : List Edit} (first : Reordered edits middle)
    (second : Reordered middle others) : Reordered edits others :=
  fun place => (first place).trans (second place)

/-- A built element has the last value of each attribute and none for a name never set, the children
in order, and the last text; look-ups by name find the first child added with it, and the start tag
has the same name and attributes. Two call sequences build equal elements exactly if they start with
the same name and leave the same attributes, children and text, so the order of calls at different
places is irrelevant. Elements are equal exactly if they are alike. -/
theorem build_exact (name : String) (edits : List Edit) :
    (build name edits).Holds name edits ∧
    (∀ wanted, (build name edits).child? wanted = (childrenNamed wanted edits).head? ∧
      (build name edits).childText? wanted = (childrenNamed wanted edits).head?.map (·.text)) ∧
    ((build name edits).startTag.name = name ∧
      ∀ wanted, (build name edits).startTag.attr? wanted = (build name edits).attr? wanted) ∧
    (∀ otherName others, build name edits = build otherName others ↔ name = otherName ∧
      (∀ wanted, (valuesSet wanted edits).getLast? = (valuesSet wanted others).getLast?) ∧
      childrenAdded edits = childrenAdded others ∧ lastText edits = lastText others) ∧
    (∀ others, Reordered edits others → build name edits = build name others) ∧
    ∀ other, build name edits = other ↔ Alike (build name edits) other := by
  have holds := holds_build name edits
  refine ⟨holds, fun wanted => ⟨holds.child? wanted, ?_⟩, ⟨holds.name, fun _ => rfl⟩,
    fun otherName others => holds.eq_iff (holds_build otherName others),
    fun others same => same.build_eq name, fun other => eq_iff_alike⟩
  rw [Element.childText?, holds.child?]

/-- A message that is redirected, with two bodies. -/
def redirected (first second : String) : List Edit :=
  [.attr "to" "a", .child (build "body" [.text first]), .attr "id" "one",
    .child (build "body" [.text second]), .attr "to" "b", .text "noise"]

/-- The same calls in another order. -/
def rearranged (first second : String) : List Edit :=
  [.attr "id" "one", .attr "to" "a", .child (build "body" [.text first]),
    .child (build "body" [.text second]), .text "noise", .attr "to" "b"]

/-- Three exchanges of adjacent calls. -/
theorem reordered_redirected (first second : String) :
    Reordered (redirected first second) (rearranged first second) := by
  have passesBody : Reordered (redirected first second) ([.attr "to" "a"] ++ .attr "id" "one" ::
      .child (build "body" [.text first]) ::
        [.child (build "body" [.text second]), .attr "to" "b", .text "noise"]) :=
    .swap [.attr "to" "a"] _ (by simp [Edit.place])
  have passesAddress : Reordered _ (.attr "id" "one" :: .attr "to" "a" ::
      [.child (build "body" [.text first]), .child (build "body" [.text second]), .attr "to" "b",
        .text "noise"]) :=
    .swap [] _ (by simp [Edit.place])
  have textPasses : Reordered _ (rearranged first second) :=
    .swap [.attr "id" "one", .attr "to" "a", .child (build "body" [.text first]),
      .child (build "body" [.text second])] [] (by simp [Edit.place])
  exact passesBody.trans (passesAddress.trans textPasses)

theorem build_exact_redirected :
    (build "message" (redirected "hello" "bye")).attr? "to" = some "b" ∧
      (build "message" (redirected "hello" "bye")).childText? "body" = some "hello" ∧
      Reordered (redirected "hello" "bye") (rearranged "hello" "bye") ∧
      build "message" (redirected "hello" "bye") = build "message" (rearranged "hello" "bye") ∧
      build "message" (redirected "hello" "bye") ≠ build "message" (redirected "bye" "hello") := by
  obtain ⟨holds, found, -, same, reordered, -⟩ :=
    build_exact "message" (redirected "hello" "bye")
  have order := reordered_redirected "hello" "bye"
  refine ⟨(holds.attrs "to").trans (by decide), (found "body").2.trans (by decide +kernel), order,
    reordered _ order, fun equal => ?_⟩
  obtain ⟨-, -, children, -⟩ := (same _ _).mp equal
  exact absurd children (by decide +kernel)

end StanzaExchange.Element
