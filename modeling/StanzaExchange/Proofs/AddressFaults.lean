import StanzaExchange.Proofs.Address

/-!
Diagnosis of strings that are no addresses (section 10.1 of the specification, module jid).
`Fault.ShownBy` states each fault by the positions and the number of the separators, independently
of the others and without following the parser; the parser reports the first one in the fixed order
of `Fault.place`.
-/
namespace StanzaExchange.Jid

variable {cs proper domain : List Char} {node resource : Option String} {fault : Fault}

/-- The part before the first slash, or the whole string. -/
def beforeSlash (cs : List Char) : List Char := cs.takeWhile (· ≠ '/')

/-- The string has the fault, whatever other faults it has. -/
def Fault.ShownBy (cs : List Char) : Fault → Prop
  -- the first slash is the last character
  | .emptyResource => cs.idxOf '/' + 1 = cs.length
  | .emptyNode => (beforeSlash cs).head? = some '@'
  -- empty, or its only at sign comes last
  | .emptyDomain => beforeSlash cs = [] ∨
      (beforeSlash cs).count '@' = 1 ∧ (beforeSlash cs).getLast? = some '@'
  | .extraSeparator => 2 ≤ (beforeSlash cs).count '@'

instance (cs : List Char) : DecidablePred (Fault.ShownBy cs)
  | .emptyResource => inferInstanceAs (Decidable (_ = _))
  | .emptyNode => inferInstanceAs (Decidable (_ = _))
  | .emptyDomain => inferInstanceAs (Decidable (_ ∨ _ ∧ _))
  | .extraSeparator => inferInstanceAs (Decidable (_ ≤ _))

/-- The order in which faults are reported. -/
def Fault.place : Fault → Nat
  | .emptyResource => 0
  | .emptyNode => 1
  | .emptyDomain => 2
  | .extraSeparator => 3

theorem Fault.place_injective : Function.Injective place := by
  intro fault other same
  cases fault <;> cases other <;> first | rfl | cases same

/-- The first fault of a string. -/
structure Fault.IsFirst (cs : List Char) (fault : Fault) : Prop where
  shown : fault.ShownBy cs
  earlier : ∀ other : Fault, other.place < fault.place → ¬other.ShownBy cs

theorem Fault.IsFirst.unique {other : Fault} (first : fault.IsFirst cs)
    (second : other.IsFirst cs) : fault = other := by
  apply place_injective
  apply Nat.le_antisymm
  · exact Nat.le_of_not_lt fun less => first.earlier other less second.shown
  · exact Nat.le_of_not_lt fun less => second.earlier fault less first.shown

theorem beforeSlash_append_behind (clean : '/' ∉ proper) :
    beforeSlash (proper ++ behind resource) = proper := by
  have all : ∀ c ∈ proper, decide (c ≠ '/') = true := by
    intro c member
    exact decide_eq_true fun same => clean (same ▸ member)
  rw [beforeSlash, List.takeWhile_append_of_pos all]
  cases resource <;> simp [behind]

theorem emptyResource_shown_iff (clean : '/' ∉ proper) {after : List Char} :
    Fault.emptyResource.ShownBy (proper ++ '/' :: after) ↔ after = [] := by
  have first : (proper ++ '/' :: after).idxOf '/' = proper.length := by
    rw [List.idxOf_append, if_neg clean, List.idxOf_cons_self, Nat.zero_add]
  rw [Fault.ShownBy, first]
  simp

/-- The only fault of the resource is that it is empty. -/
theorem splitResource_error (read : splitResource cs = .error fault) :
    fault = .emptyResource ∧ Fault.emptyResource.ShownBy cs := by
  unfold splitResource at read
  split at read
  · cases read
  next before cut =>
    cases read
    obtain ⟨clean, rfl⟩ := cut?_eq_some_iff.mp cut
    exact ⟨rfl, (emptyResource_shown_iff clean).mpr rfl⟩
  · cases read

theorem splitResource_ok (read : splitResource cs = .ok (proper, resource)) :
    beforeSlash cs = proper ∧ ¬Fault.emptyResource.ShownBy cs := by
  obtain ⟨clean, nonempty, rfl⟩ := splitResource_eq_ok_iff.mp read
  refine ⟨beforeSlash_append_behind clean, ?_⟩
  cases resource with
  | none =>
    have absent : (proper ++ behind none).idxOf '/' = (proper ++ behind none).length := by
      rw [behind, List.append_nil]
      exact List.idxOf_eq_length clean
    rw [Fault.ShownBy, absent]
    omega
  | some text =>
    intro shown
    have empty := (emptyResource_shown_iff clean).mp shown
    exact nonempty text rfl (String.toList_eq_nil_iff.mp empty)

/-- The only fault of the node is that it is empty. -/
theorem splitNode_error (read : splitNode proper = .error fault) :
    fault = .emptyNode ∧ proper.head? = some '@' := by
  unfold splitNode at read
  split at read
  · cases read
  next rest cut =>
    cases read
    obtain ⟨-, rfl⟩ := cut?_eq_some_iff.mp cut
    exact ⟨rfl, rfl⟩
  · cases read

theorem splitNode_ok (read : splitNode proper = .ok (node, domain)) :
    proper.head? ≠ some '@' := by
  obtain ⟨clean, bare, rfl⟩ := splitNode_eq_ok_iff.mp read
  intro first
  cases node with
  | none =>
    have member : '@' ∈ domain := List.mem_of_head? first
    exact bare rfl member
  | some text =>
    obtain ⟨nonempty, noAt⟩ := clean text rfl
    cases letters : text.toList with
    | nil => exact nonempty (String.toList_eq_nil_iff.mp letters)
    | cons c rest =>
      obtain rfl : c = '@' := by simpa [ahead, letters] using first
      exact noAt (letters ▸ List.mem_cons_self)

/-- The number of at signs, by node and domain. -/
theorem count_proper (read : splitNode proper = .ok (node, domain)) :
    proper.count '@' = (if node = none then 0 else 1) + domain.count '@' := by
  obtain ⟨clean, -, rfl⟩ := splitNode_eq_ok_iff.mp read
  cases node with
  | none => simp [ahead]
  | some text =>
    have none : text.toList.count '@' = 0 := List.count_eq_zero.mpr (clean text rfl).2
    rw [ahead, List.count_append, List.count_append, none, if_neg (by simp)]
    rfl

/-- The domain is empty exactly if the part before the slash is, or ends in its only at sign. -/
theorem domain_eq_nil_iff (read : splitNode proper = .ok (node, domain)) : domain = [] ↔
    proper = [] ∨ proper.count '@' = 1 ∧ proper.getLast? = some '@' := by
  have counted := count_proper read
  obtain ⟨clean, bare, rfl⟩ := splitNode_eq_ok_iff.mp read
  constructor
  · rintro rfl
    cases node with
    | none => exact .inl rfl
    | some text => exact .inr ⟨by simpa using counted, by simp [ahead]⟩
  · rintro (nothing | ⟨single, last⟩)
    · exact (List.append_eq_nil_iff.mp nothing).2
    -- a domain that ends in an at sign would be a second one, or one without a node
    · cases ending : domain.getLast? with
      | none => exact List.getLast?_eq_none_iff.mp ending
      | some c =>
        obtain rfl : c = '@' := by simpa [List.getLast?_append, ending] using last
        have member : '@' ∈ domain := List.mem_of_getLast? ending
        cases node with
        | none => exact absurd member (bare rfl)
        | some text =>
          have more : 0 < domain.count '@' := List.count_pos_iff.mpr member
          rw [if_neg (by simp)] at counted
          omega

/-- The domain has an at sign exactly if the part before the slash has two. -/
theorem mem_domain_iff (read : splitNode proper = .ok (node, domain)) :
    '@' ∈ domain ↔ 2 ≤ proper.count '@' := by
  have counted := count_proper read
  obtain ⟨-, bare, -⟩ := splitNode_eq_ok_iff.mp read
  rw [counted, ← List.count_pos_iff]
  cases node with
  | none =>
    have none : domain.count '@' = 0 := List.count_eq_zero.mpr (bare rfl)
    simp [none]
  | some text =>
    rw [if_neg (by simp)]
    omega

theorem checkDomain_error (read : checkDomain domain = .error fault) :
    (fault = .emptyDomain ∧ domain = []) ∨
      (fault = .extraSeparator ∧ domain ≠ [] ∧ '@' ∈ domain) := by
  unfold checkDomain at read
  split at read
  next empty =>
    cases read
    exact .inl ⟨rfl, empty⟩
  next nonempty =>
    split at read
    next member =>
      cases read
      exact .inr ⟨rfl, nonempty, member⟩
    · cases read

theorem ofChars_eq_error_iff_steps : ofChars cs = .error fault ↔
    splitResource cs = .error fault ∨ ∃ proper resource,
      splitResource cs = .ok (proper, resource) ∧ (splitNode proper = .error fault ∨
        ∃ node domain, splitNode proper = .ok (node, domain) ∧
          checkDomain domain = .error fault) := by
  unfold ofChars
  simp [bind_eq_error_iff, pure, Except.pure]

/-- The reported fault is the first one shown. The cases follow the parser. -/
theorem isFirst_of_error (read : ofChars cs = .error fault) : fault.IsFirst cs := by
  rcases ofChars_eq_error_iff_steps.mp read with outer | ⟨proper, resource, outer, inner⟩
  · obtain ⟨rfl, shown⟩ := splitResource_error outer
    exact ⟨shown, fun other less => absurd less (Nat.not_lt_zero _)⟩
  obtain ⟨rfl, resourceFine⟩ := splitResource_ok outer
  rcases inner with inner | ⟨node, domain, inner, checked⟩
  · obtain ⟨rfl, shown⟩ := splitNode_error inner
    refine ⟨shown, fun other less => ?_⟩
    cases other with
    | emptyResource => exact resourceFine
    | emptyNode | emptyDomain | extraSeparator => simp [Fault.place] at less
  have nodeFine := splitNode_ok inner
  rcases checkDomain_error checked with ⟨rfl, empty⟩ | ⟨rfl, nonempty, member⟩
  · refine ⟨(domain_eq_nil_iff inner).mp empty, fun other less => ?_⟩
    cases other with
    | emptyResource => exact resourceFine
    | emptyNode => exact nodeFine
    | emptyDomain | extraSeparator => simp [Fault.place] at less
  · refine ⟨(mem_domain_iff inner).mp member, fun other less => ?_⟩
    cases other with
    | emptyResource => exact resourceFine
    | emptyNode => exact nodeFine
    | emptyDomain => exact fun shown => nonempty ((domain_eq_nil_iff inner).mpr shown)
    | extraSeparator => simp [Fault.place] at less

/-- A string that parses has no fault. -/
theorem not_shown_of_ok {jid : Jid} (read : ofChars cs = .ok jid) (fault : Fault) :
    ¬fault.ShownBy cs := by
  obtain ⟨proper, domain, outer, inner, checked⟩ := ofChars_eq_ok_iff.mp read
  obtain ⟨nonempty, noAt, rfl⟩ := checkDomain_eq_ok_iff.mp checked
  obtain ⟨rfl, resourceFine⟩ := splitResource_ok outer
  cases fault with
  | emptyResource => exact resourceFine
  | emptyNode => exact splitNode_ok inner
  | emptyDomain =>
    intro shown
    exact nonempty (String.toList_eq_nil_iff.mp ((domain_eq_nil_iff inner).mpr shown))
  | extraSeparator => exact fun shown => noAt ((mem_domain_iff inner).mpr shown)

theorem ofChars_eq_error_iff : ofChars cs = .error fault ↔ fault.IsFirst cs := by
  constructor
  · exact isFirst_of_error
  · intro first
    cases read : ofChars cs with
    | ok jid => exact absurd first.shown (not_shown_of_ok read fault)
    | error found => rw [first.unique (isFirst_of_error read)]

/-- A string parses exactly if it shows no fault. -/
theorem exists_ofChars_iff :
    (∃ jid, ofChars cs = .ok jid) ↔ ∀ fault : Fault, ¬fault.ShownBy cs := by
  constructor
  · rintro ⟨jid, read⟩ fault
    exact not_shown_of_ok read fault
  · intro none
    cases read : ofChars cs with
    | ok jid => exact ⟨jid, rfl⟩
    | error found => exact absurd (isFirst_of_error read).shown (none found)

/-- The part behind the first slash is taken verbatim. -/
theorem ofChars_append_behind (clean : '/' ∉ proper) (nonempty : ∀ text ∈ resource, text ≠ "") :
    ofChars (proper ++ behind resource) =
      (ofChars proper).map fun jid => { jid with resource := resource } := by
  have outer : splitResource (proper ++ behind resource) = .ok (proper, resource) :=
    splitResource_eq_ok_iff.mpr ⟨clean, nonempty, rfl⟩
  have bare : splitResource proper = .ok (proper, none) :=
    splitResource_eq_ok_iff.mpr ⟨clean, nofun, (List.append_nil _).symm⟩
  unfold ofChars
  rw [outer, bare]
  cases inner : splitNode proper with
  | error found => simp [inner, bind, Except.bind, Except.map]
  | ok parts =>
    cases checked : checkDomain parts.2 <;>
      simp [inner, checked, bind, Except.bind, Except.map, pure, Except.pure]

theorem parse_eq_error_iff {s : String} {error : Error} :
    parse s = .error error ↔ error.text = s ∧ error.fault.IsFirst s.toList := by
  obtain ⟨fault, text⟩ := error
  have read : parse s = .error ⟨fault, text⟩ ↔ text = s ∧ ofChars s.toList = .error fault := by
    unfold parse
    cases ofChars s.toList <;> simp [and_comm, eq_comm]
  rw [read, ofChars_eq_error_iff]

theorem exists_parse_iff {s : String} :
    (∃ jid, parse s = .ok jid) ↔ ∀ fault : Fault, ¬fault.ShownBy s.toList := by
  rw [← exists_ofChars_iff]
  unfold parse
  cases ofChars s.toList <;> simp

/-- A string is refused exactly with its first fault, and the error carries the whole string; it
parses if it has none. What stands behind the first slash, separators included, has no influence on
either. -/
theorem first_fault_reported :
    (∀ s error, parse s = .error error ↔ error.text = s ∧ error.fault.IsFirst s.toList) ∧
    (∀ s, (∃ jid, parse s = .ok jid) ↔ ∀ fault : Fault, ¬fault.ShownBy s.toList) ∧
    ∀ proper resource : String, '/' ∉ proper.toList → resource ≠ "" →
      (∀ jid, parse proper = .ok jid →
        parse (proper ++ "/" ++ resource) = .ok (jid.withResource resource)) ∧
      ∀ fault, parse proper = .error ⟨fault, proper⟩ →
        parse (proper ++ "/" ++ resource) = .error ⟨fault, proper ++ "/" ++ resource⟩ := by
  refine ⟨fun s error => parse_eq_error_iff, fun s => exists_parse_iff,
    fun proper resource clean nonempty => ?_⟩
  have text : (proper ++ "/" ++ resource).toList = proper.toList ++ behind (some resource) := by
    simp [behind]
  have nonempty : ∀ text ∈ some resource, text ≠ "" := by
    rintro text ⟨⟩
    exact nonempty
  have read := ofChars_append_behind clean nonempty
  rw [← text] at read
  unfold parse
  rw [read]
  cases ofChars proper.toList with
  | ok jid =>
    constructor
    · intro found same
      obtain rfl := Except.ok.inj same
      rfl
    · intro fault refused
      cases refused
  | error found =>
    constructor
    · intro jid read
      cases read
    · intro fault same
      obtain rfl := (Error.mk.inj (Except.error.inj same)).1
      rfl

/-- A string with two faults, and strings with separators in the resource. -/
theorem first_fault_reported_crowded :
    Fault.extraSeparator.ShownBy "@a@b".toList ∧
      parse "@a@b" = .error ⟨.emptyNode, "@a@b"⟩ ∧
      parse "@a@b/x@/y" = .error ⟨.emptyNode, "@a@b/x@/y"⟩ ∧
      parse "a@b/x@/y" = .ok ⟨some "a", "b", some "x@/y"⟩ := by
  obtain ⟨refused, -, behindSlash⟩ := first_fault_reported
  have first : Fault.emptyNode.IsFirst "@a@b".toList := by
    refine ⟨by decide +kernel, fun other less => ?_⟩
    cases other with
    | emptyResource => decide +kernel
    | emptyNode | emptyDomain | extraSeparator => simp [Fault.place] at less
  have twice := (refused "@a@b" ⟨.emptyNode, "@a@b"⟩).mpr ⟨rfl, first⟩
  have plain : parse "a@b" = .ok ⟨some "a", "b", none⟩ := by rfl
  exact ⟨by decide +kernel, twice,
    (behindSlash "@a@b" "x@/y" (by decide +kernel) (by decide)).2 .emptyNode twice,
    (behindSlash "a@b" "x@/y" (by decide +kernel) (by decide)).1 _ plain⟩

end StanzaExchange.Jid
