import StanzaExchange.Jid
import StanzaExchange.Proofs.Sequences

/-!
Parsing and display of addresses are mutually inverse (section 10.1 of the specification, module
jid). A string parses to an address exactly if the address is well formed and displays as that
string (`parse_eq_ok_iff`); an address assembled from fields need not be well formed, and then its
display parses to another address or not at all.
-/
namespace StanzaExchange.Jid

/-- A node or domain: non-empty, without separators. -/
structure IsPart (part : String) : Prop where
  nonempty : part ≠ ""
  noAt : '@' ∉ part.toList
  noSlash : '/' ∉ part.toList

/-- The condition under which the display of an address can be parsed back. The resource may contain
separators. -/
structure WellFormed (jid : Jid) : Prop where
  node : ∀ node ∈ jid.node, IsPart node
  domain : IsPart jid.domain
  resource : ∀ resource ∈ jid.resource, resource ≠ ""

/-- The display of the node, with its separator. -/
def ahead : Option String → List Char
  | none => []
  | some node => node.toList ++ ['@']

/-- The display of the resource, with its separator. -/
def behind : Option String → List Char
  | none => []
  | some resource => '/' :: resource.toList

variable {cs before after proper domain : List Char} {separator : Char} {jid : Jid}
  {node resource : Option String} {part : String}

theorem toList_render (jid : Jid) :
    jid.render.toList = ahead jid.node ++ jid.domain.toList ++ behind jid.resource := by
  obtain ⟨node, domain, resource⟩ := jid
  cases node <;> cases resource <;> simp [render, ahead, behind]

theorem cut?_cons (c : Char) (cs : List Char) : cut? separator (c :: cs) =
    if c = separator then some ([], cs)
    else (cut? separator cs).map fun parts => (c :: parts.1, parts.2) := by
  by_cases same : c = separator
  · simp [cut?, same]
  · simp only [cut?, List.dropWhile_cons, List.takeWhile_cons, same, ne_eq, not_false_eq_true,
      decide_true, if_true, if_false]
    cases cs.dropWhile fun x => decide ¬x = separator <;> rfl

theorem cut?_eq_none_iff : cut? separator cs = none ↔ separator ∉ cs := by
  induction cs with
  | nil => simp [cut?]
  | cons c cs ih =>
    rw [cut?_cons]
    by_cases same : c = separator
    · simp [same]
    · simp [same, ih, Ne.symm same]

/-- A cut is at the first separator. -/
theorem cut?_eq_some_iff : cut? separator cs = some (before, after) ↔
    separator ∉ before ∧ cs = before ++ separator :: after := by
  induction cs generalizing before with
  | nil => simp [cut?]
  | cons c cs ih =>
    rw [cut?_cons]
    by_cases same : c = separator
    · subst same
      cases before with
      | nil => simp [eq_comm]
      | cons first others => simp +contextual
    · rw [if_neg same, Option.map_eq_some_iff]
      constructor
      · rintro ⟨⟨others, rest⟩, cut, split⟩
        obtain ⟨rfl, rfl⟩ := Prod.mk.inj split
        obtain ⟨absent, rfl⟩ := ih.mp cut
        exact ⟨by simp [absent, Ne.symm same], rfl⟩
      · rintro ⟨absent, split⟩
        cases before with
        | nil => exact absurd (List.cons.inj split).1 same
        | cons first others =>
          obtain ⟨rfl, rfl⟩ := List.cons.inj split
          have fewer : separator ∉ others := fun member => absent (List.mem_cons_of_mem _ member)
          exact ⟨(others, after), ih.mpr ⟨fewer, rfl⟩, rfl⟩

/-- The resource is the part behind the first slash, not empty. -/
theorem splitResource_eq_ok_iff : splitResource cs = .ok (proper, resource) ↔
    '/' ∉ proper ∧ (∀ r ∈ resource, r ≠ "") ∧ cs = proper ++ behind resource := by
  constructor
  · intro read
    unfold splitResource at read
    split at read
    next uncut =>
      cases read
      exact ⟨cut?_eq_none_iff.mp uncut, nofun, (List.append_nil _).symm⟩
    · cases read
    next before text nonempty cut =>
      cases read
      obtain ⟨clean, rfl⟩ := cut?_eq_some_iff.mp cut
      refine ⟨clean, fun r same => ?_, by simp [behind]⟩
      obtain rfl := Option.some.inj same
      intro empty
      exact nonempty (by simpa using String.toList_eq_nil_iff.mpr empty)
  · rintro ⟨clean, nonempty, rfl⟩
    cases resource with
    | none =>
      have uncut : cut? '/' proper = none := cut?_eq_none_iff.mpr clean
      simp [splitResource, behind, uncut]
    | some r =>
      have cut : cut? '/' (proper ++ behind (some r)) = some (proper, r.toList) :=
        cut?_eq_some_iff.mpr ⟨clean, rfl⟩
      unfold splitResource
      rw [cut]
      cases text : r.toList with
      | nil => exact absurd (String.toList_eq_nil_iff.mp text) (nonempty r rfl)
      | cons c rest => simp [← text]

/-- The node is the part before the first at sign, not empty. -/
theorem splitNode_eq_ok_iff : splitNode cs = .ok (node, domain) ↔
    (∀ n ∈ node, n ≠ "" ∧ '@' ∉ n.toList) ∧ (node = none → '@' ∉ domain) ∧
      cs = ahead node ++ domain := by
  constructor
  · intro read
    unfold splitNode at read
    split at read
    next uncut =>
      cases read
      exact ⟨nofun, fun _ => cut?_eq_none_iff.mp uncut, rfl⟩
    · cases read
    next before rest nonempty cut =>
      cases read
      obtain ⟨clean, rfl⟩ := cut?_eq_some_iff.mp cut
      refine ⟨fun n same => ?_, nofun, by simp [ahead]⟩
      obtain rfl := Option.some.inj same
      refine ⟨fun empty => nonempty ?_, by simpa using clean⟩
      simpa using String.toList_eq_nil_iff.mpr empty
  · rintro ⟨clean, bare, rfl⟩
    cases node with
    | none => simp [splitNode, ahead, cut?_eq_none_iff.mpr (bare rfl)]
    | some n =>
      obtain ⟨nonempty, clean⟩ := clean n rfl
      have cut : cut? '@' (ahead (some n) ++ domain) = some (n.toList, domain) :=
        cut?_eq_some_iff.mpr ⟨clean, by simp [ahead]⟩
      unfold splitNode
      rw [cut]
      cases text : n.toList with
      | nil => exact absurd (String.toList_eq_nil_iff.mp text) nonempty
      | cons c rest => simp [← text]

/-- A domain is not empty and has no at sign. -/
theorem checkDomain_eq_ok_iff : checkDomain cs = .ok part ↔
    part ≠ "" ∧ '@' ∉ part.toList ∧ cs = part.toList := by
  constructor
  · intro read
    unfold checkDomain at read
    split at read
    · cases read
    next nonempty =>
      split at read
      · cases read
      next clean =>
        cases read
        refine ⟨fun empty => nonempty ?_, by simpa using clean, by simp⟩
        simpa using String.toList_eq_nil_iff.mpr empty
  · rintro ⟨nonempty, clean, rfl⟩
    have text : part.toList ≠ [] := fun empty => nonempty (String.toList_eq_nil_iff.mp empty)
    simp [checkDomain, text, clean]

theorem ofChars_eq_ok_iff : ofChars cs = .ok jid ↔ ∃ proper domain,
    splitResource cs = .ok (proper, jid.resource) ∧ splitNode proper = .ok (jid.node, domain) ∧
      checkDomain domain = .ok jid.domain := by
  unfold ofChars
  simp only [bind_eq_ok_iff, Prod.exists, pure, Except.pure, Except.ok.injEq]
  constructor
  · rintro ⟨proper, resource, outer, node, domain, inner, part, checked, rfl⟩
    exact ⟨proper, domain, outer, inner, checked⟩
  · rintro ⟨proper, domain, outer, inner, checked⟩
    exact ⟨proper, jid.resource, outer, jid.node, domain, inner, jid.domain, checked, rfl⟩

/-- The exact characterisation of successful parsing. -/
theorem parse_eq_ok_iff {s : String} : parse s = .ok jid ↔ jid.WellFormed ∧ jid.render = s := by
  have read : parse s = .ok jid ↔ ofChars s.toList = .ok jid := by
    unfold parse
    cases ofChars s.toList <;> simp
  rw [read, ofChars_eq_ok_iff]
  constructor
  · rintro ⟨proper, domain, outer, inner, checked⟩
    obtain ⟨noSlash, resource, text⟩ := splitResource_eq_ok_iff.mp outer
    obtain ⟨node, -, rfl⟩ := splitNode_eq_ok_iff.mp inner
    obtain ⟨nonempty, noAt, rfl⟩ := checkDomain_eq_ok_iff.mp checked
    have noSlash : '/' ∉ ahead jid.node ∧ '/' ∉ jid.domain.toList := by
      simpa [not_or] using noSlash
    refine ⟨⟨fun n same => ?_, ⟨nonempty, noAt, noSlash.2⟩, resource⟩, ?_⟩
    · obtain ⟨nonempty, noAt⟩ := node n same
      refine ⟨nonempty, noAt, fun member => noSlash.1 ?_⟩
      rw [Option.mem_def.mp same]
      exact List.mem_append_left _ member
    · rw [← String.toList_inj, toList_render, text]
  · rintro ⟨sound, rfl⟩
    refine ⟨ahead jid.node ++ jid.domain.toList, jid.domain.toList,
      splitResource_eq_ok_iff.mpr ⟨?_, sound.resource, toList_render jid⟩,
      splitNode_eq_ok_iff.mpr ⟨fun n same => ?_, fun _ => sound.domain.noAt, rfl⟩,
      checkDomain_eq_ok_iff.mpr ⟨sound.domain.nonempty, sound.domain.noAt, rfl⟩⟩
    · intro member
      rcases List.mem_append.mp member with first | second
      · cases node : jid.node with
        | none => simp [node, ahead] at first
        | some n =>
          have within : '/' ∈ n.toList := by simpa [node, ahead] using first
          exact (sound.node n node).noSlash within
      · exact sound.domain.noSlash second
    · exact ⟨(sound.node n same).nonempty, (sound.node n same).noAt⟩

theorem parse_render_iff : parse jid.render = .ok jid ↔ jid.WellFormed :=
  parse_eq_ok_iff.trans (and_iff_left rfl)

theorem WellFormed.bare (sound : jid.WellFormed) : jid.bare.WellFormed where
  node := sound.node
  domain := sound.domain
  resource := nofun

theorem WellFormed.withResource (sound : jid.WellFormed) {resource : String}
    (nonempty : resource ≠ "") : (jid.withResource resource).WellFormed where
  node := sound.node
  domain := sound.domain
  resource r same := by
    obtain rfl := Option.some.inj same
    exact nonempty

/-- Parsing and display are exact inverses, on every string and on every address, parsed or
assembled: parsing is injective, display is injective on well-formed addresses, and the display of
an address parses back to it exactly if it is well formed. A parsed address still does so without
its resource and with any other non-empty resource. -/
theorem parse_inverts_render :
    (∀ s jid, parse s = .ok jid ↔ jid.WellFormed ∧ jid.render = s) ∧
    (∀ s t jid, parse s = .ok jid → parse t = .ok jid → s = t) ∧
    (∀ jid other : Jid, jid.WellFormed → other.WellFormed → jid.render = other.render →
      jid = other) ∧
    (∀ jid : Jid, parse jid.render = .ok jid ↔ jid.WellFormed) ∧
    ∀ s jid, parse s = .ok jid → parse jid.bare.render = .ok jid.bare ∧
      ∀ resource, resource ≠ "" →
        parse (jid.withResource resource).render = .ok (jid.withResource resource) := by
  refine ⟨fun s jid => parse_eq_ok_iff, fun s t jid first second => ?_,
    fun jid other sound otherSound alike => ?_, fun jid => parse_render_iff,
    fun s jid read => ?_⟩
  · rw [← (parse_eq_ok_iff.mp first).2, (parse_eq_ok_iff.mp second).2]
  · have here := parse_render_iff.mpr sound
    rw [alike, parse_render_iff.mpr otherSound] at here
    exact (Except.ok.inj here).symm
  · have sound := (parse_eq_ok_iff.mp read).1
    exact ⟨parse_render_iff.mpr sound.bare,
      fun resource nonempty => parse_render_iff.mpr (sound.withResource nonempty)⟩

/-- An occupant of a room, with both separators in the resource. -/
def seat : Jid := ⟨some "room", "muc.example", some "nick/with@signs"⟩

/-- An assembled address that displays like another one. -/
def crooked : Jid := ⟨none, "muc.example/nick", none⟩

theorem parse_inverts_render_seat :
    parse "room@muc.example/nick/with@signs" = .ok seat ∧ seat.WellFormed ∧
      (∀ s, parse s = .ok seat → s = "room@muc.example/nick/with@signs") ∧
      (∀ other : Jid, other.WellFormed → seat.render = other.render → seat = other) ∧
      parse "room@muc.example" = .ok seat.bare ∧
      parse "room@muc.example/@" = .ok (seat.withResource "@") ∧
      ¬crooked.WellFormed ∧ parse crooked.render = .ok ⟨none, "muc.example", some "nick"⟩ := by
  obtain ⟨readsAs, single, alike, -, stays⟩ := parse_inverts_render
  have read : parse "room@muc.example/nick/with@signs" = .ok seat := by rfl
  have sound := ((readsAs _ seat).mp read).1
  obtain ⟨bare, bound⟩ := stays _ seat read
  refine ⟨read, sound, fun s same => single s _ seat same read, fun other => alike seat other sound,
    bare, bound "@" (by decide), fun crooked => ?_, by rfl⟩
  have slash := crooked.domain.noSlash
  revert slash
  decide +kernel

end StanzaExchange.Jid
