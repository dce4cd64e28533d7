import StanzaExchange.Proofs.Grammar

/-!
The priority of a presence (module decode of section 10.1 of the specification): the numeral of the
first child named priority. If the other rules are satisfied, that child alone decides between a
value and an error; later children of the name have no influence.
-/
namespace StanzaExchange.Element

variable {e other first : Element} {before after later : List Element} {name : String}

/-- The first child of the name, with the children before and after it. -/
structure HasFirst (e : Element) (name : String) (before : List Element) (first : Element)
    (after : List Element) : Prop where
  children : e.children = before ++ first :: after
  named : first.name = name
  earlier : ∀ child ∈ before, child.name ≠ name

theorem HasFirst.childText? (has : e.HasFirst name before first after) :
    e.childText? name = some first.text := by
  have skipped : before.find? (fun child => child.name = name) = none := by
    rw [List.find?_eq_none]
    intro child member
    simpa using has.earlier child member
  rw [Element.childText?, child?, has.children, List.find?_append, skipped, Option.none_or,
    List.find?_cons_of_pos (by simpa using has.named), Option.map_some]

theorem childText?_eq_none_iff :
    e.childText? name = none ↔ ∀ child ∈ e.children, child.name ≠ name := by
  simp [Element.childText?, child?]

/-- Children of one name have no influence on look-ups of another. -/
theorem find?_eq_of_filter {wanted : String} (different : wanted ≠ name)
    (same : later.filter (fun child => child.name ≠ name) =
      after.filter (fun child => child.name ≠ name)) :
    later.find? (fun child => child.name = wanted) =
      after.find? (fun child => child.name = wanted) := by
  have unfiltered : ∀ children : List Element,
      (children.filter (fun child => child.name ≠ name)).find? (fun child => child.name = wanted) =
        children.find? (fun child => child.name = wanted) := by
    intro children
    rw [List.find?_filter]
    congr 1
    funext child
    by_cases hit : child.name = wanted <;> simp [hit, different]
  rw [← unfiltered later, same, unfiltered]

/-- The parts that decoding a presence reads. -/
theorem decodePresence_congr
    (attrs : ∀ attr ∈ ["id", "type", "from", "to"], e.attr? attr = other.attr? attr)
    (texts : ∀ name ∈ ["show", "status", "priority"], e.childText? name = other.childText? name) :
    e.decodePresence = other.decodePresence := by
  simp only [List.forall_mem_cons, List.not_mem_nil, false_implies, implies_true, and_true]
    at attrs texts
  obtain ⟨id, type, sender, recipient⟩ := attrs
  obtain ⟨shown, status, rank⟩ := texts
  simp only [decodePresence, type?, priority?, address?, id, type, sender, recipient, shown, status,
    rank]

theorem priority?_of_decodePresence {presence : Presence} (read : e.decodePresence = .ok presence) :
    e.priority? = .ok presence.priority := by
  obtain ⟨type, -, read⟩ := bind_eq_ok_iff.mp read
  obtain ⟨rank, ranked, read⟩ := bind_eq_ok_iff.mp read
  obtain ⟨sender, -, read⟩ := bind_eq_ok_iff.mp read
  obtain ⟨recipient, -, read⟩ := bind_eq_ok_iff.mp read
  obtain rfl := Except.ok.inj read
  exact ranked

theorem exists_of_decode_presence {stanza : Stanza} (read : e.decode .presence = .ok stanza) :
    ∃ presence, stanza = .presence presence ∧ e.priority? = .ok presence.priority := by
  unfold decode at read
  split at read
  · cases read
  · obtain ⟨presence, content, rfl⟩ := map_eq_ok_iff.mp read
    exact ⟨presence, rfl, priority?_of_decodePresence content⟩

/-- Changes behind the first priority child, among children of that name only, have no influence. -/
theorem decode_presence_later (has : e.HasFirst "priority" before first after)
    (same : later.filter (fun child => child.name ≠ "priority") =
      after.filter (fun child => child.name ≠ "priority")) :
    ({ e with children := before ++ first :: later } : Element).decode .presence =
      e.decode .presence := by
  have changed : HasFirst { e with children := before ++ first :: later } "priority" before first
    later := ⟨rfl, has.named, has.earlier⟩
  have texts : ∀ name, name ≠ "priority" →
      ({ e with children := before ++ first :: later } : Element).childText? name =
        e.childText? name := by
    intro name different
    rw [childText?, child?, childText?, child?, has.children, List.find?_append,
      List.find?_append, List.find?_cons, List.find?_cons, find?_eq_of_filter different same]
  have content : ({ e with children := before ++ first :: later } : Element).decodePresence =
      e.decodePresence := by
    refine decodePresence_congr (fun attr _ => rfl) ?_
    simp only [List.forall_mem_cons, List.not_mem_nil, false_implies, implies_true, and_true]
    exact ⟨texts "show" (by decide), texts "status" (by decide),
      changed.childText?.trans has.childText?.symm⟩
  unfold decode
  rw [content]

/-- The element decodes as a presence with this priority. -/
def Yields (e : Element) (rank : Option Int) : Prop :=
  ∃ presence, e.decode .presence = .ok (.presence presence) ∧
    presence.priority.map (·.value) = rank

/-- All rules except that for the priority are satisfied. -/
def FineButRank (e : Element) : Prop :=
  ∀ rule ∈ Tag.presence.rules, rule ≠ .ranked → rule.Kept .presence e

/-- An element that satisfies all rules decodes, with the priority that was read. -/
theorem FineButRank.exists_presence (fine : e.FineButRank)
    (ranked : Rule.ranked.Kept .presence e) :
    ∃ presence, e.decode .presence = .ok (.presence presence) ∧
      e.priority? = .ok presence.priority := by
  have kept : ∀ rule ∈ Tag.presence.rules, rule.Kept .presence e := by
    intro rule member
    by_cases same : rule = .ranked
    · exact same ▸ ranked
    · exact fine rule member same
  obtain ⟨stanza, read⟩ := decode_checks.exists_ok_iff.mpr kept
  obtain ⟨presence, rfl, rank⟩ := exists_of_decode_presence read
  exact ⟨presence, read, rank⟩

/-- The priority read is the one contained in the text. -/
theorem exists_written {text : String} (there : e.childText? "priority" = some text)
    {rank : Option Priority} (read : e.priority? = .ok rank) :
    ∃ p, rank = some p ∧ Priority.Written text p.value := by
  unfold priority? at read
  rw [there] at read
  cases found : readPriority text with
  | none => simp [found] at read
  | some p =>
    refine ⟨p, ?_, Priority.readPriority_eq_some_iff.mp found⟩
    simpa [found, eq_comm] using read

/-- With the other rules satisfied, the text decides. -/
theorem FineButRank.yields_iff (fine : e.FineButRank) {text : String}
    (there : e.childText? "priority" = some text) {v : Int} :
    e.Yields (some v) ↔ Priority.Written text v := by
  constructor
  · rintro ⟨presence, read, value⟩
    obtain ⟨found, same, rank⟩ := exists_of_decode_presence read
    obtain rfl := Stanza.presence.inj same
    obtain ⟨p, ranked, written⟩ := exists_written there rank
    rw [ranked, Option.map_some, Option.some.injEq] at value
    exact value ▸ written
  · intro written
    have ranked : Rule.ranked.Kept .presence e := by
      intro text' there'
      obtain rfl := Option.some.inj (there.symm.trans there')
      exact ⟨v, written⟩
    obtain ⟨presence, read, rank⟩ := fine.exists_presence ranked
    obtain ⟨p, ranked, written'⟩ := exists_written there rank
    refine ⟨presence, read, ?_⟩
    rw [ranked, Option.map_some, written.unique written']

theorem FineButRank.refused (fine : e.FineButRank) {text : String}
    (there : e.childText? "priority" = some text) (unwritten : ∀ v, ¬Priority.Written text v) :
    e.decode .presence = .error (.invalidAttribute .presence "priority" text) := by
  refine (decode_checks _).mpr (.later ?_ (.later ?_ (.here (.ranked there unwritten))))
  · exact fine .named (by simp [Tag.rules]) (by simp)
  · exact fine .typed (by simp [Tag.rules]) (by simp)

/-- Without a priority child there is no priority. -/
theorem FineButRank.yields_none (fine : e.FineButRank)
    (without : ∀ child ∈ e.children, child.name ≠ "priority") : e.Yields none := by
  have absent := childText?_eq_none_iff.mpr without
  have ranked : Rule.ranked.Kept .presence e := by
    intro text there
    cases absent.symm.trans there
  obtain ⟨presence, read, rank⟩ := fine.exists_presence ranked
  refine ⟨presence, read, ?_⟩
  unfold priority? at rank
  rw [absent] at rank
  rw [← Except.ok.inj rank]
  rfl

/-- If the other rules are satisfied, a presence has priority v exactly if its first priority child
contains the numeral of v between -128 and 127, with an optional sign, leading zeros and surrounding
white space; any other text of that child is reported as it stands. Later children of the name have
no influence, and without such a child there is no priority. -/
theorem rank_exact (e : Element) :
    (∀ before first after, e.HasFirst "priority" before first after →
      (e.FineButRank → (∀ v, e.Yields (some v) ↔ Priority.Written first.text v) ∧
        ((∀ v, ¬Priority.Written first.text v) →
          e.decode .presence = .error (.invalidAttribute .presence "priority" first.text))) ∧
      ∀ later : List Element, later.filter (fun child => child.name ≠ "priority") =
          after.filter (fun child => child.name ≠ "priority") →
        ({ e with children := before ++ first :: later } : Element).decode .presence =
          e.decode .presence) ∧
    (e.FineButRank → (∀ child ∈ e.children, child.name ≠ "priority") → e.Yields none) := by
  refine ⟨fun before first after has => ⟨fun fine => ⟨fun v => ?_, fun unwritten => ?_⟩,
    fun later same => decode_presence_later has same⟩, fun fine without => fine.yields_none without⟩
  · exact fine.yields_iff has.childText?
  · exact fine.refused has.childText? unwritten

theorem fineButRank_of_bare (named : e.name = "presence") (bare : ∀ attr, e.attr? attr = none) :
    e.FineButRank := by
  intro rule member other
  cases rule with
  | named => exact named
  | given attr => simp [Tag.rules] at member
  | ranked => exact absurd rfl other
  | typed | addressed =>
    intro value there
    cases (bare _).symm.trans there

/-- A presence with priority children only. -/
def announcing (texts : List String) : Element :=
  .build "presence" (texts.map fun text => .child (.build "priority" [.text text]))

/-- The lowest priority with leading zeros and a wide space; then a text without a numeral, as a
later and as the first child. -/
theorem rank_exact_announcing :
    (announcing [" -00128\u2003", "low"]).Yields (some (-128)) ∧
      Priority.Written " -00128\u2003" (-128) ∧
      (announcing [" -00128\u2003"]).decode .presence =
        (announcing [" -00128\u2003", "low"]).decode .presence ∧
      (announcing ["1 28"]).decode .presence =
        .error (.invalidAttribute .presence "priority" "1 28") ∧
      (announcing []).Yields none := by
  have least : (announcing [" -00128\u2003", "low"]).Yields (some (-128)) :=
    ⟨{ priority := some ⟨-128, by decide, by decide⟩ }, by decide +kernel, rfl⟩
  have split : (announcing ["1 28"]).decode .presence =
      .error (.invalidAttribute .presence "priority" "1 28") := by decide +kernel
  obtain ⟨first, alike⟩ := (rank_exact (announcing [" -00128\u2003", "low"])).1 [] _ _
    ⟨rfl, rfl, nofun⟩
  obtain ⟨second, -⟩ := (rank_exact (announcing ["1 28"])).1 [] _ _ ⟨rfl, rfl, nofun⟩
  obtain ⟨written, -⟩ := first (fineButRank_of_bare rfl fun _ => rfl)
  obtain ⟨yields, refused⟩ := second (fineButRank_of_bare rfl fun _ => rfl)
  refine ⟨least, (written _).mp least, alike [] (by decide), refused fun v unreadable => ?_,
    (rank_exact (announcing [])).2 (fineButRank_of_bare rfl fun _ => rfl) nofun⟩
  obtain ⟨presence, read, -⟩ := (yields v).mpr unreadable
  cases read.symm.trans split

end StanzaExchange.Element
