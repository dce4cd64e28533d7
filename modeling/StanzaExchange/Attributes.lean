/-!
Attribute maps of elements (section 10.1 of the specification, module element). A map is a list of
entries in strictly increasing order of names, so that extensional equality is equality
(`ext_get?`). The iteration order of the hash map is not modelled; nothing reads it.
-/
namespace StanzaExchange

/-- Inserts an entry, replacing the value of a name that is present. -/
def Attributes.insertEntry (name value : String) : List (String × String) → List (String × String)
  | [] => [(name, value)]
  | entry :: rest =>
    if name < entry.1 then (name, value) :: entry :: rest
    else if name = entry.1 then (name, value) :: rest
    else entry :: insertEntry name value rest

/-- Names are strictly increasing; in particular, no name occurs twice. -/
def Attributes.Ordered (entries : List (String × String)) : Prop :=
  entries.Pairwise fun a b => a.1 < b.1

theorem Attributes.mem_insertEntry {name value : String} {entry : String × String}
    {entries : List (String × String)} (h : entry ∈ insertEntry name value entries) :
    entry = (name, value) ∨ entry ∈ entries := by
  induction entries with
  | nil => simpa [insertEntry] using h
  | cons head rest ih =>
    unfold insertEntry at h
    split at h
    · simpa using h
    · split at h
      · rcases List.mem_cons.1 h with h | h
        · exact .inl h
        · exact .inr (List.mem_cons_of_mem _ h)
      · rcases List.mem_cons.1 h with h | h
        · exact .inr (h ▸ List.mem_cons_self)
        · exact (ih h).imp id (List.mem_cons_of_mem _)

/-- Insertion keeps the entries ordered. -/
theorem Attributes.Ordered.insertEntry {name value : String} {entries : List (String × String)}
    (h : Ordered entries) : Ordered (Attributes.insertEntry name value entries) := by
  induction entries with
  | nil => simp [Attributes.insertEntry, Ordered]
  | cons head rest ih =>
    have ⟨below, tail⟩ := List.pairwise_cons.1 h
    unfold Attributes.insertEntry
    split
    next less =>
      refine List.pairwise_cons.2 ⟨fun entry member => ?_, h⟩
      rcases List.mem_cons.1 member with rfl | member
      · exact less
      · exact String.lt_trans less (below entry member)
    next notLess =>
      split
      next equal =>
        exact List.pairwise_cons.2 ⟨fun entry member => equal ▸ below entry member, tail⟩
      next different =>
        refine List.pairwise_cons.2 ⟨fun entry member => ?_, ih tail⟩
        rcases mem_insertEntry member with rfl | member
        · exact Std.lt_of_le_of_ne (String.not_lt.1 notLess) (Ne.symm different)
        · exact below entry member

theorem Attributes.lookup_entry (wanted : String) (entry : String × String)
    (rest : List (String × String)) :
    (entry :: rest).lookup wanted =
      if wanted = entry.1 then some entry.2 else rest.lookup wanted := by
  obtain ⟨key, there⟩ := entry
  by_cases hit : wanted = key
  · simp [hit]
  · simp [List.lookup_cons, beq_eq_false_iff_ne.mpr hit, hit]

/-- Look-up after an insertion. -/
theorem Attributes.lookup_insertEntry (name value wanted : String)
    (entries : List (String × String)) : (insertEntry name value entries).lookup wanted =
      if wanted = name then some value else entries.lookup wanted := by
  induction entries with
  | nil => exact lookup_entry wanted (name, value) []
  | cons entry rest ih =>
    unfold insertEntry
    split
    · exact lookup_entry wanted (name, value) (entry :: rest)
    · split
      next same =>
        rw [lookup_entry, lookup_entry, ← same]
        by_cases hit : wanted = name <;> simp [hit]
      next different =>
        rw [lookup_entry, lookup_entry, ih]
        by_cases hit : wanted = name
        · simp [hit, different]
        · simp [hit]

theorem Attributes.Ordered.lt_of_lookup {wanted value : String} {entry : String × String}
    {rest : List (String × String)} (h : Ordered (entry :: rest))
    (found : rest.lookup wanted = some value) : entry.1 < wanted := by
  obtain ⟨before, after, rfl, -⟩ := List.lookup_eq_some_iff.mp found
  exact List.rel_of_pairwise_cons h (List.mem_append_right before List.mem_cons_self)

theorem Attributes.Ordered.le_of_lookup {wanted value : String} {entry : String × String}
    {rest : List (String × String)} (h : Ordered (entry :: rest))
    (found : (entry :: rest).lookup wanted = some value) : entry.1 ≤ wanted := by
  rw [lookup_entry] at found
  split at found
  next same => exact same ▸ String.le_refl wanted
  · exact Std.le_of_lt (h.lt_of_lookup found)

/-- The name of the first entry does not occur behind it. -/
theorem Attributes.Ordered.lookup_rest {entry : String × String}
    {rest : List (String × String)} (h : Ordered (entry :: rest)) :
    rest.lookup entry.1 = none :=
  Option.eq_none_iff_forall_ne_some.mpr fun _ found =>
    String.lt_irrefl entry.1 (h.lt_of_lookup found)

/-- Ordered entry lists are equal if all look-ups agree. -/
theorem Attributes.Ordered.eq_of_lookup {entries others : List (String × String)}
    (h : Ordered entries) (h' : Ordered others)
    (alike : ∀ wanted, entries.lookup wanted = others.lookup wanted) : entries = others := by
  induction entries generalizing others with
  | nil =>
    cases others with
    | nil => rfl
    | cons other others =>
      have missing := alike other.1
      rw [lookup_entry, if_pos rfl] at missing
      cases missing
  | cons entry rest ih =>
    have found : others.lookup entry.1 = some entry.2 := by
      rw [← alike, lookup_entry, if_pos rfl]
    cases others with
    | nil => cases found
    | cons other others =>
      have foundBack : (entry :: rest).lookup other.1 = some other.2 := by
        rw [alike, lookup_entry, if_pos rfl]
      -- each of the two names occurs in the other list, so neither is smaller
      have name : entry.1 = other.1 :=
        String.le_antisymm (h.le_of_lookup foundBack) (h'.le_of_lookup found)
      have value : entry.2 = other.2 := by
        rw [lookup_entry, if_pos name] at found
        exact (Option.some.inj found).symm
      have tails : rest = others := ih h.of_cons h'.of_cons fun wanted => by
        by_cases first : wanted = entry.1
        · rw [first, h.lookup_rest, name, h'.lookup_rest]
        · have same := alike wanted
          rwa [lookup_entry, lookup_entry, if_neg first, if_neg (name ▸ first)] at same
      rw [Prod.ext name value, tails]

/-- An attribute map, with its order invariant. -/
structure Attributes where
  entries : List (String × String)
  ordered : Attributes.Ordered entries

namespace Attributes

instance : DecidableEq Attributes := fun a b =>
  if h : a.entries = b.entries then
    isTrue (by cases a; cases b; cases h; rfl)
  else isFalse fun equal => h (equal ▸ rfl)

instance : Repr Attributes where
  reprPrec a n := reprPrec a.entries n

def empty : Attributes := ⟨[], .nil⟩

instance : Inhabited Attributes := ⟨empty⟩

/-- Sets an attribute; a later value replaces an earlier one. -/
def insert (a : Attributes) (name value : String) : Attributes :=
  ⟨insertEntry name value a.entries, a.ordered.insertEntry⟩

def get? (a : Attributes) (name : String) : Option String :=
  a.entries.lookup name

theorem get?_insert (a : Attributes) (name value wanted : String) :
    (a.insert name value).get? wanted = if wanted = name then some value else a.get? wanted :=
  lookup_insertEntry name value wanted a.entries

/-- Extensionality: attribute maps with equal look-ups are equal. -/
theorem ext_get? {a b : Attributes} (alike : ∀ name, a.get? name = b.get? name) : a = b := by
  obtain ⟨entries, ordered⟩ := a
  obtain ⟨others, ordered'⟩ := b
  obtain rfl := ordered.eq_of_lookup ordered' alike
  rfl

def ofList (pairs : List (String × String)) : Attributes :=
  pairs.foldl (fun a pair => a.insert pair.1 pair.2) empty

end Attributes

end StanzaExchange
