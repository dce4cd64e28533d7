import Mathlib.Data.List.Perm.Basic
import StanzaExchange.Conversation.State
import StanzaExchange.Proofs.DocumentLines
import StanzaExchange.Proofs.Sequences

/-!
Meaning of settings documents (section 10.3 of the specification). A document is read as the table
of its assignments, in any order; an unknown key makes it unreadable; zero capacities are refused,
the first one named in the order inbound, outbound, filter. Accepted settings have positive
capacities, so the clamping at the creation of channels does not change them. The largest capacity
of the channels is lower than the largest number the reader accepts: see `Settings.Document` for
settings in between.
-/
namespace StanzaExchange.Settings

/-- Documents with their entries: lines, separated by line breaks. -/
inductive Document : List Char → List Entry → Prop
  | last {cs : List Char} {found : Option Entry} (line : Line cs found) :
      Document cs found.toList
  | more {cs ending rest : List Char} {found : Option Entry} {entries : List Entry}
      (line : Line cs found) (ends : Break ending) (document : Document rest entries) :
      Document (cs ++ (ending ++ rest)) (found.toList ++ entries)

section Documents

variable {cs : List Char} {entries : List Entry} {text : String}

/-- The byte order mark. -/
def mark : Char := '\uFEFF'

theorem not_mem_head?_of_gap {gap : List Char} (gaps : ∀ c ∈ gap, isGap c = true)
    (unmarked : mark ∉ cs.head?) : mark ∉ (gap ++ cs).head? := by
  cases gap with
  | nil => exact unmarked
  | cons c gap =>
    rintro ⟨⟩
    exact absurd (gaps mark List.mem_cons_self) (by decide)

theorem SpellsKey.unmarked {key : String} {name rest : List Char} (spelled : SpellsKey key name) :
    mark ∉ (name ++ rest).head? := by
  obtain ⟨first, more, rfl, starts⟩ := spelled.exists_first
  rintro ⟨⟩
  rcases starts with letter | quote | quote
  · exact absurd letter (by decide)
  · exact absurd quote (by decide)
  · exact absurd quote (by decide)

theorem Line.unmarked {found : Option Entry} (line : Line cs found) : mark ∉ cs.head? := by
  cases line with
  | empty gaps remarks =>
    refine not_mem_head?_of_gap gaps ?_
    cases remarks with
    | none => nofun
    | comment => simp [mark]
  | entry spelled gaps remarks =>
    exact not_mem_head?_of_gap (fun c member => gaps c (by simp [member])) spelled.unmarked

theorem Document.unmarked (document : Document cs entries) : mark ∉ cs.head? := by
  cases document with
  | last line => exact line.unmarked
  | @more cs ending rest found entries line ends document =>
    cases cs with
    | nil => cases ends <;> simp [mark]
    | cons c cs => exact line.unmarked

/-- The lines of a document are read as its entries, in order. -/
theorem Document.readLines (document : Document cs entries)
    (fits : ∀ entry ∈ entries, entry.Fits) :
    ∃ lines, (splitLines cs).mapM readLine = some lines ∧ lines.filterMap id = entries := by
  induction document with
  | @last cs found line =>
    refine ⟨[found], ?_, by cases found <;> rfl⟩
    rw [splitLines_of_unbroken line.unbroken, List.mapM_cons,
      readLine_of_line line fun entry member => fits entry (by simpa using member)]
    rfl
  | @more cs ending rest found entries line ends document ih =>
    obtain ⟨lines, read, made⟩ := ih fun entry member => fits entry (by simp [member])
    refine ⟨found :: lines, ?_, by rw [← made]; cases found <;> rfl⟩
    rw [splitLines_append line.unbroken ends, List.mapM_cons, read,
      readLine_of_line line fun entry member => fits entry (by simp_all)]
    rfl

/-- A text without a leading byte order mark. -/
def unmark : List Char → List Char
  | '\uFEFF' :: cs => cs
  | cs => cs

theorem unmark_of_unmarked (unmarked : mark ∉ cs.head?) : unmark cs = cs := by
  unfold unmark
  split
  next marked => exact absurd rfl unmarked
  · rfl

/-- Only a byte order mark in front is dropped. -/
theorem exists_unmark {before line : List Char} (unmarked : mark ∉ line.head?)
    (starts : before = [] ∨ before = [mark] ∨ ∃ earlier, before = earlier ++ ['\n']) :
    ∃ kept, unmark (before ++ line) = kept ++ line ∧
      (kept = [] ∨ ∃ earlier, kept = earlier ++ ['\n']) := by
  rcases starts with rfl | rfl | ⟨earlier, rfl⟩
  · exact ⟨[], unmark_of_unmarked unmarked, .inl rfl⟩
  · exact ⟨[], rfl, .inl rfl⟩
  · cases earlier with
    | nil => exact ⟨['\n'], unmark_of_unmarked (by simp [mark]), .inr ⟨[], rfl⟩⟩
    | cons c earlier =>
      by_cases marked : c = mark
      · subst marked
        exact ⟨earlier ++ ['\n'], rfl, .inr ⟨earlier, rfl⟩⟩
      · exact ⟨c :: earlier ++ ['\n'], unmark_of_unmarked (by simpa using marked),
          .inr ⟨c :: earlier, rfl⟩⟩

theorem readEntries_eq (text : String) : Settings.readEntries text =
    ((splitLines (unmark text.toList)).mapM readLine).bind fun lines =>
      if ((lines.filterMap id).map Entry.key).Nodup then some (lines.filterMap id) else none := rfl

/-- A document without duplicate keys is read as its entries. -/
theorem Document.readEntries (document : Document cs entries)
    (whole : text.toList = cs ∨ text.toList = mark :: cs)
    (distinct : (entries.map Entry.key).Nodup) (fits : ∀ entry ∈ entries, entry.Fits) :
    Settings.readEntries text = some entries := by
  obtain ⟨lines, read, made⟩ := document.readLines fits
  have chars : unmark text.toList = cs := by
    rcases whole with whole | whole <;> rw [whole]
    · exact unmark_of_unmarked document.unmarked
    · rfl
  rw [readEntries_eq, chars, read, Option.bind_some, made, if_pos distinct]

/-- Some line of the text begins with an unknown key. The line starts at the start of the text or
behind a line break. -/
inductive HasOtherKey : List Char → Prop
  | line {before indent name rest after : List Char} {key : String}
      (starts : before = [] ∨ before = [mark] ∨ ∃ earlier, before = earlier ++ ['\n'])
      (foreign : key ∉ keys) (spelled : SpellsKey key name)
      (gaps : ∀ c ∈ indent, isGap c = true) (stop : ∀ c ∈ rest.head?, isKeyChar c = false)
      (unbroken : Unbroken (indent ++ (name ++ rest)))
      (ends : after = [] ∨ ∃ ending more, Break ending ∧ after = ending ++ more) :
      HasOtherKey (before ++ (indent ++ (name ++ rest) ++ after))

/-- A line between line breaks is one of the lines. -/
theorem mem_splitLines {before line after : List Char}
    (starts : before = [] ∨ ∃ earlier, before = earlier ++ ['\n']) (unbroken : Unbroken line)
    (ends : after = [] ∨ ∃ ending more, Break ending ∧ after = ending ++ more) :
    line ∈ splitLines (before ++ (line ++ after)) := by
  have first : ∃ lines, splitLines (line ++ after) = line :: lines := by
    rcases ends with rfl | ⟨ending, more, ends, rfl⟩
    · exact ⟨[], by rw [List.append_nil, splitLines_of_unbroken unbroken]⟩
    · exact ⟨_, splitLines_append unbroken ends⟩
  obtain ⟨lines, found⟩ := first
  rcases starts with rfl | ⟨earlier, rfl⟩
  · rw [List.nil_append, found]
    exact List.mem_cons_self
  · obtain ⟨_, _, split⟩ := exists_splitLines earlier (line ++ after)
    rw [List.append_assoc, List.singleton_append, split, found]
    simp

theorem mapM_eq_none {α β : Type} {read : α → Option β} {rows : List α} {row : α}
    (member : row ∈ rows) (unread : read row = none) : rows.mapM read = none := by
  induction rows with
  | nil => cases member
  | cons first rows ih =>
    rw [List.mapM_cons]
    rcases List.mem_cons.mp member with rfl | later
    · rw [unread]
      rfl
    · rw [ih later]
      cases read first <;> rfl

/-- A text with an unknown key is unreadable. -/
theorem HasOtherKey.unread (other : HasOtherKey text.toList) :
    Settings.readEntries text = none := by
  generalize chars : text.toList = cs at other
  obtain @⟨before, indent, name, rest, after, key, starts, foreign, spelled, gaps, stop, unbroken,
    ends⟩ := other
  have unread : readLine (indent ++ (name ++ rest)) = none := by
    rw [readLine_of_key spelled gaps stop]
    split
    · rw [Entry.readEntry_of_other foreign]
      rfl
    · rfl
  have within : indent ++ (name ++ rest) ∈ splitLines (unmark text.toList) := by
    have unmarked : mark ∉ (indent ++ (name ++ rest) ++ after).head? := by
      rw [List.append_assoc, List.append_assoc]
      exact not_mem_head?_of_gap gaps spelled.unmarked
    obtain ⟨kept, same, starts⟩ := exists_unmark unmarked starts
    rw [chars, same]
    exact mem_splitLines starts unbroken ends
  rw [readEntries_eq, mapM_eq_none within unread, Option.bind_none]

end Documents

section Holds

variable {s s' : Settings} {entry other : Entry} {entries : List Entry}

/-- The settings have the value of the entry. -/
def Holds (s : Settings) : Entry → Prop
  | .capacity c n => s.capacity c = n
  | .traceStanzas b => s.traceStanzas = b

theorem eq_of_holds (same : ∀ entry, s.Holds entry → s'.Holds entry) : s' = s := by
  have rooms := fun c => same (.capacity c (s.capacity c)) rfl
  have switch := same (.traceStanzas s.traceStanzas) rfl
  cases s
  cases s'
  exact Settings.mk.injEq .. ▸ ⟨rooms .inbound, rooms .outbound, rooms .filter, switch⟩

theorem holds_put (s : Settings) (entry : Entry) : (s.put entry).Holds entry := by
  cases entry with
  | capacity c n => cases c <;> rfl
  | traceStanzas b => rfl

/-- An entry changes its own key only. -/
theorem holds_put_iff (apart : other.key ≠ entry.key) :
    (s.put other).Holds entry ↔ s.Holds entry := by
  cases other with
  | capacity c n =>
    cases entry with
    | capacity d m =>
      cases c <;> cases d <;> first | exact absurd rfl apart | exact Iff.rfl
    | traceStanzas b => cases c <;> exact Iff.rfl
  | traceStanzas b =>
    cases entry with
    | capacity d m => cases d <;> exact Iff.rfl
    | traceStanzas b => exact absurd rfl apart

theorem holds_foldl_iff (apart : entry.key ∉ entries.map Entry.key) :
    (entries.foldl put s).Holds entry ↔ s.Holds entry := by
  induction entries generalizing s with
  | nil => exact Iff.rfl
  | cons first entries ih =>
    obtain ⟨other, others⟩ := not_or.mp (mt List.mem_cons.mpr apart)
    exact (ih others).trans (holds_put_iff fun same => other same.symm)

/-- Without duplicate keys every entry takes effect. -/
theorem holds_foldl (distinct : (entries.map Entry.key).Nodup) (member : entry ∈ entries) :
    (entries.foldl put s).Holds entry := by
  induction entries generalizing s with
  | nil => cases member
  | cons first entries ih =>
    obtain ⟨apart, distinct⟩ := List.nodup_cons.mp distinct
    rcases List.mem_cons.mp member with rfl | later
    · -- no later entry has the same key
      exact (holds_foldl_iff apart).mpr (holds_put s entry)
    · exact ih distinct later

end Holds

/-- A settings table: optional values for the four keys. -/
structure Table where
  room : Capacity → Option UInt64
  trace : Option Bool

namespace Table

variable {t : Table} {listed : List Entry} {text : String}

/-- The entries in the order of the keys. -/
def entries (t : Table) : List Entry :=
  Capacity.all.filterMap (fun c => (t.room c).map fun n => .capacity c n.toNat) ++
    (t.trace.map .traceStanzas).toList

/-- The capacity of the table, or the default. -/
def roomOf (t : Table) (c : Capacity) : Nat :=
  ((t.room c).map UInt64.toNat).getD (({} : Settings).capacity c)

/-- The settings of the table, with defaults elsewhere. -/
def settings (t : Table) : Settings where
  inboundCapacity := t.roomOf .inbound
  outboundCapacity := t.roomOf .outbound
  filterCapacity := t.roomOf .filter
  traceStanzas := t.trace.getD ({} : Settings).traceStanzas

/-- The text is a document with exactly the entries of the table, in any order, with or without byte
order mark. -/
def WrittenIn (t : Table) (text : String) : Prop :=
  ∃ cs listed, (text.toList = cs ∨ text.toList = mark :: cs) ∧ Document cs listed ∧
    listed.Perm t.entries

theorem capacity_settings (t : Table) (c : Capacity) : t.settings.capacity c = t.roomOf c := by
  cases c <;> rfl

theorem capacity_mem_entries {c : Capacity} {n : Nat} :
    .capacity c n ∈ t.entries ↔ (t.room c).map UInt64.toNat = some n := by
  have all : c ∈ Capacity.all := by cases c <;> decide
  simp only [entries, List.mem_append, List.mem_filterMap, Option.map_eq_some_iff,
    Entry.capacity.injEq, Option.mem_toList]
  constructor
  · rintro (⟨_, -, word, assigned, rfl, value⟩ | ⟨_, -, impossible⟩)
    · exact ⟨word, assigned, value⟩
    · cases impossible
  · rintro ⟨word, assigned, value⟩
    exact .inl ⟨c, all, word, assigned, rfl, value⟩

theorem traceStanzas_mem_entries {b : Bool} : .traceStanzas b ∈ t.entries ↔ t.trace = some b := by
  simp [entries]

theorem nodup_keys (t : Table) : (t.entries.map Entry.key).Nodup := by
  simp only [entries, Capacity.all, List.filterMap_cons, List.filterMap_nil]
  cases t.room .inbound <;> cases t.room .outbound <;> cases t.room .filter <;> cases t.trace <;>
    simp [Entry.key, Capacity.key]

theorem capacity_key_not_mem {c : Capacity} (unassigned : t.room c = none) (n : Nat) :
    (Entry.capacity c n).key ∉ t.entries.map Entry.key := by
  intro assigned
  obtain ⟨entry, member, same⟩ := List.mem_map.mp assigned
  cases entry with
  | capacity d m =>
    obtain rfl : d = c := by
      cases c <;> cases d <;> first | rfl | exact absurd same (by simp [Entry.key, Capacity.key])
    rw [capacity_mem_entries, unassigned] at member
    cases member
  | traceStanzas b => cases c <;> exact absurd same (by simp [Entry.key, Capacity.key])

theorem traceStanzas_key_not_mem (unassigned : t.trace = none) (b : Bool) :
    (Entry.traceStanzas b).key ∉ t.entries.map Entry.key := by
  intro assigned
  obtain ⟨entry, member, same⟩ := List.mem_map.mp assigned
  cases entry with
  | capacity c n => cases c <;> exact absurd same (by simp [Entry.key, Capacity.key])
  | traceStanzas b =>
    rw [traceStanzas_mem_entries, unassigned] at member
    cases member

theorem fits_of_mem {entry : Entry} (member : entry ∈ t.entries) : entry.Fits := by
  cases entry with
  | capacity c n =>
    obtain ⟨word, -, rfl⟩ := Option.map_eq_some_iff.mp (capacity_mem_entries.mp member)
    exact Nat.le_sub_one_of_lt word.toNat_lt
  | traceStanzas b => trivial

/-- The order of entries does not matter. -/
theorem ofEntries_perm (order : listed.Perm t.entries) : ofEntries listed = t.settings := by
  have distinct : (listed.map Entry.key).Nodup := (order.map Entry.key).nodup_iff.mpr t.nodup_keys
  have keys : ∀ key, key ∈ listed.map Entry.key ↔ key ∈ t.entries.map Entry.key := fun key =>
    (order.map Entry.key).mem_iff
  refine eq_of_holds fun entry holds => ?_
  cases entry with
  | capacity c n =>
    obtain rfl : t.roomOf c = n := (t.capacity_settings c).symm.trans holds
    cases assigned : t.room c with
    | some word =>
      have value : t.roomOf c = word.toNat := by simp [roomOf, assigned]
      exact holds_foldl distinct (order.mem_iff.mpr (capacity_mem_entries.mpr (by
        rw [assigned, value]
        rfl)))
    | none =>
      refine (holds_foldl_iff ((keys _).not.mpr (capacity_key_not_mem assigned _))).mpr ?_
      simp [Holds, roomOf, assigned]
  | traceStanzas b =>
    obtain rfl : t.trace.getD ({} : Settings).traceStanzas = b := holds
    cases assigned : t.trace with
    | some switch =>
      exact holds_foldl distinct (order.mem_iff.mpr (traceStanzas_mem_entries.mpr assigned))
    | none =>
      exact (holds_foldl_iff ((keys _).not.mpr (traceStanzas_key_not_mem assigned _))).mpr rfl

/-- A document of a table is read as its settings, if they are valid. -/
theorem WrittenIn.parse (written : t.WrittenIn text) :
    Settings.parse text = t.settings.validate.map fun _ => t.settings := by
  obtain ⟨cs, listed, whole, document, order⟩ := written
  have read : readEntries text = some listed :=
    document.readEntries whole ((order.map Entry.key).nodup_iff.mpr t.nodup_keys)
      fun entry member => fits_of_mem (order.mem_iff.mp member)
  rw [Settings.parse, read]
  simp only [ofEntries_perm order]
  cases t.settings.validate <;> rfl

theorem roomOf_eq_zero_iff {c : Capacity} : t.roomOf c = 0 ↔ t.room c = some 0 := by
  cases assigned : t.room c with
  | none => cases c <;> simp [roomOf, assigned, capacity]
  | some word => simp [roomOf, assigned, ← UInt64.toNat_inj]

end Table

section Checks

variable {s : Settings} {text : String}

/-- Settings are valid exactly if no capacity is zero. -/
theorem validate_eq_ok_iff : s.validate = .ok () ↔ ∀ c, s.capacity c ≠ 0 := by
  have all : ∀ c, c ∈ Capacity.all := fun c => by cases c <;> decide
  unfold validate
  split
  next c zero =>
    have refused : s.capacity c = 0 := by simpa using List.find?_some zero
    exact iff_of_false nofun fun rooms => rooms c refused
  next rooms =>
    refine iff_of_true rfl fun c => ?_
    simpa using List.find?_eq_none.mp rooms c (all c)

/-- The first zero capacity is reported. -/
theorem validate_eq_error {c : Capacity} (before : List Capacity) {after : List Capacity}
    (order : Capacity.all = before ++ c :: after) (rooms : ∀ d ∈ before, s.capacity d ≠ 0)
    (zero : s.capacity c = 0) : s.validate = .error (.zeroCapacity c) := by
  have passed : (before.find? fun d => s.capacity d = 0) = none :=
    List.find?_eq_none.mpr fun d member => by simpa using rooms d member
  have found : (Capacity.all.find? fun d => s.capacity d = 0) = some c := by
    rw [order, List.find?_append, passed, List.find?_cons_of_pos (by simpa using zero)]
    rfl
  rw [validate, found]

/-- Accepted settings are valid. -/
theorem validate_of_parse (accepted : parse text = .ok s) : s.validate = .ok () := by
  unfold parse at accepted
  split at accepted
  · cases accepted
  · dsimp only at accepted
    split at accepted
    next valid =>
      cases accepted
      exact valid
    · cases accepted

end Checks

/-- One way to write entries, one per line. -/
def write (entries : List Entry) : List Char :=
  entries.flatMap fun entry => entry.key.toList ++ " = ".toList ++ entry.value ++ ['\n']

/-- Written entries form a document. -/
theorem document_write (entries : List Entry) : Document (write entries) entries := by
  induction entries with
  | nil => exact .last (@Line.empty [] [] nofun .none)
  | cons entry entries ih =>
    have line : Line ([] ++ (entry.key.toList ++ ([' '] ++ '=' :: ([' '] ++
        (entry.value ++ ([] ++ [])))))) (some entry) :=
      .entry (.bare entry.key_ne_empty entry.isKeyChar_of_mem_key) (by simp [isGap]) .none
    have document := Document.more line .feed ih
    simpa [write] using document

/-- Every table can be written, in every order. -/
theorem Table.writtenIn_write {t : Table} {listed : List Entry} (order : listed.Perm t.entries) :
    t.WrittenIn (String.ofList (write listed)) :=
  ⟨_, listed, .inl String.toList_ofList, document_write listed, order⟩

/-- A document means its table, in any order of its entries. It is accepted, with the assigned
values and the defaults elsewhere, exactly if no capacity is zero, and otherwise refused with the
first zero capacity in the fixed order. A text with an unknown key is refused as unreadable.
Accepted settings are valid, and the clamping of capacities leaves them unchanged. -/
theorem document_means_table (text : String) :
    (∀ t : Table, t.WrittenIn text →
      (parse text = .ok t.settings ↔ ∀ c, t.room c ≠ some 0) ∧
      (t.room .inbound = some 0 → parse text = .error (.zeroCapacity .inbound)) ∧
      (t.room .inbound ≠ some 0 → t.room .outbound = some 0 →
        parse text = .error (.zeroCapacity .outbound)) ∧
      (t.room .inbound ≠ some 0 → t.room .outbound ≠ some 0 → t.room .filter = some 0 →
        parse text = .error (.zeroCapacity .filter))) ∧
    (HasOtherKey text.toList → parse text = .error .unreadable) ∧
    ∀ s, parse text = .ok s → s.validate = .ok () ∧ (∀ c, max 1 (s.capacity c) = s.capacity c) ∧
      ∀ jid faults, let start := Conversation.start jid s faults
        start.inflow.inbound.capacity = s.inboundCapacity ∧
        start.outflow.outbound.capacity = s.outboundCapacity ∧
        start.inflow.registry.capacity = s.filterCapacity := by
  refine ⟨fun t written => ?_, fun other => ?_, fun s accepted => ?_⟩
  · have zero : ∀ c, t.settings.capacity c = 0 ↔ t.room c = some 0 := fun c => by
      rw [t.capacity_settings, Table.roomOf_eq_zero_iff]
    rw [written.parse]
    refine ⟨?_, fun inbound => ?_, fun inbound outbound => ?_, fun inbound outbound filter => ?_⟩
    · have valid : t.settings.validate = .ok () ↔ ∀ c, t.room c ≠ some 0 := by
        simp only [validate_eq_ok_iff, ne_eq, zero]
      rw [map_eq_ok_iff, ← valid]
      exact ⟨fun ⟨_, valid, _⟩ => valid, fun valid => ⟨(), valid, rfl⟩⟩
    · rw [validate_eq_error [] rfl (by simp) ((zero _).mpr inbound)]
      rfl
    · rw [validate_eq_error [.inbound] rfl (by simpa [zero] using inbound)
        ((zero _).mpr outbound)]
      rfl
    · rw [validate_eq_error [.inbound, .outbound] rfl
        (by simpa [zero] using ⟨inbound, outbound⟩) ((zero _).mpr filter)]
      rfl
  · rw [parse, other.unread]
  · have valid := validate_of_parse accepted
    have clamped : ∀ c, max 1 (s.capacity c) = s.capacity c := fun c =>
      max_eq_right (Nat.pos_of_ne_zero (validate_eq_ok_iff.mp valid c))
    exact ⟨valid, clamped, fun jid faults =>
      ⟨clamped .inbound, clamped .outbound, clamped .filter⟩⟩

/-- Two zero capacities. -/
def shut : Table where
  room
    | .inbound => some 0
    | .outbound => some 7
    | .filter => some 0
  trace := none

/-- A capacity at the limit of the reader. -/
def roomy : Table where
  room
    | .inbound => some 18446744073709551615
    | .outbound => none
    | .filter => none
  trace := some true

theorem document_means_table_shut :
    parse "filter_capacity = 0\noutbound_capacity = 7\ninbound_capacity = 0\n" =
        .error (.zeroCapacity .inbound) ∧
      parse "trace_stanzas = true\ninbound_capacity = 18446744073709551615\n" =
        .ok { inboundCapacity := 18446744073709551615, traceStanzas := true } ∧
      parse "filter_capacity = 0\nbuffered = true" = .error .unreadable := by
  have shuffled : [.capacity .filter 0, .capacity .outbound 7, .capacity .inbound 0].Perm
      shut.entries := by decide
  have reversed : [.traceStanzas true, .capacity .inbound 18446744073709551615].Perm
      roomy.entries := by decide
  have shutText : String.ofList (write [.capacity .filter 0, .capacity .outbound 7,
      .capacity .inbound 0]) =
        "filter_capacity = 0\noutbound_capacity = 7\ninbound_capacity = 0\n" := by decide +kernel
  have roomyText : String.ofList (write [.traceStanzas true,
      .capacity .inbound 18446744073709551615]) =
        "trace_stanzas = true\ninbound_capacity = 18446744073709551615\n" := by decide +kernel
  have otherText : "filter_capacity = 0\nbuffered = true".toList = ("filter_capacity = 0".toList ++
      ['\n']) ++ ([] ++ ("buffered".toList ++ ' ' :: "= true".toList) ++ []) := by decide +kernel
  have other : HasOtherKey "filter_capacity = 0\nbuffered = true".toList := by
    rw [otherText]
    exact .line (.inr (.inr ⟨_, rfl⟩)) (by decide)
      (.bare (by decide) (List.all_eq_true.mp (by decide))) nofun (by simp [isKeyChar])
      (by decide +kernel) (.inl rfl)
  obtain ⟨refuses, -⟩ := document_means_table
    "filter_capacity = 0\noutbound_capacity = 7\ninbound_capacity = 0\n"
  obtain ⟨accepts, -⟩ := document_means_table
    "trace_stanzas = true\ninbound_capacity = 18446744073709551615\n"
  obtain ⟨-, unreadable, -⟩ := document_means_table "filter_capacity = 0\nbuffered = true"
  obtain ⟨-, first, -⟩ := refuses shut (shutText ▸ Table.writtenIn_write shuffled)
  obtain ⟨fine, -⟩ := accepts roomy (roomyText ▸ Table.writtenIn_write reversed)
  exact ⟨first rfl, fine.mpr fun c => by cases c <;> decide, unreadable other⟩

end StanzaExchange.Settings
