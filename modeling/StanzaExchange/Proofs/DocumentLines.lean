import Mathlib.Data.List.Basic
import StanzaExchange.Proofs.Numeral
import StanzaExchange.Settings.Document

/-!
The lines of a settings document, read back from what was written. `Line` describes the lines of the
fragment of TOML in `Settings.Document`: blank, or an assignment with a bare or quoted key, with
spaces, tabs and comments where TOML allows them. A reader returns the entry of a line
(`readLine_of_line`), and a text splits into its lines (`exists_splitLines`).
-/
namespace StanzaExchange.Settings

section Rows

variable {p : Char → Bool} {row rest : List Char}

theorem takeWhile_stops (kind : ∀ c ∈ row, p c = true) (stop : ∀ c ∈ rest.head?, p c = false) :
    (row ++ rest).takeWhile p = row := by
  rw [List.takeWhile_append_of_pos kind]
  cases rest with
  | nil => simp
  | cons c rest => simp [stop c rfl]

theorem dropWhile_stops (kind : ∀ c ∈ row, p c = true) (stop : ∀ c ∈ rest.head?, p c = false) :
    (row ++ rest).dropWhile p = rest := by
  rw [List.dropWhile_append_of_pos kind]
  cases rest with
  | nil => rfl
  | cons c rest => exact List.dropWhile_cons_of_neg (by simp [stop c rfl])

end Rows

section Decimals

variable {cs : List Char} {n : Nat}

theorem digitValue?_of_isDigit {c : Char} (digit : c.isDigit = true) :
    Text.digitValue? c = some (c.toNat - '0'.toNat) ∧ Text.isDigit 10 c = true := by
  have known := Text.digitIn?_ten_eq_some_iff.mpr ⟨digit, rfl⟩
  obtain ⟨value, small⟩ := Option.filter_eq_some_iff.mp known
  exact ⟨value, by rw [Text.isDigit, value]; exact small⟩

/-- Digits without underscores are read as they are. -/
theorem readDigits_of_digits (nonempty : cs ≠ []) (digits : ∀ c ∈ cs, c.isDigit = true) :
    readDigits 10 cs = some cs := by
  have digit : ∀ {c : Char} {cs : List Char}, (∀ d ∈ c :: cs, d.isDigit = true) →
      Text.isDigit 10 c = true := fun all => (digitValue?_of_isDigit (all _ (by simp))).2
  fun_induction readDigits 10 cs with
  | case1 => exact absurd rfl nonempty
  | case2 c ten => rfl
  | case3 c other => exact absurd (digit digits) other
  | case4 c rest | case5 c rest => exact absurd (digits '_' (by simp)) (by decide)
  | case6 c rest other more ten ih =>
    rw [ih other fun d member => digits d (List.mem_cons_of_mem _ member)]
    rfl
  | case7 c rest other more none => exact absurd (digit digits) none

theorem valueOf_ten (digits : ∀ c ∈ cs, c.isDigit = true) :
    Text.valueOf 10 cs = Nat.ofDigitChars 10 cs 0 := by
  rw [Text.valueOf, Nat.ofDigitChars_eq_foldl]
  refine List.foldl_ext _ _ _ fun value c member => ?_
  rw [(digitValue?_of_isDigit (digits c member)).1]
  rfl

theorem head?_toDigits (positive : 0 < n) : (Nat.toDigits 10 n).head? ≠ some '0' := by
  have digit : ∀ n < 10, 0 < n → [n.digitChar].head? ≠ some '0' := by decide
  induction n using Nat.strongRecOn with
  | ind n ih =>
    by_cases small : n < 10
    · rw [Nat.toDigits_of_lt_base small]
      exact digit n small positive
    · rw [Nat.toDigits_of_base_le (by decide) (Nat.le_of_not_lt small),
        List.head?_append_of_ne_nil _ Nat.toDigits_ne_nil]
      exact ih (n / 10) (by omega) (by omega)

/-- A decimal numeral is read back. -/
theorem readPlain_toDigits (n : Nat) : readPlain (Nat.toDigits 10 n) = some n := by
  have digits : ∀ c ∈ Nat.toDigits 10 n, c.isDigit = true := fun c member =>
    Nat.isDigit_of_mem_toDigits (by decide) (by decide) member
  have value := (valueOf_ten digits).trans Nat.ofDigitChars_ten_toDigits
  rw [readPlain, readDigits_of_digits Nat.toDigits_ne_nil digits]
  split
  next zero =>
    rw [Option.some.inj zero] at value
    exact congrArg some value
  next rest other leading =>
    have head := Option.some.inj leading
    rcases Nat.eq_zero_or_pos n with rfl | positive
    · exact (other (List.cons.inj head).2.symm).elim
    · exact absurd (by rw [head]; rfl) (head?_toDigits positive)
  next found => rw [← Option.some.inj found, value]
  next none => cases none

/-- Decimal numerals are read back. -/
theorem readCapacity_toDigits (inRange : n ≤ largestCapacity) :
    readCapacity (Nat.toDigits 10 n) = some n := by
  have digits : ∀ c ∈ Nat.toDigits 10 n, c.isDigit = true := fun c member =>
    Nat.isDigit_of_mem_toDigits (by decide) (by decide) member
  have whole : readWhole (Nat.toDigits 10 n) = some (Int.ofNat n) := by
    -- a digit is neither a sign nor the prefix of another base
    have plain : ∀ (before : List Char) {after : List Char} {c : Char},
        Nat.toDigits 10 n = before ++ c :: after → c.isDigit = true := fun before _ _ split =>
      digits _ (by rw [split]; simp)
    unfold readWhole
    split
    next marked => exact absurd (plain ['0'] marked) (by decide)
    next marked => exact absurd (plain ['0'] marked) (by decide)
    next marked => exact absurd (plain ['0'] marked) (by decide)
    next signed => exact absurd (plain [] signed) (by decide)
    next signed => exact absurd (plain [] signed) (by decide)
    · rw [readPlain_toDigits]
      rfl
  rw [readCapacity, whole]
  exact if_pos inRange

end Decimals

/-- The keys of the settings table. -/
def keys : List String := Capacity.all.map Capacity.key ++ ["trace_stanzas"]

namespace Entry

theorem key_mem_keys (entry : Entry) : entry.key ∈ keys := by
  cases entry with
  | capacity c n => cases c <;> simp [keys, key, Capacity.all]
  | traceStanzas b => simp [keys, key]

/-- The spelling of a value. -/
def value : Entry → List Char
  | .capacity _ n => Nat.toDigits 10 n
  | .traceStanzas b => (if b then "true" else "false").toList

/-- The capacity is in the range of the reader. -/
def Fits : Entry → Prop
  | .capacity _ n => n ≤ largestCapacity
  | .traceStanzas _ => True

theorem isKeyChar_of_isDigit {c : Char} (digit : c.isDigit = true) : isKeyChar c = true := by
  have range : '0' ≤ c ∧ c ≤ '9' := by simpa [Char.isDigit, Char.le_def] using digit
  simp [isKeyChar, range]

theorem isKeyChar_of_mem_value (entry : Entry) : ∀ c ∈ entry.value, isKeyChar c = true := by
  cases entry with
  | capacity c n =>
    exact fun c member =>
      isKeyChar_of_isDigit (Nat.isDigit_of_mem_toDigits (by decide) (by decide) member)
  | traceStanzas b => cases b <;> exact List.all_eq_true.mp (by decide)

theorem value_ne_nil (entry : Entry) : entry.value ≠ [] := by
  cases entry with
  | capacity c n => exact Nat.toDigits_ne_nil
  | traceStanzas b => cases b <;> decide

theorem isKeyChar_of_mem_key (entry : Entry) : ∀ c ∈ entry.key.toList, isKeyChar c = true := by
  have plain : keys.all (fun key => key.toList.all isKeyChar) = true := by decide
  exact List.all_eq_true.mp (List.all_eq_true.mp plain _ entry.key_mem_keys)

theorem key_ne_empty (entry : Entry) : entry.key ≠ "" := fun same =>
  absurd (same ▸ entry.key_mem_keys) (by decide : "" ∉ keys)

theorem readEntry_value (entry : Entry) (fits : entry.Fits) :
    readEntry entry.key entry.value = some entry := by
  cases entry with
  | capacity c n =>
    have room : readCapacity (value (.capacity c n)) = some n := readCapacity_toDigits fits
    cases c <;> simp [readEntry, key, Capacity.key, Capacity.all, List.find?, room]
  | traceStanzas b => cases b <;> rfl

/-- No entry is read for an unknown key. -/
theorem readEntry_of_other {other : String} (foreign : other ∉ keys) (value : List Char) :
    readEntry other value = none := by
  have apart : ∀ entry : Entry, entry.key ≠ other := fun entry same =>
    foreign (same ▸ entry.key_mem_keys)
  have absent : (Capacity.all.find? fun c => c.key = other) = none := by
    simpa [key] using fun c (_ : c ∈ Capacity.all) => apart (.capacity c 0)
  rw [readEntry, if_neg fun same => apart (.traceStanzas true) same.symm, absent]

end Entry

/-- The spellings of a key: bare, or quoted by either quote. -/
inductive SpellsKey (key : String) : List Char → Prop
  | bare (nonempty : key ≠ "") (plain : ∀ c ∈ key.toList, isKeyChar c = true) :
      SpellsKey key key.toList
  | literal (inside : '\'' ∉ key.toList) : SpellsKey key ('\'' :: (key.toList ++ ['\'']))
  | basic (inside : ∀ c ∈ key.toList, c ≠ '"' ∧ c ≠ '\\') :
      SpellsKey key ('"' :: (key.toList ++ ['"']))

/-- A comment or nothing. -/
inductive Remark : List Char → Prop
  | none : Remark []
  | comment {text : List Char} (shown : ∀ c ∈ text, isControl c = false) : Remark ('#' :: text)

/-- The lines with their entries, if any. -/
inductive Line : List Char → Option Entry → Prop
  | empty {gap remark : List Char} (gaps : ∀ c ∈ gap, isGap c = true) (remarks : Remark remark) :
      Line (gap ++ remark) none
  | entry {entry : Entry} {indent name left right gap remark : List Char}
      (spelled : SpellsKey entry.key name)
      (gaps : ∀ c ∈ indent ++ left ++ right ++ gap, isGap c = true) (remarks : Remark remark) :
      Line (indent ++ (name ++ (left ++ '=' :: (right ++ (entry.value ++ (gap ++ remark))))))
        (some entry)

section Lines

variable {key : String} {cs name : List Char}

theorem readQuotedKey_append {rest : List Char} (inside : ∀ c ∈ cs, c ≠ '"' ∧ c ≠ '\\') :
    readQuotedKey (cs ++ '"' :: rest) = some (cs, rest) := by
  induction cs with
  | nil => rfl
  | cons c cs ih =>
    obtain ⟨quote, escape⟩ := inside c (by simp)
    have others : ∀ d ∈ cs, d ≠ '"' ∧ d ≠ '\\' := fun d member =>
      inside d (List.mem_cons_of_mem _ member)
    rw [List.cons_append, readQuotedKey, ih others]
    · rfl
    all_goals simp_all

theorem exists_first_of_bare (nonempty : key ≠ "")
    (plain : ∀ c ∈ key.toList, isKeyChar c = true) :
    ∃ first more, key.toList = first :: more ∧ isKeyChar first = true := by
  cases chars : key.toList with
  | nil => exact absurd (String.toList_eq_nil_iff.mp chars) nonempty
  | cons first more => exact ⟨first, more, rfl, plain first (by simp [chars])⟩

/-- A key is read back up to the first character that cannot belong to it. -/
theorem SpellsKey.readKey {rest : List Char} (spelled : SpellsKey key name)
    (stop : ∀ c ∈ rest.head?, isKeyChar c = false) :
    Settings.readKey (name ++ rest) = some (key, rest) := by
  cases spelled with
  | bare nonempty plain =>
    obtain ⟨first, others, chars, letter⟩ := exists_first_of_bare nonempty plain
    have unquoted : ∀ {c : Char} {more : List Char}, key.toList ++ rest = c :: more →
        isKeyChar c = true := by
      intro c more starts
      rw [chars] at starts
      exact (List.cons.inj starts).1 ▸ letter
    unfold Settings.readKey
    split
    next quoted => exact absurd (unquoted quoted) (by decide)
    next quoted => exact absurd (unquoted quoted) (by decide)
    · rw [takeWhile_stops plain stop, dropWhile_stops plain stop, String.ofList_toList]
  | literal inside =>
    have inner : ∀ c ∈ key.toList, decide (c ≠ '\'') = true := fun c member =>
      decide_eq_true fun same => inside (same ▸ member)
    rw [List.cons_append, List.append_assoc, Settings.readKey,
      dropWhile_stops inner (by simp), takeWhile_stops inner (by simp)]
    simp
  | basic inside =>
    rw [List.cons_append, List.append_assoc, List.singleton_append, Settings.readKey,
      readQuotedKey_append inside]
    simp

theorem ne_of_isKeyChar {c d : Char} (plain : isKeyChar c = true) (other : isKeyChar d = false) :
    c ≠ d := by
  rintro rfl
  exact Bool.false_ne_true (other.symm.trans plain)

theorem isGap_iff {c : Char} : isGap c = true ↔ c = ' ' ∨ c = '\t' := by
  simp [isGap]

theorem isGap_of_isKeyChar {c : Char} (plain : isKeyChar c = true) : isGap c = false := by
  rw [Bool.eq_false_iff, ne_eq, isGap_iff]
  exact not_or.mpr ⟨ne_of_isKeyChar plain (by decide), ne_of_isKeyChar plain (by decide)⟩

theorem isKeyChar_of_isGap {c : Char} (gap : isGap c = true) : isKeyChar c = false := by
  rcases isGap_iff.mp gap with rfl | rfl <;> decide

theorem SpellsKey.exists_first (spelled : SpellsKey key name) :
    ∃ first more, name = first :: more ∧
      (isKeyChar first = true ∨ first = '\'' ∨ first = '"') := by
  cases spelled with
  | bare nonempty plain =>
    obtain ⟨first, more, chars, letter⟩ := exists_first_of_bare nonempty plain
    exact ⟨first, more, chars, .inl letter⟩
  | literal => exact ⟨_, _, rfl, .inr (.inl rfl)⟩
  | basic => exact ⟨_, _, rfl, .inr (.inr rfl)⟩

theorem isGap_of_first {c : Char} (first : isKeyChar c = true ∨ c = '\'' ∨ c = '"') :
    isGap c = false ∧ c ≠ '#' := by
  rcases first with plain | rfl | rfl
  · exact ⟨isGap_of_isKeyChar plain, ne_of_isKeyChar plain (by decide)⟩
  · decide
  · decide

theorem Remark.stops (remarks : Remark cs) : ∀ c ∈ cs.head?, isGap c = false := by
  cases remarks with
  | none => nofun
  | comment shown => simp [isGap]

theorem isLineEnd_of_remark {gap : List Char} (gaps : ∀ c ∈ gap, isGap c = true)
    (remarks : Remark cs) : isLineEnd (gap ++ cs) = true := by
  rw [isLineEnd, dropWhile_stops gaps remarks.stops]
  cases remarks with
  | none => rfl
  | comment shown => simpa using shown

/-- A character of a value; spaces, tabs and comments end it. -/
def isWordChar (c : Char) : Bool := !(isGap c || c == '#')

/-- A line that begins with a key is an assignment to it, or unreadable. -/
theorem readLine_of_key {indent rest : List Char} (spelled : SpellsKey key name)
    (gaps : ∀ c ∈ indent, isGap c = true) (stop : ∀ c ∈ rest.head?, isKeyChar c = false) :
    readLine (indent ++ (name ++ rest)) = match rest.dropWhile isGap with
      | '=' :: value =>
        (readEntry key ((value.dropWhile isGap).takeWhile isWordChar)).bind fun entry =>
          if isLineEnd ((value.dropWhile isGap).dropWhile isWordChar) then some (some entry)
          else none
      | _ => none := by
  obtain ⟨first, more, rfl, starts⟩ := spelled.exists_first
  obtain ⟨solid, unmarked⟩ := isGap_of_first starts
  have indented : (indent ++ (first :: more ++ rest)).dropWhile isGap = first :: more ++ rest :=
    dropWhile_stops gaps (by simpa using solid)
  have begun : isLineEnd (indent ++ (first :: more ++ rest)) = false := by
    rw [isLineEnd, indented]
    split
    next none => cases none
    next comment marked => exact absurd (List.cons.inj marked).1 unmarked
    · rfl
  rw [readLine, begun, indented, if_neg Bool.false_ne_true, spelled.readKey stop]
  rfl

/-- A line is read as its entry. -/
theorem readLine_of_line {found : Option Entry} (line : Line cs found)
    (fits : ∀ entry ∈ found, entry.Fits) : readLine cs = some found := by
  cases line with
  | empty gaps remarks => rw [readLine, if_pos (isLineEnd_of_remark gaps remarks)]
  | @entry entry indent name left right gap remark spelled gaps remarks =>
    have word : ∀ c ∈ entry.value, isWordChar c = true := fun c member => by
      have plain := entry.isKeyChar_of_mem_value c member
      simp [isWordChar, isGap_of_isKeyChar plain, ne_of_isKeyChar plain (d := '#') (by decide)]
    have ends : ∀ c ∈ (gap ++ remark).head?, isWordChar c = false := by
      cases gap with
      | nil =>
        cases remarks with
        | none => nofun
        | comment => simp [isWordChar]
      | cons c gap => simp [isWordChar, gaps c (by simp)]
    have value : ∀ c ∈ (entry.value ++ (gap ++ remark)).head?, isGap c = false := by
      intro c head
      cases chars : entry.value with
      | nil => exact absurd chars entry.value_ne_nil
      | cons first others =>
        rw [chars] at head
        obtain rfl := Option.some.inj head
        exact isGap_of_isKeyChar (entry.isKeyChar_of_mem_value first (by simp [chars]))
    have stop : ∀ c ∈ (left ++ '=' :: (right ++ (entry.value ++ (gap ++ remark)))).head?,
        isKeyChar c = false := by
      cases left with
      | nil => simp [isKeyChar]
      | cons c left => simpa using isKeyChar_of_isGap (gaps c (by simp))
    rw [readLine_of_key spelled (fun c member => gaps c (by simp [member])) stop,
      dropWhile_stops (fun c member => gaps c (by simp [member])) (by simp [isGap])]
    change (readEntry entry.key (((right ++ (entry.value ++ (gap ++ remark))).dropWhile
      isGap).takeWhile isWordChar)).bind _ = _
    rw [dropWhile_stops (fun c member => gaps c (by simp [member])) value,
      takeWhile_stops word ends, dropWhile_stops word ends, entry.readEntry_value (fits entry rfl),
      isLineEnd_of_remark (fun c member => gaps c (by simp [member])) remarks]
    rfl

/-- No line break inside. -/
def Unbroken (cs : List Char) : Prop := ∀ c ∈ cs, c ≠ '\n' ∧ c ≠ '\r'

instance : Decidable (Unbroken cs) :=
  decidable_of_iff (cs.all fun c => c != '\n' && c != '\r') (by simp [Unbroken])

theorem unbroken_append {more : List Char} :
    Unbroken (cs ++ more) ↔ Unbroken cs ∧ Unbroken more :=
  List.forall_mem_append

theorem unbroken_cons {c : Char} :
    Unbroken (c :: cs) ↔ (c ≠ '\n' ∧ c ≠ '\r') ∧ Unbroken cs :=
  List.forall_mem_cons

theorem unbroken_of_isKeyChar (plain : ∀ c ∈ cs, isKeyChar c = true) : Unbroken cs :=
  fun c member => ⟨ne_of_isKeyChar (plain c member) (by decide),
    ne_of_isKeyChar (plain c member) (by decide)⟩

theorem unbroken_of_isGap (gaps : ∀ c ∈ cs, isGap c = true) : Unbroken cs := by
  intro c member
  rcases isGap_iff.mp (gaps c member) with rfl | rfl <;> decide

theorem Remark.unbroken (remarks : Remark cs) : Unbroken cs := by
  cases remarks with
  | none => nofun
  | comment shown =>
    refine unbroken_cons.mpr ⟨by decide, fun c member => ⟨?_, ?_⟩⟩ <;> rintro rfl
    · exact absurd (shown _ member) (by decide)
    · exact absurd (shown _ member) (by decide)

/-- A line has no line break inside. -/
theorem Line.unbroken {found : Option Entry} (line : Line cs found) : Unbroken cs := by
  cases line with
  | empty gaps remarks => exact unbroken_append.mpr ⟨unbroken_of_isGap gaps, remarks.unbroken⟩
  | @entry entry indent name left right gap remark spelled gaps remarks =>
    have named : Unbroken name := by
      have plain := unbroken_of_isKeyChar entry.isKeyChar_of_mem_key
      cases spelled with
      | bare => exact plain
      | literal | basic =>
        refine unbroken_cons.mpr ⟨by decide, unbroken_append.mpr ⟨plain, ?_⟩⟩
        exact unbroken_cons.mpr ⟨by decide, nofun⟩
    have value := unbroken_of_isKeyChar entry.isKeyChar_of_mem_value
    have separated := unbroken_of_isGap gaps
    simp only [unbroken_append, unbroken_cons] at separated ⊢
    obtain ⟨⟨⟨indented, behind⟩, before⟩, ending⟩ := separated
    exact ⟨indented, named, behind, by decide, before, value, ending, remarks.unbroken⟩

/-- The line breaks. -/
inductive Break : List Char → Prop
  | feed : Break ['\n']
  | both : Break ['\r', '\n']

theorem splitLines_cons {c : Char} (feed : c ≠ '\n') (both : c = '\r' → cs.head? ≠ some '\n')
    {line : List Char} {lines : List (List Char)} (split : splitLines cs = line :: lines) :
    splitLines (c :: cs) = (c :: line) :: lines := by
  rw [splitLines, split]
  · rintro rest rfl rfl
    exact both rfl rfl
  · rintro rfl
    exact feed rfl

theorem splitLines_of_unbroken (unbroken : Unbroken cs) : splitLines cs = [cs] := by
  induction cs with
  | nil => rfl
  | cons c cs ih =>
    obtain ⟨plain, within⟩ := unbroken_cons.mp unbroken
    exact splitLines_cons plain.1 (absurd · plain.2) (ih within)

theorem splitLines_append {ending rest : List Char} (unbroken : Unbroken cs) (ends : Break ending) :
    splitLines (cs ++ (ending ++ rest)) = cs :: splitLines rest := by
  induction cs with
  | nil => cases ends <;> rfl
  | cons c cs ih =>
    obtain ⟨plain, within⟩ := unbroken_cons.mp unbroken
    exact splitLines_cons plain.1 (absurd · plain.2) (ih within)

/-- Behind a line break the next line starts. -/
theorem exists_splitLines (before rest : List Char) :
    ∃ first lines, splitLines (before ++ '\n' :: rest) = first :: lines ++ splitLines rest := by
  induction before with
  | nil => exact ⟨[], [], rfl⟩
  | cons c before ih =>
    obtain ⟨first, lines, split⟩ := ih
    by_cases feed : c = '\n'
    · subst feed
      exact ⟨[], first :: lines, congrArg ([] :: ·) split⟩
    · by_cases both : c = '\r' ∧ (before ++ '\n' :: rest).head? = some '\n'
      · -- the carriage return belongs to the line feed behind it
        obtain ⟨rfl, next⟩ := both
        obtain ⟨more, behind⟩ := List.head?_eq_some_iff.mp next
        refine ⟨first, lines, ?_⟩
        rw [← split, List.cons_append, behind]
        rfl
      · exact ⟨c :: first, lines,
          splitLines_cons feed (fun same next => both ⟨same, next⟩) split⟩

end Lines

end StanzaExchange.Settings
