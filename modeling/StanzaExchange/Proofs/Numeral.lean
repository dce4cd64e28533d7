import Mathlib.Data.List.Induction
import Mathlib.Data.Nat.Digits.Defs
import StanzaExchange.Stanza.Decode

/-!
The texts that the decoder accepts as a presence priority (module decode of section 10.1 of the
specification). The number is accumulated digit by digit in the range -128 to 127, away from zero,
so an intermediate value out of range means that the whole is; `readPriority_eq_some_iff` gives the
exact set: a signed decimal numeral in range, with leading zeros and surrounding white space.
-/
namespace StanzaExchange

namespace Text

/-- A non-empty sequence of ASCII digits and its value. -/
structure Numeral (cs : List Char) (n : Nat) : Prop where
  nonempty : cs ≠ []
  digits : ∀ c ∈ cs, c.isDigit = true
  value : n = Nat.ofDigits 10 (cs.reverse.map fun c => c.toNat - '0'.toNat)

/-- A numeral with an optional sign and its value. -/
inductive Spells : List Char → Int → Prop
  | plain {cs : List Char} {n : Nat} (numeral : Numeral cs n) : Spells cs n
  | plus {cs : List Char} {n : Nat} (numeral : Numeral cs n) : Spells ('+' :: cs) n
  | minus {cs : List Char} {n : Nat} (numeral : Numeral cs n) : Spells ('-' :: cs) (-n)

variable {cs before core after : List Char} {n : Nat} {v : Int}

/-- The decimal digits are the ASCII ones. -/
theorem digitIn?_ten_eq_some_iff {c : Char} :
    digitIn? 10 c = some n ↔ c.isDigit = true ∧ n = c.toNat - '0'.toNat := by
  have digit : c.isDigit = true ↔ '0' ≤ c ∧ c ≤ '9' := by
    simp [Char.isDigit, Char.le_def]
  have size : ∀ {a b : Char}, a ≤ b ↔ a.toNat ≤ b.toNat := by
    intro a b
    rw [Char.le_def, UInt32.le_iff_toNat_le]
    rfl
  rw [digit, digitIn?, Option.filter_eq_some_iff, digitValue?]
  simp only [size, decide_eq_true_eq]
  constructor
  · rintro ⟨known, small⟩
    split at known
    next decimal => exact ⟨decimal, (Option.some.inj known).symm⟩
    · split at known
      · have := Option.some.inj known
        omega
      · split at known
        · have := Option.some.inj known
          omega
        · cases known
  · rintro ⟨decimal, rfl⟩
    rw [if_pos decimal]
    refine ⟨rfl, ?_⟩
    have nine : '9'.toNat = 57 := rfl
    have zero : '0'.toNat = 48 := rfl
    omega

theorem isBlank_of_isDigit {c : Char} (digit : c.isDigit = true) : isBlank c = false := by
  have range : 48 ≤ c.toNat ∧ c.toNat ≤ 57 := by
    simpa [Char.isDigit, UInt32.le_iff_toNat_le] using digit
  simp only [isBlank, Bool.or_eq_false_iff, Bool.and_eq_false_iff, decide_eq_false_iff_not,
    beq_eq_false_iff_ne]
  omega

/-- Trimming removes white space only. -/
theorem exists_trim (cs : List Char) : ∃ before after, cs = before ++ trim cs ++ after ∧
    (∀ c ∈ before, isBlank c = true) ∧ ∀ c ∈ after, isBlank c = true := by
  have blank : ∀ {row : List Char}, ∀ c ∈ row.takeWhile isBlank, isBlank c = true :=
    fun {row} => List.all_eq_true.mp row.all_takeWhile
  refine ⟨cs.takeWhile isBlank, ((cs.dropWhile isBlank).reverse.takeWhile isBlank).reverse, ?_,
    blank, fun c member => blank c (List.mem_reverse.mp member)⟩
  rw [trim, List.append_assoc, ← List.reverse_append, List.takeWhile_append_dropWhile,
    List.reverse_reverse, List.takeWhile_append_dropWhile]

/-- Trimming keeps a text that neither starts nor ends with white space. -/
theorem trim_append (leading : ∀ c ∈ before, isBlank c = true)
    (trailing : ∀ c ∈ after, isBlank c = true) (first : ∀ c ∈ core.head?, isBlank c = false)
    (last : ∀ c ∈ core.getLast?, isBlank c = false) (nonempty : core ≠ []) :
    trim (before ++ core ++ after) = core := by
  have stops : ∀ {row rest : List Char}, (∀ c ∈ row.head?, isBlank c = false) → row ≠ [] →
      (row ++ rest).dropWhile isBlank = row ++ rest := by
    intro row rest solid full
    cases row with
    | nil => exact absurd rfl full
    | cons c row => rw [List.cons_append, List.dropWhile_cons_of_neg (by simp [solid c rfl])]
  have back : (core ++ after).reverse = after.reverse ++ (core.reverse ++ []) := by simp
  rw [trim, List.append_assoc, List.dropWhile_append_of_pos leading, stops first nonempty, back,
    List.dropWhile_append_of_pos fun c member => trailing c (List.mem_reverse.mp member),
    stops (by simpa using last) (by simpa using nonempty), List.append_nil, List.reverse_reverse]

theorem Numeral.ends_solid (numeral : Numeral cs n) :
    (∀ c ∈ cs.head?, isBlank c = false) ∧ ∀ c ∈ cs.getLast?, isBlank c = false :=
  ⟨fun c first => isBlank_of_isDigit (numeral.digits c (List.mem_of_head? first)),
    fun c last => isBlank_of_isDigit (numeral.digits c (List.mem_of_getLast? last))⟩

/-- A numeral neither starts nor ends with white space. -/
theorem Spells.ends_solid (spells : Spells cs v) : cs ≠ [] ∧
    (∀ c ∈ cs.head?, isBlank c = false) ∧ ∀ c ∈ cs.getLast?, isBlank c = false := by
  have signed : ∀ {sign : Char} {cs : List Char} {n : Nat}, isBlank sign = false →
      Numeral cs n → ∀ c ∈ (sign :: cs).getLast?, isBlank c = false := by
    intro sign cs n solid numeral c last
    rw [List.getLast?_cons, Option.mem_some_iff] at last
    cases ending : cs.getLast? with
    | none => rw [← last, ending]; exact solid
    | some found => rw [← last, ending]; exact numeral.ends_solid.2 found ending
  cases spells with
  | plain numeral => exact ⟨numeral.nonempty, numeral.ends_solid⟩
  | plus numeral => exact ⟨List.cons_ne_nil _ _, by simp; decide, signed (by decide) numeral⟩
  | minus numeral => exact ⟨List.cons_ne_nil _ _, by simp; decide, signed (by decide) numeral⟩

end Text

namespace Priority

open Text (Numeral Spells)

variable {rank p : Priority} {negative : Bool} {digits : List Char} {n : Nat}

def signed (negative : Bool) (n : Nat) : Int := if negative then -n else n

theorem signed_push (negative : Bool) (n digit : Nat) : signed negative (10 * n + digit) =
    if negative then 10 * signed negative n - digit else 10 * signed negative n + digit := by
  cases negative with
  | false => simp [signed]
  | true =>
    simp only [signed, if_true]
    omega

theorem ofInt?_eq_some_iff {v : Int} : ofInt? v = some p ↔ p.value = v := by
  unfold ofInt?
  split
  next inside =>
    rw [Option.some.injEq]
    constructor
    · rintro rfl
      rfl
    · rintro rfl
      rfl
  next outside =>
    constructor
    · nofun
    · rintro rfl
      exact absurd ⟨p.lower, p.upper⟩ outside

/-- One digit more. The product cannot leave the range unless the sum does, since both have the sign
of the number. -/
theorem push?_eq_some_iff {c : Char} (size : rank.value = signed negative n) :
    rank.push? negative c = some p ↔
      ∃ digit, Text.digitIn? 10 c = some digit ∧ p.value = signed negative (10 * n + digit) := by
  have within := And.intro p.lower p.upper
  simp only [push?, Option.bind_eq_bind, Option.bind_eq_some_iff, ofInt?_eq_some_iff, signed_push,
    ← size]
  constructor
  · rintro ⟨tens, ten, digit, known, sum⟩
    exact ⟨digit, known, ten ▸ sum⟩
  · rintro ⟨digit, known, sum⟩
    have bounds : -128 ≤ 10 * rank.value ∧ 10 * rank.value ≤ 127 := by
      rw [sum, size] at within
      rw [size]
      cases negative <;> simp [signed] at within ⊢ <;> omega
    exact ⟨⟨10 * rank.value, bounds.1, bounds.2⟩, rfl, digit, known, sum⟩

/-- A digit sequence is accumulated to its value, if that is in range. -/
theorem foldlM_push?_eq_some_iff : digits.foldlM (push? negative) zero = some p ↔
    (∀ c ∈ digits, c.isDigit = true) ∧ p.value = signed negative
      (Nat.ofDigits 10 (digits.reverse.map fun c => c.toNat - '0'.toNat)) := by
  induction digits using List.reverseRecOn generalizing p with
  | nil =>
    have zero_iff : some zero = some p ↔ p.value = 0 := by
      rw [← ofInt?_eq_some_iff]
      rfl
    simpa [signed] using zero_iff
  | append_singleton digits c ih =>
    have within := And.intro p.lower p.upper
    rw [List.foldlM_append, List.reverse_append, List.map_append]
    simp only [List.foldlM_cons, List.foldlM_nil, bind_pure, Option.bind_eq_bind,
      Option.bind_eq_some_iff, List.reverse_singleton, List.map_singleton, List.singleton_append,
      Nat.ofDigits_cons]
    generalize Nat.ofDigits 10 (digits.reverse.map fun c => c.toNat - '0'.toNat) = n at ih ⊢
    constructor
    · rintro ⟨rank, before, pushed⟩
      obtain ⟨decimal, size⟩ := ih.mp before
      obtain ⟨digit, known, sum⟩ := (push?_eq_some_iff size).mp pushed
      obtain ⟨isDigit, rfl⟩ := Text.digitIn?_ten_eq_some_iff.mp known
      refine ⟨?_, by rw [sum]; congr 1; omega⟩
      intro other member
      rcases List.mem_append.mp member with earlier | last
      · exact decimal other earlier
      · exact List.mem_singleton.mp last ▸ isDigit
    · rintro ⟨decimal, sum⟩
      have bounds : -128 ≤ signed negative n ∧ signed negative n ≤ 127 := by
        rw [sum] at within
        cases negative <;> simp [signed] at within ⊢ <;> omega
      let rank : Priority := ⟨signed negative n, bounds.1, bounds.2⟩
      refine ⟨rank, ih.mpr ⟨fun other earlier => decimal other (by simp [earlier]), rfl⟩,
        (push?_eq_some_iff rfl).mpr ⟨_, Text.digitIn?_ten_eq_some_iff.mpr
          ⟨decimal c (by simp), rfl⟩, ?_⟩⟩
      rw [sum]
      congr 1
      omega

/-- An unsigned digit sequence is read to its value, with the sign given. -/
theorem ofDigits?_eq_some_iff : ofDigits? negative digits = some p ↔
    ∃ n, Numeral digits n ∧ p.value = signed negative n := by
  unfold ofDigits?
  split
  next empty =>
    constructor
    · nofun
    · rintro ⟨n, numeral, -⟩
      exact absurd empty numeral.nonempty
  next nonempty =>
    rw [foldlM_push?_eq_some_iff]
    constructor
    · rintro ⟨decimal, value⟩
      exact ⟨_, ⟨nonempty, decimal, rfl⟩, value⟩
    · rintro ⟨n, numeral, value⟩
      exact ⟨numeral.digits, by rw [value, numeral.value]⟩

/-- A text is read exactly if it is a numeral in range. -/
theorem ofChars?_eq_some_iff {cs : List Char} : ofChars? cs = some p ↔ Spells cs p.value := by
  constructor
  · intro read
    unfold ofChars? at read
    split at read
    · obtain ⟨n, numeral, value⟩ := ofDigits?_eq_some_iff.mp read
      exact value ▸ .plus numeral
    · obtain ⟨n, numeral, value⟩ := ofDigits?_eq_some_iff.mp read
      exact value ▸ .minus numeral
    · obtain ⟨n, numeral, value⟩ := ofDigits?_eq_some_iff.mp read
      exact value ▸ .plain numeral
  · generalize value : p.value = v
    intro spells
    cases spells with
    | plus numeral => exact ofDigits?_eq_some_iff.mpr ⟨_, numeral, value⟩
    | minus numeral => exact ofDigits?_eq_some_iff.mpr ⟨_, numeral, value⟩
    | plain numeral =>
      -- without a sign the first character is a digit
      unfold ofChars?
      split
      · exact absurd (numeral.digits '+' List.mem_cons_self) (by decide)
      · exact absurd (numeral.digits '-' List.mem_cons_self) (by decide)
      · exact ofDigits?_eq_some_iff.mpr ⟨_, numeral, value⟩

/-- A text that contains a priority: a numeral in range between white space. -/
structure Written (text : String) (v : Int) : Prop where
  spelled : ∃ before number after, text.toList = before ++ number ++ after ∧
    (∀ c ∈ before, Text.isBlank c = true) ∧ (∀ c ∈ after, Text.isBlank c = true) ∧
    Spells number v
  lower : -128 ≤ v
  upper : v ≤ 127

/-- Exact characterisation of the accepted texts. -/
theorem readPriority_eq_some_iff {text : String} :
    Element.readPriority text = some p ↔ Written text p.value := by
  rw [Element.readPriority, ofChars?_eq_some_iff]
  constructor
  · intro spells
    obtain ⟨before, after, whole, leading, trailing⟩ := Text.exists_trim text.toList
    exact ⟨⟨before, _, after, whole, leading, trailing, spells⟩, p.lower, p.upper⟩
  · rintro ⟨⟨before, number, after, whole, leading, trailing, spells⟩, -, -⟩
    obtain ⟨nonempty, first, last⟩ := spells.ends_solid
    rwa [whole, Text.trim_append leading trailing first last nonempty]

theorem exists_of_written {text : String} {v : Int} (written : Written text v) :
    ∃ p, Element.readPriority text = some p ∧ p.value = v :=
  ⟨⟨v, written.lower, written.upper⟩, readPriority_eq_some_iff.mpr written, rfl⟩

theorem Written.unique {text : String} {v w : Int} (first : Written text v)
    (second : Written text w) : v = w := by
  obtain ⟨p, read, rfl⟩ := exists_of_written first
  obtain ⟨q, again, rfl⟩ := exists_of_written second
  rw [Option.some.inj (read.symm.trans again)]

end Priority

end StanzaExchange
