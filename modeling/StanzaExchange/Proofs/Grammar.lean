import StanzaExchange.Proofs.Numeral
import StanzaExchange.Proofs.Sequences

/-!
The grammar of stanzas (module decode of section 10.1 of the specification): for each tag a list of
rules, in the order in which the decoder checks them, each stated of the element alone.
`decode_checks` proves that decoding fails exactly with the first broken rule, from one lemma per
reader: the readers are sequences of checks, and `ChecksAll` composes along them.
-/
namespace StanzaExchange

/-- The rules of the grammar. -/
inductive Rule where
  /-- The name is that of the tag. -/
  | named
  /-- The attribute is present. -/
  | given (attr : String)
  /-- The type attribute, if present, is one of the tag's types. -/
  | typed
  /-- The first priority child, if present, contains a priority. -/
  | ranked
  /-- The attribute, if present, is an address. -/
  | addressed (attr : String)

/-- The rules of a tag, in the order of checking. -/
def Tag.rules : Tag → List Rule
  | .error => [.named]
  | .iq => [.named, .given "id", .given "type", .typed, .addressed "from", .addressed "to"]
  | .message => [.named, .typed, .addressed "from", .addressed "to"]
  | .presence => [.named, .typed, .ranked, .addressed "from", .addressed "to"]

/-- The admissible values of the type attribute. -/
def Tag.types : Tag → List String
  | .error => []
  | .iq => ["get", "set", "result", "error"]
  | .message => ["chat", "error", "groupchat", "headline", "normal"]
  | .presence =>
    ["error", "probe", "subscribe", "subscribed", "unavailable", "unsubscribe", "unsubscribed"]

namespace Rule

variable {tag : Tag} {e : Element} {rule : Rule} {rules rest : List Rule} {error : DecodeError}

/-- The element satisfies the rule. -/
def Kept (tag : Tag) (e : Element) : Rule → Prop
  | .named => e.name = tag.name
  | .given attr => ∃ value, e.attr? attr = some value
  | .typed => ∀ value, e.attr? "type" = some value → value ∈ tag.types
  | .ranked => ∀ text, e.childText? "priority" = some text → ∃ v, Priority.Written text v
  | .addressed attr => ∀ text, e.attr? attr = some text → ∃ jid, Jid.parse text = .ok jid

/-- The element violates the rule, with the error that reports it. -/
inductive Breaks (tag : Tag) (e : Element) : Rule → DecodeError → Prop
  | named (other : e.name ≠ tag.name) : Breaks tag e .named (.unexpectedElement tag e.name)
  | given {attr : String} (absent : e.attr? attr = none) :
      Breaks tag e (.given attr) (.missingAttribute tag attr)
  | typed {value : String} (there : e.attr? "type" = some value) (unknown : value ∉ tag.types) :
      Breaks tag e .typed (.invalidAttribute tag "type" value)
  | ranked {text : String} (there : e.childText? "priority" = some text)
      (unwritten : ∀ v, ¬Priority.Written text v) :
      Breaks tag e .ranked (.invalidAttribute tag "priority" text)
  | addressed {attr text : String} {refusal : Jid.Error} (there : e.attr? attr = some text)
      (refused : Jid.parse text = .error refusal) :
      Breaks tag e (.addressed attr) (.invalidJid refusal)

/-- The first broken rule and its error. -/
inductive FirstBroken (tag : Tag) (e : Element) (error : DecodeError) : List Rule → Prop
  | here {rule : Rule} {rest : List Rule} (broken : rule.Breaks tag e error) :
      FirstBroken tag e error (rule :: rest)
  | later {rule : Rule} {rest : List Rule} (kept : rule.Kept tag e)
      (first : FirstBroken tag e error rest) : FirstBroken tag e error (rule :: rest)

/-- A rule is satisfied exactly if it is not broken. -/
theorem kept_iff : rule.Kept tag e ↔ ∀ error, ¬rule.Breaks tag e error := by
  constructor
  · intro kept error broken
    cases broken with
    | named other => exact other kept
    | given absent =>
      obtain ⟨value, there⟩ := kept
      exact Option.some_ne_none value (there.symm.trans absent)
    | typed there unknown => exact unknown (kept _ there)
    | ranked there unwritten =>
      obtain ⟨v, written⟩ := kept _ there
      exact unwritten v written
    | addressed there refused =>
      obtain ⟨jid, read⟩ := kept _ there
      cases read.symm.trans refused
  · intro unbroken
    cases rule with
    | named => exact Classical.not_not.mp fun other => unbroken _ (.named other)
    | given attr =>
      cases there : e.attr? attr with
      | none => exact absurd (.given there) (unbroken _)
      | some value => exact ⟨value, there⟩
    | typed =>
      intro value there
      exact Classical.not_not.mp fun unknown => unbroken _ (.typed there unknown)
    | ranked =>
      intro text there
      exact Classical.not_forall_not.mp fun unwritten => unbroken _ (.ranked there unwritten)
    | addressed attr =>
      intro text there
      cases read : Jid.parse text with
      | ok jid => exact ⟨jid, rfl⟩
      | error refusal => exact absurd (.addressed there read) (unbroken _)

/-- A rule has one error per element. -/
theorem Breaks.unique {other : DecodeError} (broken : rule.Breaks tag e error)
    (again : rule.Breaks tag e other) : error = other := by
  cases broken with
  | named => cases again; rfl
  | given => cases again; rfl
  | typed there =>
    cases again with
    | typed there' => rw [Option.some.inj (there.symm.trans there')]
  | ranked there =>
    cases again with
    | ranked there' => rw [Option.some.inj (there.symm.trans there')]
  | addressed there refused =>
    cases again with
    | addressed there' refused' =>
      obtain rfl := Option.some.inj (there.symm.trans there')
      rw [Except.error.inj (refused.symm.trans refused')]

theorem FirstBroken.exists_breaks (first : FirstBroken tag e error rules) :
    ∃ rule ∈ rules, rule.Breaks tag e error := by
  induction first with
  | here broken => exact ⟨_, List.mem_cons_self, broken⟩
  | later _ _ ih =>
    obtain ⟨rule, member, broken⟩ := ih
    exact ⟨rule, List.mem_cons_of_mem _ member, broken⟩

/-- All rules are satisfied exactly if there is no first broken one. -/
theorem all_kept_iff :
    (∀ rule ∈ rules, rule.Kept tag e) ↔ ∀ error, ¬FirstBroken tag e error rules := by
  induction rules with
  | nil =>
    constructor
    · intro _ error first
      cases first
    · intro _ rule member
      cases member
  | cons rule rest ih =>
    rw [List.forall_mem_cons, ih]
    constructor
    · rintro ⟨kept, unbroken⟩ error first
      cases first with
      | here broken => exact kept_iff.mp kept error broken
      | later _ first => exact unbroken error first
    · intro unbroken
      have kept : rule.Kept tag e := kept_iff.mpr fun error broken => unbroken error (.here broken)
      exact ⟨kept, fun error first => unbroken error (.later kept first)⟩

variable {α β : Type} {first : Except DecodeError α} {next : α → Except DecodeError β}

/-- The reader fails exactly if the rule is broken, with its error. -/
def Checks (tag : Tag) (e : Element) (rule : Rule) (read : Except DecodeError α) : Prop :=
  ∀ error, read = .error error ↔ rule.Breaks tag e error

/-- The reader fails exactly with the first broken rule. -/
def ChecksAll (tag : Tag) (e : Element) (rules : List Rule) (read : Except DecodeError α) : Prop :=
  ∀ error, read = .error error ↔ FirstBroken tag e error rules

namespace Checks

theorem of_kept (kept : rule.Kept tag e) (value : α) : Checks tag e rule (.ok value) := by
  intro error
  constructor
  · nofun
  · intro broken
    exact absurd broken (kept_iff.mp kept error)

theorem of_breaks (broken : rule.Breaks tag e error) :
    Checks tag e rule (.error error : Except DecodeError α) := by
  intro other
  constructor
  · rintro ⟨⟩
    exact broken
  · intro again
    rw [broken.unique again]

theorem map {read : Except DecodeError α} (make : α → β) (checks : Checks tag e rule read) :
    Checks tag e rule (read.map make) := by
  intro error
  rw [map_eq_error_iff]
  exact checks error

theorem kept (checks : Checks tag e rule first) {value : α} (read : first = .ok value) :
    rule.Kept tag e := by
  refine kept_iff.mpr fun error broken => ?_
  rw [← checks error, read] at broken
  cases broken

end Checks

namespace ChecksAll

theorem ok (value : α) : ChecksAll tag e [] (.ok value) := by
  intro error
  constructor
  · nofun
  · intro first
    cases first

/-- A satisfied rule is passed over. -/
theorem cons_of_kept {read : Except DecodeError α} (kept : rule.Kept tag e)
    (checks : ChecksAll tag e rest read) : ChecksAll tag e (rule :: rest) read := by
  intro error
  rw [checks error]
  constructor
  · exact .later kept
  · rintro (broken | ⟨-, later⟩)
    · exact absurd broken (kept_iff.mp kept error)
    · exact later

/-- A broken rule in front is the first one. -/
theorem cons_of_breaks (broken : rule.Breaks tag e error) :
    ChecksAll tag e (rule :: rest) (.error error : Except DecodeError α) := by
  intro other
  constructor
  · rintro ⟨⟩
    exact .here broken
  · rintro (again | ⟨kept, -⟩)
    · rw [broken.unique again]
    · exact absurd broken (kept_iff.mp kept error)

theorem bind (checks : Checks tag e rule first)
    (others : ∀ value, first = .ok value → ChecksAll tag e rest (next value)) :
    ChecksAll tag e (rule :: rest) (first >>= next) := by
  cases read : first with
  | error found => exact cons_of_breaks ((checks found).mp read)
  | ok value => exact cons_of_kept (checks.kept read) (others value read)

theorem map {read : Except DecodeError α} (make : α → β) (checks : ChecksAll tag e rules read) :
    ChecksAll tag e rules (read.map make) := by
  intro error
  rw [map_eq_error_iff]
  exact checks error

/-- A reader that checks rules succeeds exactly if all are satisfied. -/
theorem exists_ok_iff {read : Except DecodeError α} (checks : ChecksAll tag e rules read) :
    (∃ value, read = .ok value) ↔ ∀ rule ∈ rules, rule.Kept tag e := by
  rw [all_kept_iff]
  constructor
  · rintro ⟨value, done⟩ error first
    cases done.symm.trans ((checks error).mpr first)
  · intro unbroken
    cases result : read with
    | ok value => exact ⟨value, rfl⟩
    | error error => exact absurd ((checks error).mp result) (unbroken error)

end ChecksAll

end Rule

namespace Element

open Rule (Checks ChecksAll FirstBroken Breaks)

variable {e : Element} {tag : Tag}

theorem requiredAttr_checks (tag : Tag) (attr : String) :
    Checks tag e (.given attr) (e.requiredAttr tag attr) := by
  unfold requiredAttr
  split
  next value there =>
    refine .of_kept ?_ value
    exact ⟨value, there⟩
  next absent => exact .of_breaks (.given absent)

/-- Reading an address checks the rule of its attribute. -/
theorem address?_checks (tag : Tag) (attr : String) :
    Checks tag e (.addressed attr) (e.address? attr) := by
  unfold address?
  split
  next absent =>
    refine .of_kept ?_ none
    intro text there
    cases absent.symm.trans there
  next text there =>
    split
    next jid read =>
      refine .of_kept ?_ (some jid)
      intro text' there'
      obtain rfl := Option.some.inj (there.symm.trans there')
      exact ⟨jid, read⟩
    next refusal refused => exact .of_breaks (.addressed there refused)

/-- A type parser accepts exactly the tag's types. -/
def ReadsTypes {α : Type} (tag : Tag) (ofValue? : String → Option α) : Prop :=
  ∀ value, ofValue? value = none ↔ value ∉ tag.types

theorem iq_readsTypes : ReadsTypes .iq IqType.ofValue? := by
  intro value
  unfold IqType.ofValue?
  split <;> simp_all [Tag.types]

theorem message_readsTypes : ReadsTypes .message MessageType.ofValue? := by
  intro value
  unfold MessageType.ofValue?
  split <;> simp_all [Tag.types]

theorem presence_readsTypes : ReadsTypes .presence PresenceType.ofValue? := by
  intro value
  unfold PresenceType.ofValue?
  split <;> simp_all [Tag.types]

section Types

variable {α : Type} {ofValue? : String → Option α}

/-- A type parser checks the rule of the type attribute. -/
theorem readType_checks (reads : ReadsTypes tag ofValue?) {value : String}
    (there : e.attr? "type" = some value) : Checks tag e .typed (readType tag ofValue? value) := by
  unfold readType
  split
  next type known =>
    refine .of_kept ?_ type
    intro value' there'
    obtain rfl := Option.some.inj (there.symm.trans there')
    refine Classical.not_not.mp fun unknown => ?_
    cases known.symm.trans ((reads value).mpr unknown)
  next unknown => exact .of_breaks (.typed there ((reads value).mp unknown))

theorem type?_checks (reads : ReadsTypes tag ofValue?) :
    Checks tag e .typed (e.type? tag ofValue?) := by
  unfold type?
  split
  next absent =>
    refine .of_kept ?_ none
    intro value there
    cases absent.symm.trans there
  next value there => exact (readType_checks reads there).map some

end Types

/-- Reading the priority checks the rule of the priority child. -/
theorem priority?_checks : Checks .presence e .ranked e.priority? := by
  unfold priority?
  split
  next absent =>
    refine .of_kept ?_ none
    intro text there
    cases absent.symm.trans there
  next text there =>
    split
    next rank read =>
      refine .of_kept ?_ (some rank)
      intro text' there'
      obtain rfl := Option.some.inj (there.symm.trans there')
      exact ⟨rank.value, Priority.readPriority_eq_some_iff.mp read⟩
    next unread =>
      refine .of_breaks (.ranked there fun v written => ?_)
      obtain ⟨rank, read, -⟩ := Priority.exists_of_written written
      cases unread.symm.trans read

theorem attr?_of_requiredAttr {attr value : String} (read : e.requiredAttr tag attr = .ok value) :
    e.attr? attr = some value := by
  unfold requiredAttr at read
  split at read
  next found there =>
    cases read
    exact there
  · cases read

theorem decodeIq_checks : ChecksAll .iq e
    [.given "id", .given "type", .typed, .addressed "from", .addressed "to"] e.decodeIq :=
  .bind (requiredAttr_checks _ _) fun _ _ => .bind (requiredAttr_checks _ _) fun _ there =>
    .bind (readType_checks iq_readsTypes (attr?_of_requiredAttr there)) fun _ _ =>
      .bind (address?_checks _ _) fun _ _ => .bind (address?_checks _ _) fun _ _ => .ok _

theorem decodeMessage_checks : ChecksAll .message e
    [.typed, .addressed "from", .addressed "to"] e.decodeMessage :=
  .bind (type?_checks message_readsTypes) fun _ _ =>
    .bind (address?_checks _ _) fun _ _ => .bind (address?_checks _ _) fun _ _ => .ok _

theorem decodePresence_checks : ChecksAll .presence e
    [.typed, .ranked, .addressed "from", .addressed "to"] e.decodePresence :=
  .bind (type?_checks presence_readsTypes) fun _ _ => .bind priority?_checks fun _ _ =>
    .bind (address?_checks _ _) fun _ _ => .bind (address?_checks _ _) fun _ _ => .ok _

/-- The decoder checks the rules of its tag in order. -/
theorem decode_checks : ChecksAll tag e tag.rules (e.decode tag) := by
  unfold decode
  split
  next other =>
    have broken : Rule.named.Breaks tag e (.unexpectedElement tag e.name) := .named other
    cases tag <;> exact .cons_of_breaks broken
  next same =>
    have kept : Rule.named.Kept tag e := Classical.not_not.mp same
    cases tag with
    | error => exact .cons_of_kept kept (.ok _)
    | iq => exact .cons_of_kept kept (decodeIq_checks.map _)
    | message => exact .cons_of_kept kept (decodeMessage_checks.map _)
    | presence => exact .cons_of_kept kept (decodePresence_checks.map _)

/-- A decoded stanza is of the selected tag. -/
theorem shortName_of_decode {stanza : Stanza} (read : e.decode tag = .ok stanza) :
    stanza.shortName = tag.name := by
  unfold decode at read
  split at read
  · cases read
  · cases tag with
    | error =>
      cases read
      rfl
    | iq =>
      obtain ⟨query, -, rfl⟩ := map_eq_ok_iff.mp read
      rfl
    | message =>
      obtain ⟨message, -, rfl⟩ := map_eq_ok_iff.mp read
      rfl
    | presence =>
      obtain ⟨presence, -, rfl⟩ := map_eq_ok_iff.mp read
      rfl

theorem decode_misnamed (other : e.name ≠ tag.name) :
    e.decode tag = .error (.unexpectedElement tag e.name) := by
  unfold decode
  exact if_pos other

/-- An element decodes exactly if it satisfies all rules of the tag, and otherwise fails with the
error of the first broken one, which carries the offending value. A wrong name always comes first,
and a stream error of the right name always decodes. The result is a stanza of the tag. -/
theorem first_violation_reported (tag : Tag) (e : Element) :
    (e.decode tag = .error (.unexpectedElement tag e.name) ↔ e.name ≠ tag.name) ∧
    ((∃ stanza, e.decode tag = .ok stanza) ↔ ∀ rule ∈ tag.rules, rule.Kept tag e) ∧
    (∀ error, e.decode tag = .error error ↔ FirstBroken tag e error tag.rules) ∧
    (e.name = Tag.error.name → ∃ error, e.decode .error = .ok (.error error)) ∧
    ∀ stanza, e.decode tag = .ok stanza → stanza.shortName = tag.name := by
  refine ⟨?_, decode_checks.exists_ok_iff, decode_checks, fun same => ?_,
    fun stanza => shortName_of_decode⟩
  · constructor
    · intro refused
      obtain ⟨rule, -, broken⟩ := ((decode_checks _).mp refused).exists_breaks
      cases broken with
      | named other => exact other
    · exact decode_misnamed
  · unfold decode
    rw [if_neg (Classical.not_not.mpr same)]
    exact ⟨_, rfl⟩

/-- A presence with an out-of-range priority and two invalid addresses. -/
def farOff : Element :=
  .build "presence"
    [.attr "from" "@", .attr "to" "a@", .child (.build "priority" [.text " 128 "])]

theorem first_violation_reported_farOff :
    farOff.decode .presence = .error (.invalidAttribute .presence "priority" " 128 ") ∧
      FirstBroken .presence farOff (.invalidAttribute .presence "priority" " 128 ")
        Tag.presence.rules ∧
      ¬(∀ rule ∈ Tag.presence.rules, rule.Kept .presence farOff) ∧
      farOff.decode .message = .error (.unexpectedElement .message "presence") ∧
      (∃ error, (named "error").decode .error = .ok (.error error)) ∧
      ∀ stanza, (named "message").decode .message = .ok stanza → stanza.shortName = "message" := by
  have refused : farOff.decode .presence =
      .error (.invalidAttribute .presence "priority" " 128 ") := by decide +kernel
  obtain ⟨-, accepted, first, -⟩ := first_violation_reported .presence farOff
  refine ⟨refused, (first _).mp refused, fun kept => ?_, ?_, ?_, ?_⟩
  · obtain ⟨stanza, read⟩ := accepted.mpr kept
    cases read.symm.trans refused
  · exact (first_violation_reported .message farOff).1.mpr (by decide)
  · exact (first_violation_reported .error (named "error")).2.2.2.1 rfl
  · exact (first_violation_reported .message (named "message")).2.2.2.2

end Element

end StanzaExchange
