import StanzaExchange.Settings
import StanzaExchange.Text

/-!
Documents of settings, in the part of TOML that can spell one (section 10.3 of the specification,
module config): lines `key = value`, comments, quoted keys with numbered escapes, integers in four
bases with underscores, and the two booleans. The reader of the program is a library; what it
accepts beyond this subset (tables, dotted keys, other values) never spells a setting and is
unreadable here. An unknown key, a duplicate key, a value of another type and a malformed line make
the whole document unreadable.

A capacity is read up to 2^64-1, as in the program. Starting a conversation with one above 2^61-1
panics there (see the header of the registry); `parse` does not rule such a capacity out.
-/
namespace StanzaExchange.Settings

/-- Tab and space. -/
def isGap (c : Char) : Bool :=
  c == ' ' || c == '\t'

/-- Characters that a comment must not contain. -/
def isControl (c : Char) : Bool :=
  (c.toNat < 0x20 && c != '\t') || c.toNat == 0x7F

/-- Splits at line feeds, each with an optional carriage return before it. -/
def splitLines : List Char → List (List Char)
  | [] => [[]]
  | '\r' :: '\n' :: rest => [] :: splitLines rest
  | '\n' :: rest => [] :: splitLines rest
  | c :: rest =>
    match splitLines rest with
    | [] => [[c]]
    | line :: lines => (c :: line) :: lines

/-- Whether only white space and a comment are left. -/
def isLineEnd (cs : List Char) : Bool :=
  match cs.dropWhile isGap with
  | [] => true
  | '#' :: comment => !comment.any isControl
  | _ => false

/-- Characters of a bare key. -/
def isKeyChar (c : Char) : Bool :=
  ('a' ≤ c && c ≤ 'z') || ('A' ≤ c && c ≤ 'Z') || ('0' ≤ c && c ≤ '9') || c == '_' || c == '-'

def numberedChar? (digits : List Char) : Option Char :=
  (Text.readNatural 16 digits).map Char.ofNat

/-- The rest of a key in double quotes. Only the numbered escapes can denote a character of a
setting's key. -/
def readQuotedKey : List Char → Option (List Char × List Char)
  | [] => none
  | '"' :: rest => some ([], rest)
  | '\\' :: 'x' :: a :: b :: rest => do
    let c ← numberedChar? [a, b]
    let (key, rest) ← readQuotedKey rest
    return (c :: key, rest)
  | '\\' :: 'u' :: a :: b :: c :: d :: rest => do
    let c ← numberedChar? [a, b, c, d]
    let (key, rest) ← readQuotedKey rest
    return (c :: key, rest)
  | '\\' :: 'U' :: a :: b :: c :: d :: e :: f :: g :: h :: rest => do
    let c ← numberedChar? [a, b, c, d, e, f, g, h]
    let (key, rest) ← readQuotedKey rest
    return (c :: key, rest)
  | '\\' :: _ => none
  | c :: rest => do
    let (key, rest) ← readQuotedKey rest
    return (c :: key, rest)

/-- A key and the rest of the line. -/
def readKey (cs : List Char) : Option (String × List Char) :=
  match cs with
  | '"' :: rest => (readQuotedKey rest).map fun (key, rest) => (String.ofList key, rest)
  | '\'' :: rest =>
    match rest.dropWhile (· ≠ '\'') with
    | [] => none
    | _ :: after => some (String.ofList (rest.takeWhile (· ≠ '\'')), after)
  | cs => some (String.ofList (cs.takeWhile isKeyChar), cs.dropWhile isKeyChar)

/-- Digits of a base, with single underscores between digits. -/
def readDigits (base : Nat) : List Char → Option (List Char)
  | [] => none
  | [c] => if Text.isDigit base c then some [c] else none
  | c :: '_' :: rest =>
    if Text.isDigit base c then (readDigits base rest).map (c :: ·) else none
  | c :: rest => if Text.isDigit base c then (readDigits base rest).map (c :: ·) else none

def readBased (base : Nat) (cs : List Char) : Option Nat :=
  (readDigits base cs).map (Text.valueOf base)

/-- A decimal integer has no leading zero unless it is zero. -/
def readPlain (cs : List Char) : Option Nat :=
  match readDigits 10 cs with
  | some ['0'] => some 0
  | some ('0' :: _) => none
  | some digits => some (Text.valueOf 10 digits)
  | none => none

/-- An integer: decimal with an optional sign, or in base 16, 8 or 2 with a prefix. -/
def readWhole (cs : List Char) : Option Int :=
  match cs with
  | '0' :: 'x' :: digits => (readBased 16 digits).map Int.ofNat
  | '0' :: 'o' :: digits => (readBased 8 digits).map Int.ofNat
  | '0' :: 'b' :: digits => (readBased 2 digits).map Int.ofNat
  | '+' :: digits => (readPlain digits).map Int.ofNat
  | '-' :: digits => (readPlain digits).map fun n => -Int.ofNat n
  | digits => (readPlain digits).map Int.ofNat

/-- The largest value of an unsigned integer of 64 bits. -/
def largestCapacity : Nat := UInt64.size - 1

def readCapacity (cs : List Char) : Option Nat :=
  match readWhole cs with
  | some (.ofNat n) => if n ≤ largestCapacity then some n else none
  | _ => none

def readSwitch (cs : List Char) : Option Bool :=
  if cs = "true".toList then some true
  else if cs = "false".toList then some false
  else none

/-- The entry of a known key whose value has the right type. -/
def readEntry (key : String) (value : List Char) : Option Entry :=
  if key = "trace_stanzas" then (readSwitch value).map .traceStanzas
  else
    match Capacity.all.find? fun c => c.key = key with
    | some c => (readCapacity value).map (.capacity c)
    | none => none

/-- An entry, or `some none` for a line with white space and a comment only. -/
def readLine (line : List Char) : Option (Option Entry) :=
  if isLineEnd line then some none
  else do
    let (key, rest) ← readKey (line.dropWhile isGap)
    match rest.dropWhile isGap with
    | '=' :: rest =>
      let value := rest.dropWhile isGap
      let ends := fun c => isGap c || c == '#'
      let entry ← readEntry key (value.takeWhile fun c => !ends c)
      if isLineEnd (value.dropWhile fun c => !ends c) then return some entry else none
    | _ => none

/-- The entries in the order of their lines, if no key is duplicated. -/
def readEntries (text : String) : Option (List Entry) := do
  let cs :=
    match text.toList with
    | '\uFEFF' :: cs => cs
    | cs => cs
  let entries := (← (splitLines cs).mapM readLine).filterMap id
  if (entries.map Entry.key).Nodup then return entries else none

/-- Reads a document and validates the settings. -/
def parse (text : String) : Except Error Settings :=
  match readEntries text with
  | none => .error .unreadable
  | some entries =>
    let settings := ofEntries entries
    match settings.validate with
    | .ok () => .ok settings
    | .error error => .error error

end StanzaExchange.Settings
