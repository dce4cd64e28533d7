import StanzaExchange.Text

/-!
Addresses `node@domain/resource` (section 10.1 of the specification, module jid): parsing, display,
`bare` and `with_resource`. Parsing splits at the first slash, then splits the part before it at its
first at sign. No length limit, case mapping or Unicode profile is applied, as in the specification.
-/
namespace StanzaExchange

structure Jid where
  node : Option String
  domain : String
  resource : Option String
  deriving DecidableEq, Repr

/-- The cause of a parse error. -/
inductive Jid.Fault where
  | emptyDomain | emptyNode | extraSeparator | emptyResource
  deriving DecidableEq, Repr

/-- A parse error: the cause and the whole input. -/
structure Jid.Error where
  fault : Jid.Fault
  text : String
  deriving DecidableEq, Repr

namespace Jid

/-- The display text of a parse error. -/
def Error.message (e : Error) : String :=
  match e.fault with
  | .emptyDomain => "address has an empty domain: " ++ Text.quote e.text
  | .emptyNode => "address has an empty node: " ++ Text.quote e.text
  | .extraSeparator => "address has more than one '@' before the resource: " ++ Text.quote e.text
  | .emptyResource => "address has an empty resource: " ++ Text.quote e.text

/-- Splits at the first occurrence of a separator. -/
def cut? (separator : Char) (cs : List Char) : Option (List Char × List Char) :=
  match cs.dropWhile (· ≠ separator) with
  | [] => none
  | _ :: rest => some (cs.takeWhile (· ≠ separator), rest)

/-- Splits off the resource, which must not be empty if there is a slash. -/
def splitResource (cs : List Char) : Except Fault (List Char × Option String) :=
  match cut? '/' cs with
  | none => .ok (cs, none)
  | some (_, []) => .error .emptyResource
  | some (before, resource) => .ok (before, some (String.ofList resource))

/-- Splits off the node, which must not be empty if there is an at sign. -/
def splitNode (cs : List Char) : Except Fault (Option String × List Char) :=
  match cut? '@' cs with
  | none => .ok (none, cs)
  | some ([], _) => .error .emptyNode
  | some (node, domain) => .ok (some (String.ofList node), domain)

/-- A domain must not be empty and must not contain an at sign. -/
def checkDomain (cs : List Char) : Except Fault String :=
  if cs = [] then .error .emptyDomain
  else if '@' ∈ cs then .error .extraSeparator
  else .ok (String.ofList cs)

/-- Checks the resource first, then the node, then the domain. -/
def ofChars (cs : List Char) : Except Fault Jid := do
  let (proper, resource) ← splitResource cs
  let (node, domain) ← splitNode proper
  let domain ← checkDomain domain
  return { node, domain, resource }

def parse (s : String) : Except Error Jid :=
  match ofChars s.toList with
  | .ok jid => .ok jid
  | .error fault => .error ⟨fault, s⟩

/-- The display form. -/
def render (jid : Jid) : String :=
  (match jid.node with
    | some node => node ++ "@"
    | none => "") ++
  jid.domain ++
  (match jid.resource with
    | some resource => "/" ++ resource
    | none => "")

/-- The address without its resource. -/
def bare (jid : Jid) : Jid := { jid with resource := none }

def withResource (jid : Jid) (resource : String) : Jid := { jid with resource := some resource }

def isBare (jid : Jid) : Bool := jid.resource.isNone

end Jid

end StanzaExchange
