import StanzaExchange.Attributes

/-!
Element trees and their start tags (section 10.1 of the specification, module element), with the
builder methods. Look-ups by child name return the first match in document order. XML serialisation,
namespaces and the interleaving of text and children are not modelled: the element type of the
specification has none of them.
-/
namespace StanzaExchange

/-- An owned element tree. -/
structure Element where
  name : String
  attrs : Attributes
  children : List Element
  text : String

/-- The start-tag view of an element: its name and attributes. -/
structure StartTag where
  name : String
  attrs : Attributes
  deriving DecidableEq, Repr

namespace Element

mutual

/-- Structural equality is decidable. -/
def decideEq : (a b : Element) → Decidable (a = b)
  | ⟨name, attrs, children, text⟩, ⟨name', attrs', children', text'⟩ =>
    if hn : name = name' then
      if ha : attrs = attrs' then
        if ht : text = text' then
          match decideListEq children children' with
          | isTrue hc => isTrue (by rw [hn, ha, ht, hc])
          | isFalse hc => isFalse fun h => hc (Element.mk.inj h).2.2.1
        else isFalse fun h => ht (Element.mk.inj h).2.2.2
      else isFalse fun h => ha (Element.mk.inj h).2.1
    else isFalse fun h => hn (Element.mk.inj h).1

def decideListEq : (as bs : List Element) → Decidable (as = bs)
  | [], [] => isTrue rfl
  | [], _ :: _ => isFalse nofun
  | _ :: _, [] => isFalse nofun
  | a :: as, b :: bs =>
    match decideEq a b with
    | isTrue hHead =>
      match decideListEq as bs with
      | isTrue hTail => isTrue (by rw [hHead, hTail])
      | isFalse hTail => isFalse fun h => hTail (List.cons.inj h).2
    | isFalse hHead => isFalse fun h => hHead (List.cons.inj h).1

end

instance : DecidableEq Element := decideEq

/-- An element without attributes, children and text. -/
def named (name : String) : Element := ⟨name, .empty, [], ""⟩

instance : Inhabited Element := ⟨named ""⟩

/-- Sets an attribute; a later value replaces an earlier one. -/
def withAttr (e : Element) (name value : String) : Element :=
  { e with attrs := e.attrs.insert name value }

/-- Appends a child. -/
def withChild (e child : Element) : Element :=
  { e with children := e.children ++ [child] }

/-- Sets the text, replacing any earlier one. -/
def withText (e : Element) (text : String) : Element :=
  { e with text := text }

def attr? (e : Element) (name : String) : Option String :=
  e.attrs.get? name

/-- The first child with the given name. -/
def child? (e : Element) (name : String) : Option Element :=
  e.children.find? fun child => child.name = name

/-- The text of the first child with the given name. -/
def childText? (e : Element) (name : String) : Option String :=
  (e.child? name).map (·.text)

def startTag (e : Element) : StartTag := ⟨e.name, e.attrs⟩

/-- One builder call. -/
inductive Edit where
  | attr (name value : String)
  | child (element : Element)
  | text (text : String)

def edit (e : Element) : Edit → Element
  | .attr name value => e.withAttr name value
  | .child element => e.withChild element
  | .text text => e.withText text

/-- An element built by builder calls from its name. -/
def build (name : String) (edits : List Edit) : Element :=
  edits.foldl edit (named name)

end Element

namespace StartTag

def attr? (t : StartTag) (name : String) : Option String :=
  t.attrs.get? name

end StartTag

end StanzaExchange
