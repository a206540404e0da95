import Abbrev.Abbreviation

/-!
# Nodes

The nodes that an abbreviation expands into: elements with attributes, and literal texts. A forest
is a list of nodes in document order.
-/

namespace Abbrev

/-- What a node is. -/
inductive NodeKind where
  /-- An element; `snippet` is the source of the snippet that the catalog has for its key. -/
  | element (key : Text) (attributes : List Attribute) (snippet : Option Text)
  /-- Literal text. -/
  | literal
  deriving DecidableEq, Repr

/-- A node and all that is inside it. Counters in its texts have been replaced. -/
structure Node where
  kind : NodeKind
  /-- The number of the copy, counted from zero. -/
  index : Int
  /-- The text that the abbreviation puts into the node. -/
  text : Option Text
  /-- The part of the wrapped text that goes into the node. -/
  wrapped : Option Text
  children : List Node

namespace NodeKind

/-- The key of an element. -/
def key? : NodeKind → Option Text
  | element key _ _ => some key
  | literal => none

/-- Whether a node of this kind is literal text. -/
def isLiteral : NodeKind → Bool
  | element _ _ _ => false
  | literal => true

/-- The attributes of an element; literal text has none. -/
def attributes : NodeKind → List Attribute
  | element _ attributes _ => attributes
  | literal => []

/-- The snippet of an element. -/
def snippet? : NodeKind → Option Text
  | element _ _ snippet => snippet
  | literal => none

end NodeKind

namespace Attribute

/-- The name of the attribute whose values collect. -/
def className : Text := "class".toList

/-- Two class values as one; an empty one adds nothing. -/
def joinClasses (first second : Text) : Text :=
  if first = [] then second
  else if second = [] then first
  else first ++ ' ' :: second

/-- The attributes with one more at the end. A class after another class joins the earlier one. -/
def add (attributes : List Attribute) (a : Attribute) : List Attribute :=
  if a.name = className && attributes.any (fun b => b.name == className) then
    attributes.map fun b =>
      if b.name = className then { b with value := joinClasses b.value a.value } else b
  else attributes ++ [a]

/-- The attributes in order, with all classes in the place of the first one. -/
def merge (attributes : List Attribute) : List Attribute :=
  attributes.foldl add []

/-- The value of the first attribute with a name. -/
def value? (attributes : List Attribute) (name : Text) : Option Text :=
  (attributes.find? fun a => a.name = name).map Attribute.value

end Attribute

end Abbrev
