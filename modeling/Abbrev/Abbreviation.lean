import Abbrev.Text.Basic

/-!
# Abbreviations

What an abbreviation says, apart from how it is spelled: elements with attributes and text, joined
into a shape by operators, repeated, and named filters around the whole.
-/

namespace Abbrev

/-- A named value of an element. -/
structure Attribute where
  name : Text
  value : Text
  deriving DecidableEq, Repr

/-- How often a part of an abbreviation is repeated. -/
inductive Repetition where
  /-- A fixed number of copies. -/
  | times (count : Nat)
  /-- One copy for each line of the wrapped text, and a single one if it has none. -/
  | perLine
  deriving DecidableEq, Repr

/-- The contents of an abbreviation. -/
inductive Abbreviation where
  /-- An element, or a snippet of the catalog if one has that key. -/
  | element (key : Text) (attributes : List Attribute) (text : Option Text)
  /-- Literal text that is no element. -/
  | text (value : Text)
  /-- Nothing, as it stands left of a leading `^`. -/
  | empty
  /-- A part in parentheses, which no climb leaves. -/
  | group (inner : Abbreviation)
  /-- `left>right`: the right side inside every childless node of the left one. -/
  | child (left right : Abbreviation)
  /-- `left+right`: the right side after the left one. -/
  | sibling (left right : Abbreviation)
  /-- `left^right`: the right side one level above the left one. -/
  | climb (left right : Abbreviation)
  /-- `inner*n` or `inner*`. -/
  | repeated (inner : Abbreviation) (count : Repetition)
  /-- `inner|suffix`. -/
  | filtered (inner : Abbreviation) (suffix : Text)
  deriving DecidableEq, Repr

namespace Abbreviation

/-- The suffixes of an abbreviation, the last one written first. -/
def suffixes : Abbreviation → List Text
  | .filtered inner suffix => suffix :: inner.suffixes
  | _ => []

/-- The abbreviation without its suffixes. -/
def unfiltered : Abbreviation → Abbreviation
  | .filtered inner _ => inner.unfiltered
  | a => a

end Abbreviation

end Abbrev
