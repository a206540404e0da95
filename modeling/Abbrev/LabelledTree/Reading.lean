import Abbrev.Expansion
import Abbrev.LabelledTree

/-!
# Abbreviations as labelled trees

An abbreviation is written as a labelled tree by `Abbreviation.toTree`, and a tree is read as an
abbreviation by `LabelledTree.toAbbreviation`. Reading looks only at the parts that an expansion
would reach, and in the same order: a copy that is never made and the inside of a node that never
stands cannot be wrong.
-/

namespace Abbrev

/-- The number that stands for a repetition in a tree. -/
def Repetition.toInt : Repetition → Int
  | .times count => count
  | .perLine => LabelledTree.perLine

namespace Abbreviation

/-- The tree of a literal text. -/
def textTree (value : Text) : LabelledTree :=
  .node "text".toList [.leaf "TEXT".toList value]

/-- The tree of an attribute. -/
def attributeTree (a : Attribute) : LabelledTree :=
  .node "attr".toList [.leaf "NAME".toList a.name, .leaf "VALUE".toList a.value]

/-- The tree of operands joined by an operator. -/
def groupTree (sign : Text) (operands : List LabelledTree) : LabelledTree :=
  .node "group".toList (.leaf "OP".toList sign :: operands)

/-- The tree of an abbreviation. -/
def toTree : Abbreviation → LabelledTree
  | .element key attributes inline =>
    .node "template".toList
      (.leaf "KEY".toList key :: .node "attrs".toList (attributes.map attributeTree) ::
        (inline.map textTree).toList)
  | .text value => textTree value
  | .empty => .node "empty".toList []
  | .group inner => groupTree "()".toList [inner.toTree]
  | .child left right => groupTree ">".toList [left.toTree, right.toTree]
  | .sibling left right => groupTree "+".toList [left.toTree, right.toTree]
  | .climb left right => groupTree "^".toList [left.toTree, right.toTree]
  | .repeated inner count => inner.toTree.withCount count.toInt
  | .filtered inner suffix => .node "filter".toList [inner.toTree, .leaf "SUFFIX".toList suffix]

end Abbreviation

namespace LabelledTree

/-- What a group says, given its operator and what its operands say. The operands are looked at from
the left, and the right side of `>` only if the left side has a node to put it into. -/
def joined (sign : Text) (operands : List (Except TreeError Abbreviation)) :
    Except TreeError Abbreviation := do
  match operands with
  | [] => .error .missingPart
  | left :: others =>
    if sign = "()".toList then return .group (← left)
    -- Both sides of `>` have to be there before either is looked at.
    if sign = ">".toList && others.isEmpty then .error .missingPart
    let first ← left
    match others with
    | [] => .error .missingPart
    | right :: _ =>
      if sign = ">".toList then
        if first.hasOwnNodes then return .child first (← right) else return .child first .empty
      let second ← right
      if sign = "+".toList then return .sibling first second
      if sign = "^".toList then return .climb first second
      .error (.unknownOperator sign)

/-- The suffix of a filter. It matters to no expansion, so a filter may go without one. -/
def suffixText (t : LabelledTree) : Text :=
  match textAt 1 t with
  | .ok suffix => suffix
  | .error _ => []

/-- An element, given by its node. -/
def element (t : LabelledTree) : Except TreeError Abbreviation := do
  return .element (← textAt 0 t) (← t.attributes) (← t.text?)

/-- Why there cannot be so many copies. With a number below zero there are none, but it has to be an
index as well. -/
def tooMany? (n : Int) : Option SizeError :=
  if n < -SizeError.indexLimit then some .index else Expansion.tooMany? n.toNat

/-- A part with its number of copies; without copies, or with too many of them, the part itself does
not count. -/
def repeatedPart (count : Option Int) (part : Except TreeError Abbreviation) :
    Except TreeError Abbreviation :=
  match count with
  | none => part
  | some n =>
    if n = perLine then part.map (.repeated · .perLine)
    else
      match tooMany? n with
      | some e => .error (.size e)
      | none =>
        if n ≤ 0 then .ok (.repeated .empty (.times 0))
        else part.map (.repeated · (.times n.toNat))

mutual

/-- The abbreviation that a tree stands for. -/
def toAbbreviation : LabelledTree → Except TreeError Abbreviation
  | leaf _ _ => .error (.unknownNode none)
  | node label children => do
    let t := node label children
    let parts := readings children
    let operands := (parts.drop 1).filter fun part => part.1 ≠ some "count".toList
    let single : Except TreeError Abbreviation :=
      if label = "template".toList then t.element
      else if label = "text".toList then (textAt 0 t).map .text
      else if label = "filter".toList then
        match parts with
        | [] => .error .missingPart
        | part :: _ => part.2.map (.filtered · t.suffixText)
      else if label = "empty".toList then .ok .empty
      else if label = "group".toList then do joined (← textAt 0 t) (operands.map Prod.snd)
      else .error (.unknownNode (some label))
    repeatedPart (← t.count) single

/-- The label of each part of a node with the abbreviation that the part stands for. -/
def readings : List LabelledTree → List (Option Text × Except TreeError Abbreviation)
  | [] => []
  | t :: rest => (t.label?, t.toAbbreviation) :: readings rest

end

end LabelledTree

end Abbrev
