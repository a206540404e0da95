import Abbrev.Abbreviation
import Abbrev.Text.Numeral
import Abbrev.Text.Quoted

/-!
# Labelled trees

The exchange form of abbreviations: trees with a label at each node and a kind and a value at each
leaf. A tree from elsewhere may have any shape, so what looks for a part can fail, with the error
that names what is wrong. `Abbrev.LabelledTree.Reading` says which trees are abbreviations.
-/

namespace Abbrev

/-- A tree with labelled nodes. -/
inductive LabelledTree where
  | leaf (kind value : Text)
  | node (label : Text) (children : List LabelledTree)

namespace LabelledTree

mutual

/-- A tree written out in one line. -/
def written : LabelledTree → Text
  | leaf kind value =>
    "Token(".toList ++ Text.quoted kind ++ ", ".toList ++ Text.quoted value ++ ")".toList
  | node label children =>
    "Tree(".toList ++ Text.quoted label ++ ", [".toList ++
      Text.join ", ".toList (writtenEach children) ++ "])".toList

/-- The trees of a list, each written out. -/
def writtenEach : List LabelledTree → List Text
  | [] => []
  | t :: rest => t.written :: writtenEach rest

end

/-- A tree where a text is wanted: the value of a leaf, or a node written out. -/
def asText : LabelledTree → Text
  | leaf _ value => value
  | t => t.written

/-- The label of a node. -/
def label? : LabelledTree → Option Text
  | leaf _ _ => none
  | node label _ => some label

/-- The parts of a node; a leaf has none. -/
def children : LabelledTree → List LabelledTree
  | leaf _ _ => []
  | node _ children => children

/-- The first part with a label. -/
def child? (t : LabelledTree) (label : Text) : Option LabelledTree :=
  t.children.find? fun child => child.label? = some label

end LabelledTree

/-- Why a tree is no abbreviation. -/
inductive TreeError where
  /-- The label of a node is unknown; a leaf has none. -/
  | unknownNode (label : Option Text)
  /-- A group has an unknown operator. -/
  | unknownOperator (sign : Text)
  /-- The leaf that counts the copies holds no numeral. -/
  | badCount (kind value : Text)
  /-- A node stands where a leaf counts the copies. -/
  | countIsNode
  /-- A node has too few parts. -/
  | missingPart
  /-- A leaf stands where a node has its parts. -/
  | leafWithoutParts
  /-- The number of copies is too large. -/
  | size (e : SizeError)
  deriving DecidableEq, Repr

/-- The wording of an error. -/
def TreeError.message : TreeError → String
  | .unknownNode (some label) => s!"Unknown abbreviation node: {label.str}"
  | .unknownNode none => "Unknown abbreviation node: None"
  | .unknownOperator sign => s!"Unknown group operator: {sign.str}"
  | .badCount kind value => Text.noIntegerMessage (LabelledTree.leaf kind value).written
  | .countIsNode =>
    "int() argument must be a string, a bytes-like object or a real number, not 'Tree'"
  | .missingPart => "list index out of range"
  | .leafWithoutParts => "'Token' object has no attribute 'children'"
  | .size e => e.message

namespace LabelledTree

/-- The parts of what has to be a node. -/
def parts : LabelledTree → Except TreeError (List LabelledTree)
  | leaf _ _ => .error .leafWithoutParts
  | node _ children => .ok children

/-- The text of the part of a node at a position. -/
def textAt (position : Nat) (t : LabelledTree) : Except TreeError Text := do
  match (← t.parts)[position]? with
  | some part => .ok part.asText
  | none => .error .missingPart

/-- The number that stands for one copy per line. -/
def perLine : Int := -1

/-- How often a node is repeated, if it is. -/
def count (t : LabelledTree) : Except TreeError (Option Int) :=
  match t.child? "count".toList with
  | none => .ok none
  | some counter =>
    match counter.children with
    | [] => .ok (some perLine)
    | leaf kind value :: _ =>
      match Text.overlong? value, Text.readInt? value with
      | some e, _ => .error (.size e)
      | none, some n => .ok (some n)
      | none, none => .error (.badCount kind value)
    | node _ _ :: _ => .error .countIsNode

/-- The node repeated `count` times, whatever it was repeated before. A leaf stays as it is. -/
def withCount (count : Int) : LabelledTree → LabelledTree
  | leaf kind value => leaf kind value
  | node label children =>
    let numeral := if count = perLine then [] else [leaf "NUMBER".toList (Text.ofInt count)]
    node label
      (children.filter (fun child => child.label? ≠ some "count".toList) ++
        [node "count".toList numeral])

/-- What has to be a node, repeated `count` times. -/
def repeatNode (count : Int) (t : LabelledTree) : Except TreeError LabelledTree := do
  let _ ← t.parts
  return t.withCount count

/-- The suffixes around a tree, the outermost first, and what they are around. -/
def filterChain : LabelledTree → Except TreeError (List Text × LabelledTree)
  | leaf kind value => .ok ([], leaf kind value)
  | node label [] =>
    if label = "filter".toList then .error .missingPart else .ok ([], node label [])
  | node label (inner :: rest) => do
    if label = "filter".toList then
      let suffix ← textAt 1 (node label (inner :: rest))
      let (suffixes, core) ← filterChain inner
      return (suffix :: suffixes, core)
    else return ([], node label (inner :: rest))

/-- The attributes of an element. -/
def attributes (t : LabelledTree) : Except TreeError (List Attribute) :=
  match t.child? "attrs".toList with
  | none => .ok []
  | some list => list.children.mapM fun a => do return ⟨← textAt 0 a, ← textAt 1 a⟩

/-- The text of an element. -/
def text? (t : LabelledTree) : Except TreeError (Option Text) :=
  (t.child? "text".toList).mapM (textAt 0)

/-- The parts that an operator joins. -/
def operands (t : LabelledTree) : Except TreeError (List LabelledTree) := do
  return ((← t.parts).drop 1).filter fun child => child.label? ≠ some "count".toList

end LabelledTree

end Abbrev
