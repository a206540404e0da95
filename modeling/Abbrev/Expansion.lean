import Abbrev.Catalog
import Abbrev.Node
import Abbrev.Size
import Abbrev.Text.Counter
import Abbrev.Text.Lines

/-!
# Expansion

An abbreviation expands into a forest. Part by part, an expansion holds the nodes at the part's own
level and the groups of nodes that `^` has lifted above it. Each `>` gives the groups their place: a
group lifted by one level stands right after the node it was lifted out of, and a group lifted
further is handed on to the next `>` outside. Parentheses and the end of the abbreviation keep what
is still lifted at their own level.

Wrapped text goes down the right side of each operator and into the last of the childless nodes that
`>` fills. A repetition spreads it over the copies.

The forest is one thing, and whether there can be so many copies is another:
`Abbreviation.oversized?` goes through the repetitions that are carried out, in the order in which
they are, and `Abbreviation.expand?` gives the forest only if it finds nothing.
-/

namespace Abbrev

/-- Nodes that have left the level where they were written. -/
structure Lifted where
  /-- How many levels above the next one the nodes belong. -/
  level : Nat
  nodes : List Node

/-- What a part of an abbreviation expands into. -/
structure Expansion where
  /-- The nodes at the part's own level. -/
  nodes : List Node
  /-- The nodes above that level. -/
  lifted : List Lifted

/-- What an expansion depends on besides the abbreviation. -/
structure ExpansionSetting where
  catalog : Catalog := .empty
  /-- Whether a fixed number of copies leaves the wrapped text to the last one. Otherwise each copy
  takes a line, and the last one all lines that are left. -/
  atEnd : Bool := true

namespace Expansion

/-- The expansion without nodes. -/
def nothing : Expansion :=
  ⟨[], []⟩

/-- All nodes of an expansion at one level. -/
def flatten (e : Expansion) : List Node :=
  e.nodes ++ e.lifted.flatMap Lifted.nodes

/-- Two expansions at the same level, one after the other. -/
def append (e f : Expansion) : Expansion :=
  ⟨e.nodes ++ f.nodes, e.lifted ++ f.lifted⟩

/-- The nodes of the groups that have reached the level of the node they were lifted out of. -/
def landed (groups : List Lifted) : List Node :=
  (groups.filter fun group => group.level = 0).flatMap Lifted.nodes

/-- The groups that go on, with one level less to go. -/
def risen (groups : List Lifted) : List Lifted :=
  (groups.filter fun group => group.level ≠ 0).map fun group =>
    { group with level := group.level - 1 }

end Expansion

mutual

/-- Fills each childless node inside a node with what `grow` makes for the number of its copy; the
last one is given `wrapped`. Groups lifted out of the node itself are returned beside it. -/
def Node.fill (grow : Int → Option Text → Expansion) (wrapped : Option Text) :
    Node → Node × List Lifted
  | ⟨kind, index, text, own, []⟩ =>
    let inside := grow index wrapped
    (⟨kind, index, text, own, inside.nodes⟩, inside.lifted)
  | ⟨kind, index, text, own, child :: more⟩ =>
    let inside := Expansion.fillAll grow wrapped (child :: more)
    (⟨kind, index, text, own, inside.nodes⟩, inside.lifted)

/-- Fills the nodes of a forest. Each node is followed by the groups that were lifted out of it by
one level. -/
def Expansion.fillAll (grow : Int → Option Text → Expansion) (wrapped : Option Text) :
    List Node → Expansion
  | [] => .nothing
  | node :: rest =>
    -- Only the last node of all is given the text.
    let (filled, groups) := node.fill grow (if rest.isEmpty then wrapped else none)
    let more := Expansion.fillAll grow wrapped rest
    ⟨filled :: Expansion.landed groups ++ more.nodes, Expansion.risen groups ++ more.lifted⟩

end

namespace Expansion

/-- The lines that wrapped text is spread by: trimmed, and without those that hold blanks only. -/
def wrappedLines : Option Text → List Text
  | none => []
  | some text => (Text.nonBlankLines text).map Text.trim

/-- The wrapped text of each of `count` copies, if there can be so many (`tooMany?`). -/
def shares (atEnd : Bool) (wrapped : Option Text) : Nat → List (Option Text)
  | 0 => []
  | others + 1 =>
    match wrapped with
    | none => List.replicate (others + 1) none
    | some text =>
      if atEnd then List.replicate others none ++ [some text]
      else
        -- A line for each copy that has one; the last copy takes all that are left.
        let lines := wrappedLines (some text)
        let remainder := lines.drop others
        (List.range others).map (fun i => lines[i]?) ++
          [if remainder.isEmpty then none else some (Text.join ['\n'] remainder)]

/-- Why there cannot be so many copies. The share of each is held in a word of eight bytes. -/
def tooMany? (count : Nat) : Option SizeError :=
  SizeError.ofCopies? 8 0 count

/-- The node that an element expands into. -/
def ofElement (setting : ExpansionSetting) (key : Text) (attributes : List Attribute)
    (text : Option Text) (index : Int) (wrapped : Option Text) : Node :=
  let number := Text.replaceCounter (index + 1)
  let key := number key
  let attributes := Attribute.merge (attributes.map fun a => ⟨number a.name, number a.value⟩)
  ⟨.element key attributes (setting.catalog.find? key), index, text.map number, wrapped, []⟩

end Expansion

namespace Abbreviation

/-- Expands an abbreviation as copy number `index`, around the text `wrapped`. -/
def expansion (setting : ExpansionSetting) : Abbreviation → Int → Option Text → Expansion
  | .element key attributes inline, index, wrapped =>
    ⟨[Expansion.ofElement setting key attributes inline index wrapped], []⟩
  | .text value, index, wrapped =>
    ⟨[⟨.literal, index, some (Text.replaceCounter (index + 1) value), wrapped, []⟩], []⟩
  | .empty, _, _ => .nothing
  | .group inner, index, wrapped => ⟨(inner.expansion setting index wrapped).flatten, []⟩
  | .filtered inner _, index, wrapped => inner.expansion setting index wrapped
  | .sibling left right, index, wrapped =>
    (left.expansion setting index none).append (right.expansion setting index wrapped)
  | .climb left right, index, wrapped =>
    let first := left.expansion setting index none
    let second := right.expansion setting index wrapped
    -- The right side belongs one level above, and what climbs out of it one level further.
    ⟨first.nodes,
      first.lifted ++ ⟨0, second.nodes⟩ ::
        second.lifted.map fun group => { group with level := group.level + 1 }⟩
  | .child left right, index, wrapped =>
    let outer := left.expansion setting index none
    let filled := Expansion.fillAll (right.expansion setting) wrapped outer.nodes
    ⟨filled.nodes, outer.lifted ++ filled.lifted⟩
  | .repeated inner .perLine, _, wrapped =>
    match Expansion.wrappedLines wrapped with
    | [] => inner.expansion setting 0 wrapped
    | lines =>
      (lines.zipIdx.map fun (line, i) =>
        inner.expansion setting i (some line)).foldr .append .nothing
  | .repeated inner (.times count), _, wrapped =>
    ((Expansion.shares setting.atEnd wrapped count).zipIdx.map fun (share, i) =>
      inner.expansion setting i share).foldr .append .nothing

/-- The forest that an abbreviation expands into. -/
def expand (a : Abbreviation) (setting : ExpansionSetting) (index : Int) (wrapped : Option Text) :
    List Node :=
  (a.expansion setting index wrapped).flatten

/-- Whether an expansion has any node, at its own level or above. -/
def hasNodes : Abbreviation → Bool
  | .element _ _ _ | .text _ => true
  | .empty => false
  | .group inner | .filtered inner _ => inner.hasNodes
  | .child left _ => left.hasNodes
  | .sibling left right | .climb left right => left.hasNodes || right.hasNodes
  | .repeated inner count => count != .times 0 && inner.hasNodes

/-- Whether an expansion has any node at its own level. -/
def hasOwnNodes : Abbreviation → Bool
  | .element _ _ _ | .text _ => true
  | .empty => false
  | .group inner => inner.hasNodes
  | .filtered inner _ => inner.hasOwnNodes
  | .child left _ | .climb left _ => left.hasOwnNodes
  | .sibling left right => left.hasOwnNodes || right.hasOwnNodes
  | .repeated inner count => count != .times 0 && inner.hasOwnNodes

/-- The first repetition that cannot be carried out, if there is one. What is never copied does not
count, nor the right side of `>` if there is no node to put it into. -/
def oversized? : Abbreviation → Option SizeError
  | .element _ _ _ | .text _ | .empty => none
  | .group inner | .filtered inner _ | .repeated inner .perLine => inner.oversized?
  | .child left right =>
    left.oversized?.or (if left.hasOwnNodes then right.oversized? else none)
  | .sibling left right | .climb left right => left.oversized?.or right.oversized?
  | .repeated inner (.times count) =>
    (Expansion.tooMany? count).or (if count = 0 then none else inner.oversized?)

/-- The forest that an abbreviation expands into, if there can be so many copies. -/
def expand? (a : Abbreviation) (setting : ExpansionSetting) (index : Int)
    (wrapped : Option Text) : Except SizeError (List Node) :=
  match a.oversized? with
  | some e => .error e
  | none => .ok (a.expand setting index wrapped)

end Abbreviation

end Abbrev
