import Abbrev.Fragment.Source
import Abbrev.Fragment.Splice
import Abbrev.Fragment.StartTag
import Abbrev.Fragment.TabStop
import Abbrev.Log

/-!
# Rendering

A generator writes a node as a fragment: first the node itself, an element with a marker `END` where
its contents go, a snippet, or a literal text; then the contents are put in at the marker, in the
order of inline text, wrapped text and children. Filters see the node before it is written and the
fragment before the contents are put in.

Contents are laid out on lines of their own if one of them is a block and the profile asks for it.
HAML, which shows nesting by indentation alone, has a layout of its own.
-/

namespace Abbrev

/-- The elements that never have contents. -/
def voidElements : List Text :=
  ["area", "base", "br", "col", "embed", "hr", "img", "input", "link", "meta", "param", "source",
    "track", "wbr"].map String.toList

/-- The elements that stand on lines of their own. -/
def blockElements : List Text :=
  ["address", "applet", "blockquote", "body", "button", "center", "dd", "del", "dir", "div", "dl",
    "dt", "fieldset", "form", "frameset", "head", "hr", "html", "iframe", "ins", "isindex", "li",
    "link", "map", "menu", "noframes", "noscript", "object", "ol", "optgroup", "option", "p", "pre",
    "script", "select", "table", "tbody", "td", "tfoot", "th", "thead", "tr", "ul",
    "h1", "h2", "h3", "h4", "h5", "h6"].map String.toList

/-- Why a forest cannot be written. -/
inductive RenderError where
  /-- A filter refuses the nodes. -/
  | refused (message : Text)
  /-- The generator has no form for elements. -/
  | noElementForm
  deriving DecidableEq, Repr

/-- The wording of an error. -/
def RenderError.message : RenderError → String
  | .refused message => message.str
  | .noElementForm => ""

namespace Fragment

/-- The record of the tab stops that are renamed when `piece` is put into `host`. -/
def renameEvents (host piece : Fragment) : List Event :=
  match host.renames piece with
  | [] => []
  | renames => [.renamed renames]

/-- `Fragment.insert` with a record of the renamed tab stops. -/
def insertLogged (host : Fragment) (offset : Nat) (piece : Fragment) : Logged Fragment :=
  ⟨host.insert offset piece, host.renameEvents piece⟩

/-- `Fragment.append` with a record of the renamed tab stops. -/
def appendLogged (host piece : Fragment) : Logged Fragment :=
  ⟨host.append piece, host.renameEvents piece⟩

/-- The source of the marker for contents. -/
def endSource : Text :=
  markerSource Marker.endName

end Fragment

open Fragment (escapeDollars markerSource endSource tabStopName)

/-- A part of the contents of a node. -/
structure Piece where
  fragment : Fragment
  /-- Whether the part stands on lines of its own. -/
  isBlock : Bool

namespace Piece

/-- A text as a part; it is a block if it has several lines. -/
def ofText (t : Text) : Piece :=
  ⟨.plain t, t.contains '\n'⟩

/-- The text as the only part, if there is one. -/
def ofText? : Option Text → List Piece
  | some t => [ofText t]
  | none => []

end Piece

namespace Generator

/-! ## Nodes without their contents -/

/-- The value of an attribute in quotes: a tab stop if it is empty. -/
def quotedValue (quote : Quote) (a : Attribute) : Text :=
  let body :=
    if a.value = [] then markerSource (tabStopName a.name)
    else Text.replaceChar quote.sign quote.entity (escapeDollars a.value)
  quote.sign :: body ++ [quote.sign]

/-- The source of attributes in a tag. -/
def attributesSource (quote : Quote) (attributes : List Attribute) : Text :=
  attributes.flatMap fun a => ' ' :: escapeDollars a.name ++ '=' :: quotedValue quote a

/-- Whether an element is written as a lone tag. Only HTML has such elements, and they need a
closing tag once they have contents. -/
def isVoid (g : Generator) (key : Text) (node : Node) : Bool :=
  g.dialect == .html && voidElements.contains (Text.lower key) && node.children.isEmpty &&
    node.text.isNone && (node.wrapped.getD []).isEmpty

/-- The source of an element with tags. -/
def taggedSource (g : Generator) (key : Text) (attributes : List Attribute) (node : Node) : Text :=
  let start := '<' :: escapeDollars key ++ attributesSource g.profile.quote attributes
  if g.isVoid key node then start ++ g.profile.closing.tagEnd ++ endSource
  else start ++ '>' :: endSource ++ '<' :: '/' :: escapeDollars key ++ ['>']

/-- The value of an attribute in HAML, a tab stop if it is empty. -/
def hamlValue (a : Attribute) : Text :=
  if a.value = [] then markerSource (tabStopName a.name) else escapeDollars a.value

/-- The source of the ids and classes of an element in HAML. -/
def hamlSelectors (attributes : List Attribute) : Text :=
  attributes.flatMap fun a =>
    if Text.lower a.name = "id".toList then '#' :: hamlValue a
    else if Text.lower a.name = "class".toList then '.' :: Text.replaceChar ' ' ['.'] (hamlValue a)
    else []

/-- The sources of the other attributes of an element in HAML. -/
def hamlOthers (quote : Quote) (attributes : List Attribute) : List Text :=
  (attributes.filter fun a =>
      Text.lower a.name ≠ "id".toList && Text.lower a.name ≠ "class".toList).map fun a =>
    ':' :: escapeDollars (Text.lower a.name) ++ " => ".toList ++ quote.sign :: hamlValue a ++
      [quote.sign]

/-- The source of an element in HAML. A `div` with just an id or a class needs no name. -/
def hamlSource (g : Generator) (key : Text) (attributes : List Attribute) (node : Node) : Text :=
  let selectors := hamlSelectors attributes
  let others := hamlOthers g.profile.quote attributes
  let braces := if others.isEmpty then [] else '{' :: Text.join ", ".toList others ++ ['}']
  let name := '%' :: escapeDollars (Text.lower key)
  let name := if name = "%div".toList && !selectors.isEmpty && others.isEmpty then [] else name
  let slash := if voidElements.contains (Text.lower key) && node.children.isEmpty then ['/'] else []
  name ++ selectors ++ braces ++ slash ++ endSource ++ ['\n']

/-- An element without its contents. -/
def elementFragment (g : Generator) (key : Text) (attributes : List Attribute) (node : Node) :
    Fragment :=
  match g.dialect with
  | .html | .xml => .ofSource (g.taggedSource key attributes node)
  | .haml => .ofSource (g.hamlSource key attributes node)
  | .textual => .empty

/-- A literal text. -/
def literalFragment (g : Generator) (text : Text) : Fragment :=
  match g.dialect with
  | .haml => ⟨'|' :: ' ' :: text ++ ['\n'], [⟨Marker.endName, text.length + 2⟩]⟩
  | _ => ⟨text, [⟨Marker.endName, text.length⟩]⟩

/-- What a snippet receives for the attributes of the abbreviation, and the offset at which that
goes in: at the marker `ATTRS`; without one, in the first start tag, as far as that does not carry
the attributes, or else at the end. -/
def snippetAttributes (g : Generator) (snippet : Fragment) (attributes : List Attribute) :
    Fragment × Nat :=
  let place := snippet.place? Marker.attributesName
  let tag := if place.isSome then none else StartTag.find? snippet.text
  let carried := match tag with
    | some tag => StartTag.attributeNames tag.source
    | none => []
  let added := Fragment.ofSource
    (attributesSource g.profile.quote (attributes.filter fun a => !carried.contains a.name))
  (added, (place <|> tag.map StartTag.insertion).getD snippet.text.length)

/-- A snippet with the attributes of the abbreviation. -/
def snippetFragment (g : Generator) (source : Text) (attributes : List Attribute) :
    Logged Fragment := do
  let snippet := Fragment.ofSource source
  let (added, offset) := g.snippetAttributes snippet attributes
  let filled ← if added = .empty then pure snippet else snippet.insertLogged offset added
  -- The marker has served, even if there was nothing to put there.
  let filled := filled.without Marker.attributesName
  return if filled.has Marker.endName then filled
    else filled.withMarker Marker.endName filled.text.length

/-- A node without its contents. -/
def ownFragment (g : Generator) (node : Node) : Logged Fragment :=
  match node.kind with
  | .literal => pure (g.literalFragment (node.text.getD []))
  | .element key attributes snippet =>
    match g.usesSnippets, snippet with
    | true, some source => g.snippetFragment source attributes
    | _, _ => pure (g.elementFragment key attributes node)

/-! ## Contents -/

/-- Whether a node stands on lines of its own whatever it holds. -/
def isBlock (g : Generator) (kind : NodeKind) : Bool :=
  match kind, g.dialect with
  | .element key _ _, .html => blockElements.contains (Text.lower key)
  | .element _ _ _, .xml => true
  | _, _ => false

/-- The parts one after the other; if there is a block among them and the profile asks for it, each
part stands on lines of its own, one level deeper. -/
def layout (g : Generator) (pieces : List Piece) : Logged Fragment :=
  let newline := Fragment.plain g.profile.newline
  let steps :=
    if g.profile.format && pieces.any Piece.isBlock then
      -- The last line break puts the closing tag on a line of its own.
      pieces.flatMap (fun p => [newline, p.fragment.indent g.profile.indent true]) ++ [newline]
    else pieces.map Piece.fragment
  steps.foldlM Fragment.appendLogged .empty

/-- What a level of nesting is written as in HAML. -/
def hamlIndent : Text := [' ', ' ']

/-- Puts wrapped text at the marker `SELECTION` and says what is left of it. -/
def placeSelection (own : Fragment) (wrapped : Option Text) : Fragment × Option Text :=
  match own.place? Marker.selectionName with
  | none => (own, wrapped)
  | some offset =>
    let rest := own.without Marker.selectionName
    match wrapped with
    | some text => (rest.insert offset (.plain text), none)
    | none => (rest, none)

/-- Puts wrapped text at its marker, and says which texts of the node are left: inline text and
wrapped text. -/
def placeTexts (own : Fragment) (node : Node) : Fragment × List Piece :=
  let (base, wrapped) := placeSelection own node.wrapped
  let inline := if node.kind.isLiteral then none else node.text
  (base, Piece.ofText? inline ++ Piece.ofText? (wrapped.filter fun text => !text.isEmpty))

/-- Where contents go in what is written for a node: to the marker `END`, or else to the end. -/
def contentPlace (base : Fragment) : Nat :=
  (base.place? Marker.endName).getD base.text.length

/-- Puts the contents of a node into what is written for the node itself. Each child is given by
whether it is a block and by how it is written. -/
def fill (g : Generator) (own : Fragment) (node : Node) (children : List (Bool × Logged Fragment)) :
    Logged Fragment := do
  match g.dialect with
  | .haml =>
    children.foldlM (fun host (_, child) => do
      host.appendLogged ((← child).indent hamlIndent true)) own
  | _ =>
    let (base, texts) := placeTexts own node
    let inner ← children.mapM fun (block, child) => do
      let fragment ← child
      return ⟨fragment, block || fragment.text.contains '\n'⟩
    match texts ++ inner with
    | [] => return base
    | pieces => base.insertLogged (contentPlace base) (← g.layout pieces)

/-! ## Places outside of the text -/

/-- The error of putting the attributes of a node into its snippet, if that is where they go. -/
def attributesOutside? (g : Generator) (node : Node) : Option Fragment.OffsetError :=
  match g.usesSnippets, node.kind with
  | true, .element _ attributes (some source) =>
    let (added, offset) := g.snippetAttributes (.ofSource source) attributes
    if added = .empty then none else (Fragment.ofSource source).outside? offset
  | _, _ => none

/-- The error of putting wrapped text at its marker, if there are both. -/
def selectionOutside? (own : Fragment) (wrapped : Option Text) : Option Fragment.OffsetError :=
  match own.place? Marker.selectionName, wrapped with
  | some offset, some _ => (own.without Marker.selectionName).outside? offset
  | _, _ => none

/-- The error of putting in the contents of a node, if it has any. -/
def contentsOutside? (own : Fragment) (node : Node) : Option Fragment.OffsetError :=
  let (base, texts) := placeTexts own node
  if texts.isEmpty && node.children.isEmpty then none else base.outside? (contentPlace base)

end Generator

namespace Filter

/-- The node as all filters hand it on. -/
def prepareAll (filters : List Filter) (node : Node) : Node :=
  filters.foldl (fun node f => f.prepare node) node

/-- What is written for a node itself, as all filters leave it. -/
def finishAll (filters : List Filter) (node : Node) (own : Fragment) : Fragment :=
  filters.foldl (fun own f => f.finish node own) own

end Filter

mutual

/-- Writes a node with all that is inside it. -/
def Node.render (g : Generator) (filters : List Filter) : Node → Logged Fragment
  | ⟨kind, index, text, wrapped, children⟩ => do
    let node := Filter.prepareAll filters ⟨kind, index, text, wrapped, children⟩
    let own ← g.ownFragment node
    g.fill (Filter.finishAll filters node own) node (Node.renderAll g filters children)

/-- Writes each node of a forest, and says whether it is a block. -/
def Node.renderAll (g : Generator) (filters : List Filter) :
    List Node → List (Bool × Logged Fragment)
  | [] => []
  | node :: rest => (g.isBlock node.kind, node.render g filters) :: Node.renderAll g filters rest

end

mutual

/-- The first error of writing a node: an insertion outside of the text that it goes into. -/
def Node.misplaced? (g : Generator) (filters : List Filter) : Node → Option Fragment.OffsetError
  | ⟨kind, index, text, wrapped, children⟩ =>
    let node := Filter.prepareAll filters ⟨kind, index, text, wrapped, children⟩
    let own := Filter.finishAll filters node (g.ownFragment node).value
    match g.dialect with
    | .haml =>
      -- Children follow their node, so there is no place for contents to miss.
      g.attributesOutside? node <|> Node.misplacedIn? g filters children
    | _ =>
      g.attributesOutside? node <|> Generator.selectionOutside? own node.wrapped <|>
        Node.misplacedIn? g filters children <|> Generator.contentsOutside? own node

/-- The first error of writing a forest. -/
def Node.misplacedIn? (g : Generator) (filters : List Filter) :
    List Node → Option Fragment.OffsetError
  | [] => none
  | node :: rest => node.misplaced? g filters <|> Node.misplacedIn? g filters rest

end

mutual

/-- Whether some node, or one inside it, is of a kind. -/
def Node.exists (p : NodeKind → Bool) : Node → Bool
  | ⟨kind, _, _, _, children⟩ => p kind || Node.existsIn p children

/-- Whether some node of a forest, or one inside it, is of a kind. -/
def Node.existsIn (p : NodeKind → Bool) : List Node → Bool
  | [] => false
  | node :: rest => node.exists p || Node.existsIn p rest

end

namespace Generator

/-- Whether the generator writes a node of some kind as an element. -/
def needsElementForm (g : Generator) : NodeKind → Bool
  | .literal => false
  | .element _ _ snippet => !(g.usesSnippets && snippet.isSome)

/-- Why a forest cannot be written. A refusal comes first, as it meets the first node at once. -/
def fault? (g : Generator) (filters : List Filter) (nodes : List Node) : Option RenderError :=
  match nodes, filters.findSome? Filter.failure? with
  | [], _ => none
  | _, some message => some (.refused message)
  | nodes, none =>
    if g.dialect == .textual && Node.existsIn g.needsElementForm nodes then some .noElementForm
    else none

/-- A template with one more fragment at its end. Its first caret is the first one it ever had. -/
def addFragment (template : Template) (f : Fragment) : Logged Template := do
  let extended ← template.toFragment.appendLogged f
  let inserted := (Fragment.insertedEnd? template.text.length f).map Int.ofNat
  return ⟨extended, template.endOffset <|> inserted⟩

/-- Writes a forest as one template. -/
def assemble (g : Generator) (filters : List Filter) (nodes : List Node) : Logged Template := do
  let template ← (Node.renderAll g filters nodes).foldlM
    (fun template (_, rendered) => do addFragment template (← rendered)) ⟨.empty, none⟩
  Logged.record (.assembled nodes.length template.text.length template.names)
  return template

end Generator

end Abbrev
