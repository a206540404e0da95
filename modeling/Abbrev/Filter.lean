import Abbrev.Fragment
import Abbrev.Generator
import Abbrev.Node
import Abbrev.Text.Escape
import Abbrev.Text.ListMarker
import Abbrev.Text.Lowercase

/-!
# Filters

A filter changes what a generator writes, at two points: the node before it is written
(`Filter.prepare`), and what is written for the node itself, without its contents (`Filter.finish`).
A filter is named by a suffix of the abbreviation, or used by default in some contexts.
-/

namespace Abbrev

/-- A change to what a generator writes. -/
inductive Filter where
  /-- Shows the markup as text. -/
  | escape
  /-- Puts comments around elements with an id or a class. -/
  | comment (newline : Text)
  /-- Removes list markers from wrapped text. -/
  | trim
  /-- Drops `select` from two XSL elements if they have contents. -/
  | xsl
  /-- Changes nothing; if `failure` is given, refuses every node with that message. -/
  | custom (suffix : Text) (contexts defaultContexts : List Text) (failure : Option Text)
  deriving DecidableEq, Repr

namespace Filter

/-- The suffix that names a filter. -/
def suffix : Filter → Text
  | escape => "e".toList
  | comment _ => "c".toList
  | trim => "t".toList
  | xsl => "xsl".toList
  | custom suffix _ _ _ => suffix

/-- The contexts in which a filter applies. -/
def contexts : Filter → List Text
  | escape | trim => allContexts
  | comment _ => markupContexts
  | xsl => ["xsl".toList]
  | custom _ contexts _ _ => contexts

/-- The contexts in which a filter is used by default. -/
def defaultContexts : Filter → List Text
  | escape | comment _ | trim => []
  | xsl => ["xsl".toList]
  | custom _ _ defaultContexts _ => defaultContexts

/-- Whether the filter applies in a context. -/
def isApplicable (f : Filter) (context : Option Text) : Bool :=
  context.any f.contexts.contains

/-- Whether the filter is used by default in a context. -/
def isDefaultFor (f : Filter) (context : Option Text) : Bool :=
  context.any f.defaultContexts.contains

/-- The message with which the filter refuses every node, if it does. -/
def failure? : Filter → Option Text
  | custom _ _ _ failure => failure
  | _ => none

/-- The filter with its suffix, for records of what was done. -/
def description (f : Filter) : Text :=
  let label :=
    match f with
    | escape => "EscapeFilter"
    | comment _ => "CommentFilter"
    | trim => "TrimFilter"
    | xsl => "XslFilter"
    | custom _ _ _ _ => "Filter"
  label.toList ++ '(' :: Text.quoted f.suffix ++ [')']

/-- The XSL elements in which `select` and contents exclude each other. -/
def selectTags : List Text :=
  ["xsl:variable", "xsl:with-param"].map String.toList

/-- The attributes without those named `select` in any case. -/
def withoutSelect (attributes : List Attribute) : List Attribute :=
  attributes.filter fun a => Text.lower a.name ≠ "select".toList

/-- The node as the filter hands it on to be written. -/
def prepare : Filter → Node → Node
  | escape, node =>
    -- The text of a literal is all that is written for it, and is escaped after that.
    { node with
      text := if node.kind.isLiteral then node.text else node.text.map Text.escape
      wrapped := node.wrapped.map Text.escape }
  | trim, node => { node with wrapped := node.wrapped.map Text.trimListMarkers }
  | xsl, node =>
    match node.kind with
    | .element key attributes snippet =>
      if selectTags.contains (Text.lower key) && !node.children.isEmpty then
        { node with kind := .element key (withoutSelect attributes) snippet }
      else node
    | .literal => node
  | comment _, node => node
  | custom _ _ _ _, node => node

/-- What a comment says about an element: its id and its class, as far as it has them. -/
def commentText (attributes : List Attribute) : Text :=
  let part := fun (sign : Char) (name : String) =>
    match (Attribute.value? attributes name.toList).getD [] with
    | [] => []
    | value => sign :: value
  part '#' "id" ++ part '.' "class"

/-- What is written for a node itself, as the filter leaves it. -/
def finish : Filter → Node → Fragment → Fragment
  | escape, _, f => f.mapText Text.escape
  | comment newline, node, f =>
    match commentText node.kind.attributes with
    | [] => f
    | text =>
      f.surround ("<!-- ".toList ++ text ++ " -->".toList ++ newline)
        (newline ++ "<!-- /".toList ++ text ++ " -->".toList)
  | trim, _, f | xsl, _, f | custom _ _ _ _, _, f => f

end Filter

end Abbrev
