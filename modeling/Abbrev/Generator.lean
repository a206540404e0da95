import Abbrev.Profile

/-!
# Generators

A generator is one way to write a forest of nodes: as HTML, as XML or as HAML, each of which may be
adjusted. This module holds what a generator is and when it applies; how it writes is the matter of
`Abbrev.Rendering`.
-/

namespace Abbrev

/-- What a generator writes. -/
inductive Dialect where
  | html
  | xml
  | haml
  /-- Texts and snippets only: this dialect has no form for elements. -/
  | textual
  deriving DecidableEq, Repr

/-- The contexts with tags. -/
def markupContexts : List Text :=
  ["html", "xhtml", "xml", "xsl"].map String.toList

/-- All contexts. -/
def allContexts : List Text :=
  markupContexts ++ ["haml".toList]

/-- One way to write a forest of nodes. -/
structure Generator where
  dialect : Dialect
  /-- The name by which messages call the generator if it has no suffix. -/
  label : Text
  /-- The suffix that selects the generator. -/
  suffix : Option Text
  /-- Whether abbreviations for this generator may hold literal text. -/
  supportsText : Bool
  /-- Whether snippets of the catalog are used. -/
  usesSnippets : Bool
  /-- The element that a selector without a name stands for. -/
  defaultTag : Text
  /-- The contexts in which the generator applies. -/
  contexts : List Text
  /-- The contexts in which the generator is the default. -/
  defaultContexts : List Text
  profile : Profile

namespace Generator

/-- The generator of a dialect as it is before any adjustment. -/
def ofDialect (profile : Profile) : Dialect → Generator
  | .html =>
    { dialect := .html, label := "HtmlGenerator".toList, suffix := some "html".toList
      supportsText := true, usesSnippets := true, defaultTag := "div".toList
      contexts := markupContexts, defaultContexts := ["html".toList, "xhtml".toList], profile }
  | .xml =>
    { dialect := .xml, label := "XmlGenerator".toList, suffix := some "xml".toList
      supportsText := true, usesSnippets := true, defaultTag := "div".toList
      contexts := markupContexts, defaultContexts := ["xml".toList, "xsl".toList], profile }
  | .haml =>
    { dialect := .haml, label := "HamlGenerator".toList, suffix := some "haml".toList
      supportsText := false, usesSnippets := false, defaultTag := "div".toList
      contexts := ["html".toList, "xhtml".toList, "haml".toList]
      defaultContexts := ["haml".toList], profile }
  | .textual =>
    { dialect := .textual, label := "Generator".toList, suffix := none
      supportsText := true, usesSnippets := true, defaultTag := "div".toList
      contexts := markupContexts, defaultContexts := [], profile }

/-- The name of a generator in messages. -/
def name (g : Generator) : Text :=
  match g.suffix with
  | some (c :: rest) => c :: rest
  | _ => g.label

/-- The generator with its label and suffix, for records of what was done. -/
def description (g : Generator) : Text :=
  g.label ++ '(' :: Text.quotedOrNone g.suffix ++ [')']

/-- Whether the generator can be used in a context, and for wrapping if that is asked. HAML has no
place for wrapped text. -/
def isApplicable (g : Generator) (context : Option Text) (wrapping : Bool) : Bool :=
  !(wrapping && g.dialect == .haml) && context.any g.contexts.contains

/-- Whether the generator is the default in a context. -/
def isDefaultFor (g : Generator) (context : Option Text) : Bool :=
  context.any g.defaultContexts.contains

end Generator

end Abbrev
