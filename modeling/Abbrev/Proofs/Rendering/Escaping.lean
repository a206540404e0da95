import Abbrev.Proofs.Forest.Outline
import Abbrev.Proofs.Registry.Members
import Abbrev.Proofs.Rendering.Templates

/-!
# Escaping last escapes everything once

The filter `escape` sees a node before it is written, where it escapes the texts that are put in
later, and what is written for the node itself, which it escapes as well. At the end of the filters,
the two together escape the whole template, each character once, and markers move along
(`Generator.assemble_escape`).

Escaping is a rewriting of characters, so it can be pulled out of all that is put together. What is
laid out is indented and broken into lines by the profile, in characters that escaping leaves alone.
What is left is that no part is missed and none is met twice: a literal text is all that is written
for its node (`Generator.finished_append_escape`), and all other texts are put in later
(`Generator.placeTexts_escaped`).
-/

namespace Abbrev

open Fragment (InRange)

/-! ## Escaped texts -/

namespace Text

variable {t : Text}

/-- Without a character that has a meaning in markup, a text is its own escaped form. -/
theorem escape_eq_self (h : ∀ c ∈ t, c ≠ '&' ∧ c ≠ '<' ∧ c ≠ '>') : t.escape = t :=
  flatMap_eq_self fun c hc => escapeChar_eq_self (h c hc)

/-- The escaped form of a text has as many lines. -/
@[simp] theorem contains_newline_escape (t : Text) :
    t.escape.contains '\n' = t.contains '\n' := by
  rw [Bool.eq_iff_iff, List.contains_iff_mem, List.contains_iff_mem]
  unfold escape
  rw [List.mem_flatMap]
  constructor
  · rintro ⟨c, hc, hmem⟩
    rwa [eq_of_newline_mem_escapeChar hmem] at hc
  · intro h
    exact ⟨'\n', h, by decide⟩

/-- The escaped form of a text is empty only if the text is. -/
@[simp] theorem isEmpty_escape (t : Text) : t.escape.isEmpty = t.isEmpty := by
  cases t with
  | nil => rfl
  | cons c t => simp [escape, escapeChar_ne_nil]

end Text

namespace Fragment

variable {f : Fragment}

/-- The fragment with its text escaped, and its markers moved along. -/
def escaped (f : Fragment) : Fragment :=
  f.rewritten Text.escapeChar

/-- Escaping the text between the markers escapes the fragment. -/
theorem mapText_escape (h : InRange f) : f.mapText Text.escape = f.escaped :=
  mapText_flatMap h Text.escapeChar

/-- An indent without a character that has a meaning in markup is the same before and after
escaping. -/
theorem escaped_indent (h : InRange f) {pad : Text} (hpad : pad.escape = pad) (firstLine : Bool) :
    (f.indent pad firstLine).escaped = f.escaped.indent pad firstLine :=
  rewritten_indent h Text.escape_injective (by decide)
    (fun _ hmem => Text.eq_of_newline_mem_escapeChar hmem) hpad firstLine

end Fragment

/-- The part with its text escaped. -/
def Piece.escaped (p : Piece) : Piece :=
  ⟨p.fragment.escaped, p.isBlock⟩

/-- A text as a part of the contents. -/
theorem Piece.ofText?_map_escape (t : Option Text) :
    Piece.ofText? (t.map Text.escape) = (Piece.ofText? t).map Piece.escaped := by
  cases t with
  | none => rfl
  | some t =>
    simp only [Option.map_some, ofText?, ofText, Text.contains_newline_escape]
    rfl

namespace Filter

/-! ## The last filter -/

/-- The last filter gets a node from those before it. -/
theorem prepareAll_append_singleton (filters : List Filter) (f : Filter) (node : Node) :
    prepareAll (filters ++ [f]) node = f.prepare (prepareAll filters node) :=
  prepareAll_append filters [f] node

/-- The last filter gets a fragment from those before it. -/
theorem finishAll_append_singleton (filters : List Filter) (f : Filter) (node : Node)
    (own : Fragment) :
    finishAll (filters ++ [f]) node own = f.finish node (finishAll filters node own) :=
  finishAll_append filters [f] node own

/-- What filters leave of a fragment depends on the kind of its node, and not on texts. -/
theorem finishAll_congr (filters : List Filter) {node other : Node} (h : node.kind = other.kind)
    (own : Fragment) : finishAll filters node own = finishAll filters other own := by
  have hfinish (f : Filter) (own : Fragment) : f.finish node own = f.finish other own := by
    cases f with
    | comment newline => rw [finish, finish, h]
    | _ => rfl
  unfold finishAll
  congr 1
  funext own f
  exact hfinish f own

end Filter

namespace Generator

open Fragment

variable {g : Generator} {filters : List Filter} {own base : Fragment}

/-! ## Contents -/

/-- Parts are laid out in the same way if they are escaped before. -/
theorem escaped_laidOut (hindent : g.profile.indent.escape = g.profile.indent)
    (hnewline : g.profile.newline.escape = g.profile.newline) {pieces : List Piece}
    (h : ∀ p ∈ pieces, InRange p.fragment) :
    (g.laidOut pieces).escaped = g.laidOut (pieces.map Piece.escaped) := by
  have hbreak : (Fragment.plain g.profile.newline).escaped = .plain g.profile.newline :=
    congrArg Fragment.plain hnewline
  have hany : (pieces.map Piece.escaped).any Piece.isBlock = pieces.any Piece.isBlock := by
    rw [List.any_map]
    rfl
  have hsteps : (g.layoutSteps pieces).map escaped = g.layoutSteps (pieces.map Piece.escaped) := by
    unfold layoutSteps
    dsimp only
    rw [hany]
    split
    · rw [List.map_append, List.map_flatMap, List.flatMap_map, List.map_singleton, hbreak]
      congr 1
      refine List.flatMap_congr ?_
      intro p hp
      rw [List.map_cons, List.map_singleton, hbreak, escaped_indent (h p hp) hindent]
      rfl
    · rw [List.map_map, List.map_map]
      rfl
  have hfold : (g.laidOut pieces).escaped = _ :=
    rewritten_foldl_append Text.escapeChar inRange_empty (g.inRange_layoutSteps h)
  rw [hfold]
  exact congrArg (·.foldl append .empty) hsteps

/-- Wrapped text goes to its marker in the same way if both are escaped before, and what is left of
it is escaped. -/
theorem placeSelection_escaped (h : InRange own) (wrapped : Option Text) :
    placeSelection own.escaped (wrapped.map Text.escape) =
      ((placeSelection own wrapped).1.escaped, (placeSelection own wrapped).2.map Text.escape) := by
  unfold placeSelection escaped
  rw [place?_rewritten h]
  cases hplace : own.place? Marker.selectionName with
  | none => rfl
  | some offset =>
    have hwithout := h.without Marker.selectionName
    have hoffset : offset ≤ (own.without Marker.selectionName).text.length :=
      h.place?_le hplace
    cases wrapped with
    | none => exact congrArg (·, none) (rewritten_without _ _ _).symm
    | some text =>
      have hinsert := rewritten_insert hwithout (inRange_plain text) Text.escapeChar_ne_nil hoffset
      rw [rewritten_without] at hinsert
      exact congrArg (·, none) hinsert.symm

/-- The texts of a node that are left are the escaped ones. -/
theorem placeTexts_escaped (h : InRange own) (node : Node) :
    placeTexts own.escaped (Filter.escape.prepare node) =
      ((placeTexts own node).1.escaped, (placeTexts own node).2.map Piece.escaped) := by
  have hinline : (if (Filter.escape.prepare node).kind.isLiteral then none
        else (Filter.escape.prepare node).text) =
      (if node.kind.isLiteral then none else node.text).map Text.escape := by
    unfold Filter.prepare
    dsimp only
    split <;> rfl
  have hfilter (t : Option Text) : (t.map Text.escape).filter (fun text => !text.isEmpty) =
      (t.filter fun text => !text.isEmpty).map Text.escape := by
    cases t with
    | none => rfl
    | some t =>
      rw [Option.map_some, Option.filter_some, Option.filter_some, Text.isEmpty_escape]
      split <;> rfl
  have hwrapped : (Filter.escape.prepare node).wrapped = node.wrapped.map Text.escape := rfl
  unfold placeTexts
  dsimp only
  rw [hinline, List.map_append, ← Piece.ofText?_map_escape, ← Piece.ofText?_map_escape, ← hfilter,
    hwrapped, placeSelection_escaped h]

/-- Contents go to the same place. -/
theorem contentPlace_escaped (h : InRange base) :
    contentPlace base.escaped = Text.moved Text.escapeChar base.text (contentPlace base) := by
  unfold contentPlace escaped
  rw [place?_rewritten h]
  cases base.place? Marker.endName with
  | none => exact (Text.moved_length Text.escapeChar base.text).symm
  | some n => rfl

/-- A child is the same part of the contents if it is escaped before. -/
theorem childPiece_escaped (child : Bool × Fragment) :
    childPiece (child.1, child.2.escaped) = (childPiece child).escaped := by
  have hlines : child.2.escaped.text.contains '\n' = child.2.text.contains '\n' :=
    Text.contains_newline_escape child.2.text
  simp only [childPiece, Piece.escaped, hlines]

/-- Children that follow their node, indented by spaces, may be escaped before. -/
theorem escaped_foldl_indent (hown : InRange own) {children : List (Bool × Fragment)}
    (h : ∀ child ∈ children, InRange child.2) :
    (children.foldl (fun host child => host.append (child.2.indent hamlIndent true)) own).escaped =
      (children.map fun child => (child.1, child.2.escaped)).foldl
        (fun host child => host.append (child.2.indent hamlIndent true)) own.escaped := by
  have hsteps : ∀ step ∈ children.map fun child => child.2.indent hamlIndent true,
      InRange step := by
    intro step hstep
    obtain ⟨child, hchild, rfl⟩ := List.mem_map.1 hstep
    exact (h child hchild).indent _ _
  have hescaped : (children.map fun child => child.2.indent hamlIndent true).map escaped =
      (children.map fun child => (child.1, child.2.escaped)).map
        fun child => child.2.indent hamlIndent true := by
    rw [List.map_map, List.map_map]
    refine List.map_congr_left ?_
    intro child hchild
    exact escaped_indent (h child hchild) (by decide) true
  have hfold : (_ : Fragment).escaped = _ := rewritten_foldl_append Text.escapeChar hown hsteps
  change _ = (List.map escaped _).foldl append own.escaped at hfold
  rw [hescaped, List.foldl_map, List.foldl_map] at hfold
  exact hfold

/-- What is written for a node with its contents is escaped if the node itself is, with its texts,
and what is written for its children. -/
theorem escaped_filled (hindent : g.profile.indent.escape = g.profile.indent)
    (hnewline : g.profile.newline.escape = g.profile.newline) (hown : InRange own) (node : Node)
    {children : List (Bool × Fragment)} (h : ∀ child ∈ children, InRange child.2) :
    (g.filled own node children).escaped =
      g.filled own.escaped (Filter.escape.prepare node)
        (children.map fun child => (child.1, child.2.escaped)) := by
  unfold filled
  split
  · exact escaped_foldl_indent hown h
  · -- The children are laid out with the texts and put in at the place for contents.
    have hbase := inRange_placeTexts hown node
    have hchildren : (children.map fun child => (child.1, child.2.escaped)).map childPiece =
        (children.map childPiece).map Piece.escaped := by
      rw [List.map_map, List.map_map]
      exact List.map_congr_left fun child _ => childPiece_escaped child
    have hpieces := inRange_pieces own node h
    rw [placeTexts_escaped hown, hchildren]
    dsimp only
    rw [← List.map_append]
    generalize (placeTexts own node).2 ++ children.map childPiece = pieces at hpieces
    cases pieces with
    | nil => rfl
    | cons piece rest =>
      have hlaid := g.inRange_laidOut hpieces
      have hinsert := rewritten_insert hbase hlaid Text.escapeChar_ne_nil (contentPlace_le hbase)
      rw [← contentPlace_escaped hbase] at hinsert
      change (Fragment.insert _ _ _).escaped =
        Fragment.insert _ _ (g.laidOut ((piece :: rest).map Piece.escaped))
      rw [← escaped_laidOut hindent hnewline hpieces]
      exact hinsert

/-! ## Nodes -/

/-- Whether an element is written as a lone tag does not depend on what its texts say. -/
theorem isVoid_escape (g : Generator) (key : Text) (node : Node) :
    g.isVoid key (Filter.escape.prepare node) = g.isVoid key node := by
  have htext : (Filter.escape.prepare node).text.isNone = node.text.isNone := by
    unfold Filter.prepare
    dsimp only
    split
    · rfl
    · exact Option.isNone_map
  have hwrapped : ((Filter.escape.prepare node).wrapped.getD []).isEmpty =
      (node.wrapped.getD []).isEmpty := by
    have hescaped : (Filter.escape.prepare node).wrapped = node.wrapped.map Text.escape := rfl
    rw [hescaped]
    cases node.wrapped with
    | none => rfl
    | some t => exact Text.isEmpty_escape t
  unfold isVoid
  rw [htext, hwrapped]
  rfl

/-- What is written for a node itself is the same if its other texts are escaped. -/
theorem ownFragment_escape (g : Generator) (node : Node) :
    g.ownFragment (Filter.escape.prepare node) = g.ownFragment node := by
  have hkind : (Filter.escape.prepare node).kind = node.kind := rfl
  have helement (key : Text) (attributes : List Attribute) :
      g.elementFragment key attributes (Filter.escape.prepare node) =
        g.elementFragment key attributes node := by
    have htagged : g.taggedSource key attributes (Filter.escape.prepare node) =
        g.taggedSource key attributes node := by
      unfold taggedSource
      rw [isVoid_escape]
    unfold elementFragment
    rw [htagged]
    rfl
  unfold ownFragment
  rw [hkind]
  cases hnode : node.kind with
  | literal =>
    have htext : (Filter.escape.prepare node).text =
        if node.kind.isLiteral then node.text else node.text.map Text.escape := rfl
    rw [hnode] at htext
    dsimp only
    rw [htext]
    rfl
  | element key attributes snippet =>
    dsimp only
    rw [helement]

/-- What is written for a node itself is escaped by the last filter. -/
theorem finished_append_escape (g : Generator) (filters : List Filter) (node : Node) :
    g.finished (filters ++ [.escape]) node = (g.finished filters node).escaped := by
  have hrange := Filter.inRange_finishAll filters (Filter.prepareAll filters node)
    (g.inRange_ownFragment (Filter.prepareAll filters node))
  have hkind : (Filter.escape.prepare (Filter.prepareAll filters node)).kind =
      (Filter.prepareAll filters node).kind := rfl
  unfold finished
  rw [Filter.prepareAll_append_singleton, ownFragment_escape, Filter.finishAll_append_singleton,
    Filter.finishAll_congr filters hkind]
  exact mapText_escape hrange

end Generator

/-- All that is written for nodes is escaped by the last filter. -/
theorem Node.writtenAll_append_escape {g : Generator}
    (hindent : g.profile.indent.escape = g.profile.indent)
    (hnewline : g.profile.newline.escape = g.profile.newline) (filters : List Filter)
    (forest : List Node) :
    Node.writtenAll g (filters ++ [.escape]) forest =
      (Node.writtenAll g filters forest).map fun child => (child.1, child.2.escaped) := by
  induction forest using Node.forest_induction with
  | nil => rfl
  | cons node rest ihChildren ihRest =>
    have hown : InRange (g.finished filters node) :=
      Filter.inRange_finishAll filters _ (g.inRange_ownFragment _)
    have hchildren := Node.inRange_writtenAll g filters node.children
    rw [Node.writtenAll_cons, Node.writtenAll_cons, List.map_cons, ihChildren, ihRest,
      Generator.finished_append_escape, Filter.prepareAll_append_singleton,
      Generator.escaped_filled hindent hnewline hown _ hchildren]

namespace Generator

/-- With the filter that escapes at the end of other filters, a forest is written as the escaped
template. -/
theorem value_assemble_append_escape {g : Generator}
    (hindent : g.profile.indent.escape = g.profile.indent)
    (hnewline : g.profile.newline.escape = g.profile.newline) (filters : List Filter)
    (forest : List Node) :
    (g.assemble (filters ++ [.escape]) forest).value =
      (g.assemble filters forest).value.rewritten Text.escapeChar := by
  rw [rewritten_assemble, value_assemble, Node.writtenAll_append_escape hindent hnewline,
    List.foldl_map, List.foldl_map]
  rfl

/-- With generators and filters of this library, and with `escape` at the end of the filters,
writing a forest does not fail, and gives the escaped form of what is written without `escape`: its
text is the escaped text, and each marker and the caret stand behind the escaped form of what stood
before them. The indent and the line break of the profile must not be escaped themselves. -/
theorem assemble_escape (profile : Profile)
    (hprofile : ∀ c ∈ profile.indent ++ profile.newline, c ≠ '&' ∧ c ≠ '<' ∧ c ≠ '>')
    {g : Generator} (hg : g ∈ (Registry.ofProfile profile).generators) {filters : List Filter}
    (hfilters : ∀ f ∈ filters, ∃ p, f ∈ (Registry.ofProfile p).filters) (forest : List Node) :
    g.fault? filters forest = none ∧ Node.misplacedIn? g filters forest = none ∧
      g.fault? (filters ++ [.escape]) forest = none ∧
      Node.misplacedIn? g (filters ++ [.escape]) forest = none ∧
      (g.assemble (filters ++ [.escape]) forest).value =
        let t := (g.assemble filters forest).value
        ⟨⟨t.text.escape,
            t.markers.map fun m => ⟨m.name, (Text.upTo m.offset t.text).escape.length⟩⟩,
          t.endOffset.map fun o => (Text.upTo o t.text).escape.length⟩ := by
  have hall : ∀ f ∈ filters ++ [.escape], ∃ p, f ∈ (Registry.ofProfile p).filters := by
    intro f hf
    rcases List.mem_append.1 hf with hf | hf
    · exact hfilters f hf
    · obtain rfl := List.mem_singleton.1 hf
      exact ⟨profile, List.mem_cons_self⟩
  have hindent : g.profile.indent.escape = g.profile.indent := by
    rw [Registry.profile_eq hg]
    exact Text.escape_eq_self fun c hc => hprofile c (List.mem_append_left _ hc)
  have hnewline : g.profile.newline.escape = g.profile.newline := by
    rw [Registry.profile_eq hg]
    exact Text.escape_eq_self fun c hc => hprofile c (List.mem_append_right _ hc)
  exact ⟨Registry.fault?_eq_none hg hfilters forest, Node.misplacedIn?_eq_none g filters forest,
    Registry.fault?_eq_none hg hall forest, Node.misplacedIn?_eq_none g _ forest,
    value_assemble_append_escape hindent hnewline filters forest⟩

/-- An element with an id and all kinds of contents. -/
def sampleContents : List Node :=
  [⟨.element "p".toList [⟨"id".toList, "i".toList⟩] none, 0, some "a".toList, some "<".toList,
    [⟨.literal, 0, some "&".toList, none, []⟩]⟩]

/-- In the sample, the comments, the tags and all texts are escaped once. -/
theorem assemble_escape_sampleContents :
    (∀ c ∈ ({} : Profile).indent ++ ({} : Profile).newline, c ≠ '&' ∧ c ≠ '<' ∧ c ≠ '>') ∧
      Generator.ofDialect {} .xml ∈ (Registry.ofProfile {}).generators ∧
      (∀ f ∈ [Filter.comment []], ∃ p, f ∈ (Registry.ofProfile p).filters) ∧
      ((Generator.ofDialect {} .xml).assemble ([.comment []] ++ [.escape]) sampleContents).value =
        ⟨⟨"&lt;!-- #i --&gt;&lt;p id=\"i\"&gt;a&lt;&amp;&lt;/p&gt;&lt;!-- /#i --&gt;".toList,
          [⟨"END".toList, 43⟩]⟩, some 43⟩ := by
  have hprofile : ∀ c ∈ ({} : Profile).indent ++ ({} : Profile).newline,
      c ≠ '&' ∧ c ≠ '<' ∧ c ≠ '>' := by
    have hboth : ({} : Profile).indent ++ ({} : Profile).newline = ['\t', '\n'] := rfl
    simp [hboth]
  have hg : Generator.ofDialect {} .xml ∈ (Registry.ofProfile {}).generators :=
    List.mem_cons_of_mem _ List.mem_cons_self
  have hfilters : ∀ f ∈ [Filter.comment []], ∃ p, f ∈ (Registry.ofProfile p).filters := by
    intro f hf
    obtain rfl := List.mem_singleton.1 hf
    exact ⟨{ newline := [] }, List.mem_cons_of_mem _ List.mem_cons_self⟩
  obtain ⟨-, -, -, -, hvalue⟩ := assemble_escape {} hprofile hg hfilters sampleContents
  refine ⟨hprofile, hg, hfilters, ?_⟩
  rw [hvalue]
  decide +kernel

end Generator

end Abbrev
