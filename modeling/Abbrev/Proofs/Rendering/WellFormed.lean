import Abbrev.Proofs.Fragment.WellFormed
import Abbrev.Proofs.Forest.Outline
import Abbrev.Proofs.Registry.Members
import Abbrev.Proofs.Rendering.Placement
import Abbrev.Proofs.Rendering.Sources
import Abbrev.Proofs.Rendering.Values

/-!
# Templates are well formed

Whatever a forest is written from, by the generators and filters of this library, the template has
its markers in the order of their offsets, within the text, under names that markers can have; none
of them is a marker that only the writing uses; and there is one caret
(`Generator.wellFormed_assemble`).

The marker `ATTRS` goes when a snippet has received its attributes, and `SELECTION` when the texts
of a node are put in. So what is written for a node itself has no `ATTRS` (`IsOwn`), and what is
written for a whole node has neither (`IsShown`); one level of a forest hands the second on to the
next (`Ready`). No other marker can take one of these names: tab stops have no capitals, and a
marker that is renamed ends in a digit.
-/

namespace Abbrev

open Fragment (WellFormed Numberable isName tabStopName)

/-! ## Kinds of names -/

namespace Marker

/-- The names in what is written for a node itself. -/
def IsOwn (name : Text) : Prop :=
  isName name = true ∧ name ≠ attributesName

/-- The names in what is written for a whole node. -/
def IsShown (name : Text) : Prop :=
  IsOwn name ∧ name ≠ selectionName

/-- Names of a node itself may be followed by a number. -/
theorem numberable_isOwn : Numberable IsOwn :=
  Fragment.numberable_isName.and_ne "ATTR".toList (by decide)

/-- Names of a whole node may be followed by a number. -/
theorem numberable_isShown : Numberable IsShown :=
  numberable_isOwn.and_ne "SELECTIO".toList (by decide)

/-- The caret is shown. -/
theorem isShown_endName : IsShown endName := by
  refine ⟨⟨?_, ?_⟩, ?_⟩ <;> decide

end Marker

open Marker (IsOwn IsShown)

variable {g : Generator} {filters : List Filter} {own base : Fragment}

namespace Generator

open Fragment

/-! ## What is written for a node itself -/

/-- A fragment with a caret, at its end if it has none yet. -/
def withCaret (f : Fragment) : Fragment :=
  if f.has Marker.endName then f else f.withMarker Marker.endName f.text.length

/-- With a caret, a fragment that had one at most has one. -/
theorem wellFormed_withCaret {f : Fragment} (h : WellFormed IsOwn f) (hone : f.endCount ≤ 1) :
    WellFormed IsOwn (withCaret f) ∧ (withCaret f).endCount = 1 := by
  have hhas := has_endName_iff fun m hm => (h.inRange m hm).1
  unfold withCaret
  split
  · next hend =>
    have hsome := hhas.1 hend
    exact ⟨h, by omega⟩
  · next hend =>
    have hnone : f.endCount = 0 := by
      by_contra hsome
      exact hend (hhas.2 hsome)
    refine ⟨h.withMarker Marker.isShown_endName.1 (Nat.le_refl _), ?_⟩
    rw [endCount_withMarker, hnone]

/-- A snippet with attributes is well formed, and has one caret if it has not brought more. -/
theorem wellFormed_snippetFragment (g : Generator) {source : Text} (attributes : List Attribute)
    (hsource : (Fragment.ofSource source).endCount ≤ 1) :
    WellFormed IsOwn (g.snippetFragment source attributes).value ∧
      (g.snippetFragment source attributes).value.endCount = 1 := by
  have hsnippet := wellFormed_ofSource source
  obtain ⟨-, hoffset⟩ := g.snippetAttributes_le hsnippet.inRange attributes
  have hadded : (g.snippetAttributes (.ofSource source) attributes).1.endCount = 0 := by
    unfold snippetAttributes
    dsimp only
    rw [(reads_attributesSource _ _).ofSource]
    exact (onlyTabStops_attributesFragment _ _).endCount
  -- Whatever has been put in, the marker of the attributes goes, and a missing caret is added.
  have hfilled (f : Fragment) (hf : WellFormed (fun name => isName name = true) f)
      (hone : f.endCount ≤ 1) :
      WellFormed IsOwn (withCaret (f.without Marker.attributesName)) ∧
        (withCaret (f.without Marker.attributesName)).endCount = 1 := by
    refine wellFormed_withCaret (hf.without Marker.attributesName) ?_
    rw [endCount_without f (by decide)]
    exact hone
  unfold snippetFragment
  dsimp only
  split
  · exact hfilled _ hsnippet hsource
  · have hpiece : WellFormed (fun name => isName name = true)
        (g.snippetAttributes (.ofSource source) attributes).1 := wellFormed_ofSource _
    refine hfilled _ (hsnippet.insert hpiece numberable_isName hoffset) ?_
    change (Fragment.insert _ _ _).endCount ≤ 1
    rw [endCount_insert hpiece.inRange, if_pos hadded]
    exact hsource

/-- A caret between tab stops is the only marker that is none. -/
theorem wellFormed_caret_between {source : Text} {before after : Fragment}
    (h : Fragment.ofSource source = (before.concat (startMarker Marker.endName)).concat after)
    (hbefore : OnlyTabStops before) (hafter : OnlyTabStops after) :
    WellFormed IsShown (Fragment.ofSource source) ∧ (Fragment.ofSource source).endCount = 1 := by
  have hread := wellFormed_ofSource source
  refine ⟨⟨hread.inRange, hread.sorted, ?_⟩, ?_⟩
  · intro m hm
    have hname : m.name = Marker.endName ∨ ∃ name, m.name = tabStopName name := by
      rw [h] at hm
      rcases List.mem_append.1 hm with hm | hm
      · rcases List.mem_append.1 hm with hm | hm
        · exact .inr (hbefore m hm)
        · simp only [startMarker, List.map_cons, List.map_nil, List.mem_singleton] at hm
          rw [hm]
          exact .inl rfl
      · obtain ⟨n, hn, rfl⟩ := List.mem_map.1 hm
        exact .inr (hafter n hn)
    obtain hend | ⟨name, htab⟩ := hname
    · rw [hend]
      exact Marker.isShown_endName
    · refine ⟨⟨hread.names m hm, ?_⟩, ?_⟩
      · rw [htab]
        exact tabStopName_ne ⟨'A', by decide, by decide⟩ name
      · rw [htab]
        exact tabStopName_ne ⟨'S', by decide, by decide⟩ name
  · rw [h, endCount_concat, endCount_concat, hbefore.endCount, hafter.endCount]
    decide

/-- What an element is read as is well formed, and has one caret. -/
theorem wellFormed_elementFragment (hg : g.dialect ≠ .textual) (key : Text)
    (attributes : List Attribute) (node : Node) :
    WellFormed IsShown (g.elementFragment key attributes node) ∧
      (g.elementFragment key attributes node).endCount = 1 := by
  have hattributes := onlyTabStops_attributesFragment g.profile.quote attributes
  have htagged : WellFormed IsShown (.ofSource (g.taggedSource key attributes node)) ∧
      (Fragment.ofSource (g.taggedSource key attributes node)).endCount = 1 := by
    have hstart := (onlyTabStops_plain ('<' :: key)).concat hattributes
    have hread := ofSource_taggedSource g key attributes node
    unfold taggedFragment at hread
    dsimp only at hread
    split at hread
    · rw [← concat_empty (Fragment.concat _ (startMarker _))] at hread
      exact wellFormed_caret_between hread (hstart.concat (onlyTabStops_plain _))
        (onlyTabStops_plain [])
    · exact wellFormed_caret_between hread (hstart.concat (onlyTabStops_plain _))
        (onlyTabStops_plain _)
  unfold elementFragment
  split
  · exact htagged
  · exact htagged
  · have hread := ofSource_hamlSource g key attributes node
    unfold hamlFragment at hread
    refine wellFormed_caret_between hread ?_ (onlyTabStops_plain _)
    refine ((((onlyTabStops_plain _).concat (onlyTabStops_hamlSelectorsFragment attributes)).concat
      ?_).concat (onlyTabStops_plain _))
    split
    · exact onlyTabStops_plain []
    · exact ((onlyTabStops_plain _).concat (onlyTabStops_hamlOthersFragment _ _)).concat
        (onlyTabStops_plain _)
  · next htextual => exact absurd htextual hg

/-- A literal text has one caret, at its end. -/
theorem wellFormed_literalFragment (g : Generator) (text : Text) :
    WellFormed IsShown (g.literalFragment text) ∧ (g.literalFragment text).endCount = 1 := by
  unfold literalFragment
  split
  · refine ⟨wellFormed_singleton ?_ Marker.isShown_endName, rfl⟩
    simp
  · exact ⟨wellFormed_singleton (Nat.le_refl _) Marker.isShown_endName, rfl⟩

/-- What is written for a node itself is well formed, and has one caret. Only a snippet may have a
marker for wrapped text. -/
theorem wellFormed_ownFragment (hg : g.dialect ≠ .textual) {node : Node}
    (hsnippet : ∀ source ∈ node.kind.snippet?, (Fragment.ofSource source).endCount ≤ 1) :
    WellFormed IsOwn (g.ownFragment node).value ∧ (g.ownFragment node).value.endCount = 1 ∧
      (g.usesSnippets = false → WellFormed IsShown (g.ownFragment node).value) := by
  have hshown {f : Fragment} (h : WellFormed IsShown f ∧ f.endCount = 1) :
      WellFormed IsOwn f ∧ f.endCount = 1 ∧ (g.usesSnippets = false → WellFormed IsShown f) :=
    ⟨h.1.mono fun _ hname => hname.1, h.2, fun _ => h.1⟩
  unfold ownFragment
  split
  · exact hshown (g.wellFormed_literalFragment _)
  · next key attributes snippet hkind =>
    split
    · next source huses =>
      obtain ⟨hform, hone⟩ := g.wellFormed_snippetFragment attributes
        (hsnippet source (by rw [hkind]; rfl))
      refine ⟨hform, hone, ?_⟩
      intro hnone
      rw [huses] at hnone
      cases hnone
    · exact hshown (wellFormed_elementFragment hg key attributes node)

end Generator

namespace Filter

/-! ## Filters -/

/-- A filter keeps the snippet of a node. -/
theorem snippet?_prepare (f : Filter) (node : Node) :
    (f.prepare node).kind.snippet? = node.kind.snippet? := by
  unfold prepare
  split
  · rfl
  · rfl
  · split
    · next hkind =>
      split
      · rw [hkind]
        rfl
      · rfl
    · rfl
  · rfl
  · rfl

/-- All filters together keep the snippet of a node. -/
theorem snippet?_prepareAll (filters : List Filter) (node : Node) :
    (prepareAll filters node).kind.snippet? = node.kind.snippet? := by
  unfold prepareAll
  induction filters generalizing node with
  | nil => rfl
  | cons f rest ih => rw [List.foldl_cons, ih, snippet?_prepare]

/-- A filter leaves what is written for a node well formed, with as many carets as before. -/
theorem wellFormed_finish (f : Filter) (node : Node) {p : Text → Prop} (h : WellFormed p own) :
    WellFormed p (f.finish node own) ∧ (f.finish node own).endCount = own.endCount := by
  unfold finish
  split
  · unfold Text.escape
    refine ⟨?_, Fragment.endCount_mapText _ _⟩
    rw [Fragment.mapText_flatMap h.inRange]
    exact h.rewritten _
  · split
    · exact ⟨h, rfl⟩
    · exact ⟨h.surround _ _, Fragment.endCount_surround _ _ _⟩
  all_goals exact ⟨h, rfl⟩

/-- All filters together leave what is written for a node well formed. -/
theorem wellFormed_finishAll (filters : List Filter) (node : Node) {p : Text → Prop}
    (h : WellFormed p own) :
    WellFormed p (finishAll filters node own) ∧
      (finishAll filters node own).endCount = own.endCount := by
  unfold finishAll
  induction filters generalizing own with
  | nil => exact ⟨h, rfl⟩
  | cons f rest ih =>
    obtain ⟨hform, hcount⟩ := f.wellFormed_finish node h
    rw [List.foldl_cons, ← hcount]
    exact ih hform

end Filter

/-! ## Contents -/

namespace Fragment

/-- Well formed for a template, with one caret. -/
structure Ready (f : Fragment) : Prop where
  wellFormed : WellFormed IsShown f
  oneEnd : f.endCount = 1

/-- Indenting leaves a fragment ready. -/
theorem Ready.indent {f : Fragment} (h : Ready f) (pad : Text) (firstLine : Bool) :
    Ready (f.indent pad firstLine) :=
  ⟨h.wellFormed.indent pad firstLine, by rw [endCount_indent, h.oneEnd]⟩

/-- With something at its end that has one caret at most, a fragment is ready. -/
theorem Ready.append {host piece : Fragment} (h : Ready host) (hpiece : WellFormed IsShown piece)
    (hone : piece.endCount ≤ 1) : Ready (host.append piece) := by
  refine ⟨h.wellFormed.append hpiece Marker.numberable_isShown, ?_⟩
  have hend := h.oneEnd
  rw [endCount_append hpiece.inRange]
  split <;> omega

/-- With something put in that has one caret at most, a fragment is ready. -/
theorem Ready.insert {host piece : Fragment} (h : Ready host) (hpiece : WellFormed IsShown piece)
    (hone : piece.endCount ≤ 1) {offset : Nat} (hoffset : offset ≤ host.text.length) :
    Ready (host.insert offset piece) := by
  refine ⟨h.wellFormed.insert hpiece Marker.numberable_isShown hoffset, ?_⟩
  have hend := h.oneEnd
  rw [endCount_insert hpiece.inRange]
  split <;> omega

end Fragment

namespace Generator

open Fragment

/-- Parts one after the other are well formed, and have one caret at most. -/
theorem wellFormed_foldl_append {start : Fragment} (hstart : WellFormed IsShown start)
    (hone : start.endCount ≤ 1) {steps : List Fragment}
    (h : ∀ step ∈ steps, WellFormed IsShown step ∧ step.endCount ≤ 1) :
    WellFormed IsShown (steps.foldl Fragment.append start) ∧
      (steps.foldl Fragment.append start).endCount ≤ 1 := by
  induction steps generalizing start with
  | nil => exact ⟨hstart, hone⟩
  | cons step rest ih =>
    obtain ⟨⟨hform, hcount⟩, hrest⟩ := List.forall_mem_cons.1 h
    refine ih (hstart.append hform Marker.numberable_isShown) ?_ hrest
    rw [endCount_append hform.inRange]
    split <;> omega

/-- Parts are laid out well formed, with one caret at most. -/
theorem wellFormed_laidOut (g : Generator) {pieces : List Piece}
    (h : ∀ p ∈ pieces, WellFormed IsShown p.fragment ∧ p.fragment.endCount ≤ 1) :
    WellFormed IsShown (g.laidOut pieces) ∧ (g.laidOut pieces).endCount ≤ 1 := by
  refine wellFormed_foldl_append (wellFormed_empty _) (Nat.zero_le 1) ?_
  intro step hstep
  obtain rfl | ⟨p, hp, rfl | rfl⟩ := of_mem_layoutSteps hstep
  · exact ⟨wellFormed_plain _ _, Nat.zero_le 1⟩
  · exact h p hp
  · obtain ⟨hform, hone⟩ := h p hp
    exact ⟨hform.indent _ _, by rwa [endCount_indent]⟩

/-- The marker for wrapped text goes, whether or not there is wrapped text. -/
theorem ready_placeTexts (hform : WellFormed IsOwn own) (hone : own.endCount = 1) (node : Node) :
    Ready (placeTexts own node).1 := by
  unfold placeTexts placeSelection
  cases hplace : own.place? Marker.selectionName with
  | none =>
    refine ⟨⟨hform.inRange, hform.sorted, ?_⟩, hone⟩
    intro m hm
    refine ⟨hform.names m hm, ?_⟩
    intro hname
    have hhas := hform.inRange.has_iff.2 ⟨m, hm, hname⟩
    rw [has, hplace] at hhas
    cases hhas
  | some offset =>
    have hwithout : Ready (own.without Marker.selectionName) :=
      ⟨hform.without _, by rw [endCount_without own (by decide), hone]⟩
    cases node.wrapped with
    | none => exact hwithout
    | some text =>
      exact hwithout.insert (wellFormed_plain _ text) (Nat.zero_le 1)
        (hform.inRange.place?_le hplace)

/-- The texts of a node have no markers. -/
theorem wellFormed_of_mem_placeTexts (own : Fragment) (node : Node) :
    ∀ p ∈ (placeTexts own node).2, WellFormed IsShown p.fragment ∧ p.fragment.endCount ≤ 1 := by
  have htext (t : Option Text) : ∀ p ∈ Piece.ofText? t,
      WellFormed IsShown p.fragment ∧ p.fragment.endCount ≤ 1 := by
    intro p hp
    cases t with
    | none => cases hp
    | some t =>
      obtain rfl := List.mem_singleton.1 hp
      exact ⟨wellFormed_plain _ t, Nat.zero_le 1⟩
  intro p hp
  rcases List.mem_append.1 hp with hp | hp
  · exact htext _ p hp
  · exact htext _ p hp

/-- What is written for a whole node is ready, if what is written for its children is. -/
theorem ready_filled (g : Generator) (hform : WellFormed IsOwn own) (hone : own.endCount = 1)
    (hhaml : g.dialect = .haml → WellFormed IsShown own) (node : Node)
    {children : List (Bool × Fragment)} (h : ∀ child ∈ children, Ready child.2) :
    Ready (g.filled own node children) := by
  unfold filled
  split
  · next hdialect =>
    -- HAML: the children follow their node, indented.
    have hstart : Ready own := ⟨hhaml hdialect, hone⟩
    clear hform hone hhaml
    induction children generalizing own with
    | nil => exact hstart
    | cons child rest ih =>
      obtain ⟨hchild, hrest⟩ := List.forall_mem_cons.1 h
      have hindented := hchild.indent hamlIndent true
      exact ih hrest (hstart.append hindented.wellFormed (Nat.le_of_eq hindented.oneEnd))
  · -- Otherwise they are laid out with the texts and put in at the place for contents.
    have hbase := ready_placeTexts hform hone node
    have hpieces : ∀ p ∈ (placeTexts own node).2 ++ children.map childPiece,
        WellFormed IsShown p.fragment ∧ p.fragment.endCount ≤ 1 := by
      intro p hp
      rcases List.mem_append.1 hp with hp | hp
      · exact wellFormed_of_mem_placeTexts own node p hp
      · obtain ⟨child, hchild, rfl⟩ := List.mem_map.1 hp
        exact ⟨(h child hchild).wellFormed, Nat.le_of_eq (h child hchild).oneEnd⟩
    dsimp only
    split
    · exact hbase
    · obtain ⟨hlayout, hlayoutOne⟩ := g.wellFormed_laidOut hpieces
      exact hbase.insert hlayout hlayoutOne (contentPlace_le hbase.wellFormed.inRange)

end Generator

/-! ## Nodes and forests -/

/-- What is written for each node of a forest is ready. -/
theorem Node.ready_writtenAll (filters : List Filter) (hg : g.dialect ≠ .textual)
    (hhaml : g.dialect = .haml → g.usesSnippets = false) {forest : List Node}
    (hsnippets : ∀ node ∈ Node.preorder forest, ∀ source ∈ node.kind.snippet?,
      (Fragment.ofSource source).endCount ≤ 1) :
    ∀ child ∈ Node.writtenAll g filters forest, Fragment.Ready child.2 := by
  induction forest using Node.forest_induction with
  | nil => rintro child ⟨⟩
  | cons node rest ihChildren ihRest =>
    rw [Node.preorder_cons] at hsnippets
    obtain ⟨hnode, hmore⟩ := List.forall_mem_cons.1 hsnippets
    obtain ⟨hchildren, hrest⟩ := List.forall_mem_append.1 hmore
    have hprepared : ∀ source ∈ (Filter.prepareAll filters node).kind.snippet?,
        (Fragment.ofSource source).endCount ≤ 1 := by
      rw [Filter.snippet?_prepareAll]
      exact hnode
    obtain ⟨hform, hone, hshown⟩ := Generator.wellFormed_ownFragment hg hprepared
    obtain ⟨hfinished, hcount⟩ := Filter.wellFormed_finishAll filters _ hform
    rw [Node.writtenAll_cons]
    refine List.forall_mem_cons.2 ⟨?_, ihRest hrest⟩
    refine g.ready_filled hfinished (hcount.trans hone) ?_ _ (ihChildren hchildren)
    intro hdialect
    exact (Filter.wellFormed_finishAll filters _ (hshown (hhaml hdialect))).1

/-- A template stays ready when more is written. -/
theorem Template.ready_foldl_add {t : Template} (h : t.toFragment.Ready)
    {written : List (Bool × Fragment)} (hall : ∀ child ∈ written, Fragment.Ready child.2) :
    (written.foldl (fun t child => t.add child.2) t).toFragment.Ready := by
  induction written generalizing t with
  | nil => exact h
  | cons first rest ih =>
    obtain ⟨hfirst, hrest⟩ := List.forall_mem_cons.1 hall
    have hadded : (t.add first.2).toFragment.Ready :=
      h.append hfirst.wellFormed (Nat.le_of_eq hfirst.oneEnd)
    exact ih hadded hrest

namespace Generator

/-- A forest is written as a template that is well formed and has one caret, if there is a node. -/
theorem wellFormed_value_assemble (filters : List Filter) (hg : g.dialect ≠ .textual)
    (hhaml : g.dialect = .haml → g.usesSnippets = false) {forest : List Node}
    (hsnippets : ∀ node ∈ Node.preorder forest, ∀ source ∈ node.kind.snippet?,
      (Fragment.ofSource source).endCount ≤ 1) :
    WellFormed IsShown (g.assemble filters forest).value.toFragment ∧
      (g.assemble filters forest).value.endCount = if forest = [] then 0 else 1 := by
  have hall := Node.ready_writtenAll filters hg hhaml hsnippets
  rw [value_assemble]
  cases forest with
  | nil => exact ⟨Fragment.wellFormed_empty _, rfl⟩
  | cons node rest =>
    rw [Node.writtenAll_cons] at hall ⊢
    obtain ⟨hfirst, hrest⟩ := List.forall_mem_cons.1 hall
    rw [List.foldl_cons]
    generalize g.filled _ _ _ = first at hfirst
    -- The first node brings the caret, and every later one replaces it.
    have hstart : (Template.add ⟨.empty, none⟩ first).toFragment.Ready := by
      have hform := hfirst.wellFormed
      refine ⟨(Fragment.wellFormed_empty _).append hform Marker.numberable_isShown, ?_⟩
      change (Fragment.append _ _).endCount = 1
      rw [Fragment.endCount_append hform.inRange, hfirst.oneEnd]
      rfl
    have hready := Template.ready_foldl_add hstart hrest
    exact ⟨hready.wellFormed, hready.oneEnd⟩

/-- With the generators and filters of this library, writing a forest does not fail. The markers of
the template stand in the order of their offsets, which are offsets of its text; each has a name
that a marker can have, and none has the name of a marker that only the writing uses; and there is
one caret, or none if there are no nodes. Snippets must not bring more than one caret. -/
theorem wellFormed_assemble (profile : Profile) {g : Generator}
    (hg : g ∈ (Registry.ofProfile profile).generators) {filters : List Filter}
    (hfilters : ∀ f ∈ filters, ∃ p, f ∈ (Registry.ofProfile p).filters) {forest : List Node}
    (hsnippets : ∀ node ∈ Node.preorder forest, ∀ source ∈ node.kind.snippet?,
      (Fragment.ofSource source).endCount ≤ 1) :
    g.fault? filters forest = none ∧ Node.misplacedIn? g filters forest = none ∧
      (g.assemble filters forest).value.markers.Pairwise (fun m n => m.offset ≤ n.offset) ∧
      (∀ m ∈ (g.assemble filters forest).value.markers,
        0 ≤ m.offset ∧ m.offset ≤ (g.assemble filters forest).value.text.length ∧
          isName m.name = true ∧ m.name ≠ Marker.attributesName ∧
          m.name ≠ Marker.selectionName) ∧
      (g.assemble filters forest).value.markers.countP (fun m => m.name = Marker.endName) =
        if forest = [] then 0 else 1 := by
  obtain ⟨hform, hcount⟩ := wellFormed_value_assemble filters
    (Registry.dialect_ne_textual hg) (Registry.usesSnippets_eq_false hg) hsnippets
  refine ⟨Registry.fault?_eq_none hg hfilters forest, Node.misplacedIn?_eq_none g filters forest,
    hform.sorted, ?_, hcount⟩
  intro m hm
  obtain ⟨hnonneg, hle⟩ := hform.inRange m hm
  obtain ⟨⟨hname, hattributes⟩, hselection⟩ := hform.names m hm
  exact ⟨hnonneg, hle, hname, hattributes, hselection⟩

/-- A snippet with a tab stop of its own, in which attributes, wrapped text and a literal text
go. -/
def sampleForest : List Node :=
  [⟨.element "b".toList [⟨"x".toList, []⟩] (some "<b$ATTRS$>$x$$SELECTION$".toList), 0, none,
    some "1. w".toList, [⟨.literal, 0, some "<".toList, none, []⟩]⟩]

/-- In the sample, the tab stop of the attribute is told apart from that of the snippet, and the
caret is that of the literal text. -/
theorem wellFormed_assemble_sampleForest :
    Generator.ofDialect {} .html ∈ (Registry.ofProfile {}).generators ∧
      (∀ f ∈ [Filter.trim], ∃ p, f ∈ (Registry.ofProfile p).filters) ∧
      (∀ node ∈ Node.preorder sampleForest, ∀ source ∈ node.kind.snippet?,
        (Fragment.ofSource source).endCount ≤ 1) ∧
      ((Generator.ofDialect {} .html).assemble [.trim] sampleForest).value.markers.countP
        (fun m => m.name = Marker.endName) = 1 ∧
      ((Generator.ofDialect {} .html).assemble [.trim] sampleForest).value =
        ⟨⟨"<b x=\"\">w<".toList,
          [⟨"x2".toList, 6⟩, ⟨"END".toList, 10⟩, ⟨"x".toList, 10⟩]⟩, some 10⟩ := by
  have hg : Generator.ofDialect {} .html ∈ (Registry.ofProfile {}).generators :=
    List.mem_cons_self
  have hfilters : ∀ f ∈ [Filter.trim], ∃ p, f ∈ (Registry.ofProfile p).filters := by
    intro f hf
    obtain rfl := List.mem_singleton.1 hf
    exact ⟨{}, List.mem_cons_of_mem _ (List.mem_cons_of_mem _ List.mem_cons_self)⟩
  have hsnippets : ∀ node ∈ Node.preorder sampleForest, ∀ source ∈ node.kind.snippet?,
      (Fragment.ofSource source).endCount ≤ 1 := by
    have hsource : (Fragment.ofSource "<b$ATTRS$>$x$$SELECTION$".toList).endCount = 0 := by
      decide +kernel
    have hall : (Node.preorder sampleForest).map (fun node => node.kind.snippet?) =
        [some "<b$ATTRS$>$x$$SELECTION$".toList, none] := rfl
    intro node hnode source hsome
    have hmem : node.kind.snippet? ∈ [some "<b$ATTRS$>$x$$SELECTION$".toList, none] := by
      rw [← hall]
      exact List.mem_map_of_mem hnode
    rw [Option.mem_def.1 hsome] at hmem
    obtain rfl : source = "<b$ATTRS$>$x$$SELECTION$".toList := by simpa using hmem
    omega
  obtain ⟨-, -, -, -, hcount⟩ := wellFormed_assemble {} hg hfilters hsnippets
  refine ⟨hg, hfilters, hsnippets, hcount, ?_⟩
  decide +kernel

end Generator

end Abbrev
