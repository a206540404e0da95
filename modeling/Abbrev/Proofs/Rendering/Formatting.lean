import Abbrev.Proofs.Forest.Outline
import Abbrev.Proofs.Registry.Members
import Abbrev.Proofs.Rendering.Templates

/-!
# Formatting changes layout only

A profile may ask for blocks on lines of their own. That puts in line breaks and indents, it pads
lines that have been laid out before, and it cuts pads off again; and whether it does so at some
place depends on what was laid out inside. If line breaks and indents are made of layout characters,
none of this is seen by a reader that skips them: the template has the same ink, and each marker and
the caret have the same ink before them (`Generator.assemble_format`).

Skipping layout is a rewriting of characters, one that leaves some of them out. A pad is rewritten
to nothing, so an indented fragment is rewritten to what the fragment itself is rewritten to
(`Fragment.rewritten_ink_indent`). What is laid out is then just its parts, one after the other,
with or without formatting (`Generator.rewritten_ink_laidOut`), and what is put into a node needs to
be known no better than that (`Fragment.rewritten_insert_congr`).
-/

namespace Abbrev

open Fragment (InRange)

namespace Text

variable {t : Text}

/-- The characters that layout is made of. -/
def layoutChars : List Char :=
  [' ', '\t', '\r', '\n']

/-- What a reader sees of a character that skips layout. -/
def ink (c : Char) : Text :=
  if layoutChars.contains c then [] else [c]

/-- A text without its layout. -/
def withoutLayout (t : Text) : Text :=
  t.filter fun c => !layoutChars.contains c

/-- A text without its layout is its ink. -/
theorem flatMap_ink (t : Text) : t.flatMap ink = t.withoutLayout := by
  induction t with
  | nil => rfl
  | cons c t ih =>
    unfold withoutLayout at ih ⊢
    rw [List.flatMap_cons, List.filter_cons, ih, ink]
    cases layoutChars.contains c <;> rfl

/-- Layout has no ink. -/
theorem flatMap_ink_eq_nil (h : ∀ c ∈ t, c ∈ layoutChars) : t.flatMap ink = [] := by
  rw [flatMap_ink, withoutLayout, List.filter_eq_nil_iff]
  intro c hc
  simp [h c hc]

end Text

namespace Fragment

open Text (ink moved)

variable {f : Fragment} {pad : Text}

/-- The padding of lines is not seen. -/
theorem rewritten_ink_padded (h : InRange f) (hpad : pad.flatMap ink = []) :
    (f.mapText (Text.replaceChar '\n' ('\n' :: pad))).rewritten ink = f.rewritten ink := by
  have hmap : f.mapText (Text.replaceChar '\n' ('\n' :: pad)) =
      f.rewritten fun c => if c = '\n' then '\n' :: pad else [c] := mapText_flatMap h _
  rw [hmap, rewritten_rewritten h]
  congr 1
  funext c
  split
  · next hc =>
    rw [hc, List.flatMap_cons, hpad]
    rfl
  · exact List.flatMap_singleton ..

/-- It is not seen that a pad is cut off from an empty last line. -/
theorem rewritten_ink_trimmed (h : InRange f) (hpad : pad.flatMap ink = []) :
    (if ('\n' :: pad).isSuffixOf f.text then f.truncate (f.text.length - pad.length)
      else f).rewritten ink = f.rewritten ink := by
  split
  · next hend =>
    have hsuffix : pad <:+ f.text :=
      (List.suffix_cons '\n' pad).trans (List.isSuffixOf_iff_suffix.1 hend)
    obtain ⟨before, hbefore⟩ := hsuffix
    have hcut : f.text.length - pad.length = before.length := by
      rw [← hbefore, List.length_append, Nat.add_sub_cancel]
    have hink : (f.rewritten ink).text = before.flatMap ink := by
      rw [rewritten, ← hbefore, List.flatMap_append, hpad, List.append_nil]
    -- All that is left of the text stands before the cut.
    have hmoved : moved ink f.text before.length = (f.rewritten ink).text.length := by
      rw [Text.moved_natCast, hink, ← hbefore, List.take_left]
    rw [rewritten_truncate h, hcut, hmoved,
      (h.rewritten ink).truncate_of_le (Nat.le_refl _)]
  · rfl

/-- Indenting is not seen. -/
theorem rewritten_ink_indent (h : InRange f) (hpad : pad.flatMap ink = []) (firstLine : Bool) :
    (f.indent pad firstLine).rewritten ink = f.rewritten ink := by
  have hrange : InRange (f.mapText (Text.replaceChar '\n' ('\n' :: pad))) := inRange_mapText _ f
  unfold indent
  split
  · rfl
  dsimp only
  cases firstLine with
  | false =>
    rw [if_neg Bool.false_ne_true, rewritten_ink_trimmed hrange hpad, rewritten_ink_padded h hpad]
  | true =>
    rw [if_pos rfl, rewritten_surround (hrange.trimmed pad), hpad, List.flatMap_nil, surround_nil,
      rewritten_ink_trimmed hrange hpad, rewritten_ink_padded h hpad]

/-- Empty fragments between others are not seen. -/
theorem foldl_append_empty {start : Fragment} (hstart : InRange start) {steps : List Fragment}
    (h : ∀ step ∈ steps, InRange step) :
    (steps.flatMap fun step => [empty, step]).foldl append start = steps.foldl append start := by
  induction steps generalizing start with
  | nil => rfl
  | cons step rest ih =>
    obtain ⟨hstep, hrest⟩ := List.forall_mem_cons.1 h
    rw [List.flatMap_cons, List.foldl_append, List.foldl_cons, List.foldl_cons, List.foldl_nil,
      hstart.append_empty, ih (hstart.append hstep) hrest, List.foldl_cons]

end Fragment

namespace Generator

open Fragment
open Text (ink)

variable {g : Generator}

/-- The generator with formatting or without it. -/
def withFormat (g : Generator) (format : Bool) : Generator :=
  { g with profile := { g.profile with format } }

/-- The line breaks and indents of a generator are layout. -/
def LaysOut (g : Generator) : Prop :=
  ∀ c ∈ g.profile.indent ++ g.profile.newline, c ∈ Text.layoutChars

/-- Parts that are laid out are seen one after the other. -/
theorem rewritten_ink_laidOut (hlayout : g.LaysOut) {pieces : List Piece}
    (h : ∀ p ∈ pieces, InRange p.fragment) :
    (g.laidOut pieces).rewritten ink =
      (pieces.map fun p => p.fragment.rewritten ink).foldl append .empty := by
  have hindent : g.profile.indent.flatMap ink = [] :=
    Text.flatMap_ink_eq_nil fun c hc => hlayout c (List.mem_append_left _ hc)
  have hnewline : (Fragment.plain g.profile.newline).rewritten ink = .empty :=
    congrArg Fragment.plain
      (Text.flatMap_ink_eq_nil fun c hc => hlayout c (List.mem_append_right _ hc))
  have hparts : ∀ f ∈ pieces.map (fun p => p.fragment.rewritten ink), InRange f := by
    intro f hf
    obtain ⟨p, hp, rfl⟩ := List.mem_map.1 hf
    exact (h p hp).rewritten ink
  unfold laidOut
  rw [rewritten_foldl_append ink inRange_empty (g.inRange_layoutSteps h)]
  change (List.map _ _).foldl append .empty = _
  unfold layoutSteps
  dsimp only
  split
  · -- Before each part and at the end stands a line break, which is not seen.
    have hsteps : ((pieces.flatMap fun p =>
          [Fragment.plain g.profile.newline, p.fragment.indent g.profile.indent true]) ++
        [Fragment.plain g.profile.newline]).map (rewritten ink) =
          ((pieces.map fun p => p.fragment.rewritten ink).flatMap fun f => [empty, f]) ++
            [empty] := by
      rw [List.map_append, List.map_flatMap, List.flatMap_map, List.map_singleton, hnewline]
      congr 1
      refine List.flatMap_congr ?_
      intro p hp
      rw [List.map_cons, List.map_singleton, hnewline, rewritten_ink_indent (h p hp) hindent]
    rw [hsteps, List.foldl_append, List.foldl_cons, List.foldl_nil,
      foldl_append_empty inRange_empty hparts,
      (inRange_foldl_append inRange_empty hparts).append_empty]
  · rw [List.map_map]
    rfl

/-- Children that follow their node are seen there, whatever indents them. -/
theorem rewritten_ink_foldl_indent {own : Fragment} (hown : InRange own)
    {children : List (Bool × Fragment)} (h : ∀ child ∈ children, InRange child.2) :
    (children.foldl (fun host child => host.append (child.2.indent hamlIndent true)) own).rewritten
        ink =
      (children.map fun child => child.2.rewritten ink).foldl append (own.rewritten ink) := by
  have hsteps : ∀ step ∈ children.map fun child => child.2.indent hamlIndent true,
      InRange step := by
    intro step hstep
    obtain ⟨child, hchild, rfl⟩ := List.mem_map.1 hstep
    exact (h child hchild).indent _ _
  have hink : (children.map fun child => child.2.indent hamlIndent true).map (rewritten ink) =
      children.map fun child => child.2.rewritten ink := by
    rw [List.map_map]
    refine List.map_congr_left ?_
    intro child hchild
    exact rewritten_ink_indent (h child hchild) (by decide) true
  rw [← hink, ← rewritten_foldl_append ink hown hsteps, List.foldl_map]

/-- What is seen of a node with its contents is the same with formatting and without it, if that is
so of its children. -/
theorem rewritten_ink_filled (hlayout : g.LaysOut) (format : Bool) {own : Fragment}
    (hown : InRange own) (node : Node) {children others : List (Bool × Fragment)}
    (hchildren : ∀ child ∈ children, InRange child.2)
    (hothers : ∀ child ∈ others, InRange child.2)
    (h : others.map (fun child => child.2.rewritten ink) =
      children.map fun child => child.2.rewritten ink) :
    ((g.withFormat format).filled own node others).rewritten ink =
      (g.filled own node children).rewritten ink := by
  have hlayout' : (g.withFormat format).LaysOut := hlayout
  have hdialect : (g.withFormat format).dialect = g.dialect := rfl
  have hbase := inRange_placeTexts hown node
  have hpieces := inRange_pieces own node hchildren
  have hpieces' := inRange_pieces own node hothers
  -- Texts and children are seen as the same parts, so there are as many of them.
  have hsame : ((placeTexts own node).2 ++ others.map childPiece).map
        (fun p => p.fragment.rewritten ink) =
      ((placeTexts own node).2 ++ children.map childPiece).map
        fun p => p.fragment.rewritten ink := by
    rw [List.map_append, List.map_append, List.map_map, List.map_map]
    exact congrArg (_ ++ ·) h
  unfold filled
  rw [hdialect]
  split
  · rw [rewritten_ink_foldl_indent hown hothers, rewritten_ink_foldl_indent hown hchildren, h]
  · dsimp only
    generalize (placeTexts own node).2 ++ children.map childPiece = pieces at hpieces hsame
    generalize (placeTexts own node).2 ++ others.map childPiece = pieces' at hpieces' hsame
    cases pieces with
    | nil =>
      obtain rfl := List.map_eq_nil_iff.1 hsame
      rfl
    | cons piece rest =>
      cases pieces' with
      | nil => cases hsame
      | cons piece' rest' =>
        have hlaid : ((g.withFormat format).laidOut (piece' :: rest')).rewritten ink =
            (g.laidOut (piece :: rest)).rewritten ink := by
          rw [rewritten_ink_laidOut hlayout hpieces, rewritten_ink_laidOut hlayout' hpieces', hsame]
        exact rewritten_insert_congr hbase (inRange_laidOut _ hpieces') (inRange_laidOut _ hpieces)
          hlaid (contentPlace_le hbase)

end Generator

/-- What is seen of each node of a forest is the same with formatting and without it. -/
theorem Node.rewritten_ink_writtenAll {g : Generator} (hlayout : g.LaysOut) (format : Bool)
    (filters : List Filter) (forest : List Node) :
    (Node.writtenAll (g.withFormat format) filters forest).map
        (fun child => child.2.rewritten Text.ink) =
      (Node.writtenAll g filters forest).map fun child => child.2.rewritten Text.ink := by
  induction forest using Node.forest_induction with
  | nil => rfl
  | cons node rest ihChildren ihRest =>
    -- What is written for the node itself does not depend on the layout.
    have hfinished : (g.withFormat format).finished filters node = g.finished filters node := rfl
    have hown : InRange (g.finished filters node) :=
      Filter.inRange_finishAll filters _ (g.inRange_ownFragment _)
    rw [Node.writtenAll_cons, Node.writtenAll_cons, List.map_cons, List.map_cons, ihRest, hfinished]
    dsimp only
    rw [Generator.rewritten_ink_filled hlayout format hown _
      (Node.inRange_writtenAll g filters node.children) (Node.inRange_writtenAll _ _ _) ihChildren]

namespace Generator

/-- What is seen of a template is the same with formatting and without it. -/
theorem rewritten_ink_assemble {g : Generator} (hlayout : g.LaysOut) (format : Bool)
    (filters : List Filter) (forest : List Node) :
    ((g.withFormat format).assemble filters forest).value.rewritten Text.ink =
      (g.assemble filters forest).value.rewritten Text.ink := by
  rw [rewritten_assemble, rewritten_assemble, Node.rewritten_ink_writtenAll hlayout]

/-- The generator of a dialect, with formatting or without it. -/
theorem withFormat_ofDialect (profile : Profile) (dialect : Dialect) (format : Bool) :
    (ofDialect profile dialect).withFormat format = ofDialect { profile with format } dialect := by
  cases dialect <;> rfl

/-- Templates that are seen as the same have the same text without layout, and the same names; and
each marker and the caret have as much before them that is not layout. -/
theorem of_rewritten_ink_eq {t u : Template} (h : t.rewritten Text.ink = u.rewritten Text.ink) :
    t.text.withoutLayout = u.text.withoutLayout ∧
      (t.markers.map fun m => (m.name, (Text.upTo m.offset t.text).withoutLayout.length)) =
        (u.markers.map fun m => (m.name, (Text.upTo m.offset u.text).withoutLayout.length)) ∧
      (t.endOffset.map fun o => (Text.upTo o t.text).withoutLayout.length) =
        u.endOffset.map fun o => (Text.upTo o u.text).withoutLayout.length := by
  have hcount (t : Text) (o : Int) :
      (Text.upTo o t).withoutLayout.length = ((Text.moved Text.ink t o : Nat) : Int).toNat := by
    rw [Int.toNat_natCast, Text.moved, Text.flatMap_ink]
  refine ⟨?_, ?_, ?_⟩
  · rw [← Text.flatMap_ink, ← Text.flatMap_ink]
    exact congrArg (·.text) h
  · have hmarkers := congrArg (fun t => t.markers.map fun m => (m.name, m.offset.toNat)) h
    simp only [Template.rewritten, Fragment.rewritten, List.map_map] at hmarkers
    simp only [hcount]
    exact hmarkers
  · have hcaret := congrArg (fun t => t.endOffset.map Int.toNat) h
    simp only [Template.rewritten, Option.map_map] at hcaret
    simp only [hcount]
    exact hcaret

/-- Formatting changes layout only. With filters of this library, in a profile whose line breaks and
indents are layout, a forest is written with formatting and without it, and the two templates are
the same text without layout. They have markers of the same names in the same order; and each of
those, and the caret, has as many characters before it that are not layout. -/
theorem assemble_format (profile : Profile)
    (hlayout : ∀ c ∈ profile.indent ++ profile.newline, c ∈ Text.layoutChars) {dialect : Dialect}
    (hdialect : dialect ≠ .textual) {filters : List Filter}
    (hfilters : ∀ f ∈ filters, ∃ p, f ∈ (Registry.ofProfile p).filters) (forest : List Node) :
    (∀ format,
      (ofDialect { profile with format } dialect).fault? filters forest = none ∧
        Node.misplacedIn? (ofDialect { profile with format } dialect) filters forest = none) ∧
      let t := ((ofDialect { profile with format := true } dialect).assemble filters forest).value
      let u := ((ofDialect { profile with format := false } dialect).assemble filters forest).value
      t.text.withoutLayout = u.text.withoutLayout ∧
        (t.markers.map fun m => (m.name, (Text.upTo m.offset t.text).withoutLayout.length)) =
          (u.markers.map fun m => (m.name, (Text.upTo m.offset u.text).withoutLayout.length)) ∧
        (t.endOffset.map fun o => (Text.upTo o t.text).withoutLayout.length) =
          u.endOffset.map fun o => (Text.upTo o u.text).withoutLayout.length := by
  constructor
  · intro format
    have hg : ofDialect { profile with format } dialect ∈
        (Registry.ofProfile { profile with format }).generators :=
      Registry.mem_generators_iff.2 ⟨dialect, hdialect, rfl⟩
    exact ⟨Registry.fault?_eq_none hg hfilters forest, Node.misplacedIn?_eq_none _ filters forest⟩
  · have hbase : (ofDialect profile dialect).LaysOut := by cases dialect <;> exact hlayout
    refine of_rewritten_ink_eq ?_
    rw [← withFormat_ofDialect profile dialect true, ← withFormat_ofDialect profile dialect false,
      rewritten_ink_assemble hbase, rewritten_ink_assemble hbase]

/-- A list with an item that holds two lines of text and a tab stop. -/
def sampleList : List Node :=
  [⟨.element "ul".toList [] none, 0, none, none,
    [⟨.element "li".toList [⟨"id".toList, []⟩] none, 0, some "a\nb".toList, none, []⟩]⟩]

/-- The sample is written on six lines with formatting, and still the tab stop has eleven characters
before it that are not layout, and the caret has fifteen. -/
theorem assemble_format_sampleList :
    (∀ c ∈ ({} : Profile).indent ++ ({} : Profile).newline, c ∈ Text.layoutChars) ∧
      (∀ f ∈ [Filter.trim], ∃ p, f ∈ (Registry.ofProfile p).filters) ∧
      let t := ((ofDialect { format := true } .html).assemble [.trim] sampleList).value
      t.text.withoutLayout = "<ul><liid=\"\">ab</li></ul>".toList ∧
        (t.markers.map fun m => (m.name, (Text.upTo m.offset t.text).withoutLayout.length)) =
          [("id".toList, 11), ("END".toList, 15)] ∧
        (t.endOffset.map fun o => (Text.upTo o t.text).withoutLayout.length) = some 15 := by
  have hlayout : ∀ c ∈ ({} : Profile).indent ++ ({} : Profile).newline, c ∈ Text.layoutChars := by
    have hboth : ({} : Profile).indent ++ ({} : Profile).newline = ['\t', '\n'] := rfl
    simp [hboth, Text.layoutChars]
  have hfilters : ∀ f ∈ [Filter.trim], ∃ p, f ∈ (Registry.ofProfile p).filters := by
    intro f hf
    obtain rfl := List.mem_singleton.1 hf
    exact ⟨{}, List.mem_cons_of_mem _ (List.mem_cons_of_mem _ List.mem_cons_self)⟩
  obtain ⟨-, htext, hmarkers, hcaret⟩ :=
    assemble_format {} hlayout (by decide : Dialect.html ≠ .textual) hfilters sampleList
  refine ⟨hlayout, hfilters, htext.trans ?_, hmarkers.trans ?_, hcaret.trans ?_⟩
  · decide +kernel
  · decide +kernel
  · decide +kernel

end Generator

end Abbrev
