import Abbrev.Proofs.Registry.Members
import Abbrev.Proofs.Rendering.Markup

/-!
# The caret lands inside the last leaf

Each node is written with a caret of its own, and a caret that is put in replaces the one that was
there. Children are put in at the caret of their node, from the first to the last one, so the caret
that is left is the one of the last child, and in turn of its last child. What stands behind it are
the closing tags on the way back out (`Node.caretBefore_writtenAll`).

A template keeps two carets: that of the node written last, as a marker
(`Generator.caretBefore_assemble`), and that of the node written first, as its end offset. Nothing
that follows changes the text of the first node, so the second one has its closing tags behind it as
well (`Generator.endOffset_assemble`). `Generator.caret_assemble` is about both.
-/

namespace Abbrev

/-! ## Chains of last children -/

mutual

/-- A node, its last child, the last child of that one, and so on. -/
def Node.lastChain : Node → List Node
  | ⟨kind, index, text, wrapped, children⟩ =>
    ⟨kind, index, text, wrapped, children⟩ :: Node.lastChainIn children

/-- The last node of a forest, its last child, and so on. -/
def Node.lastChainIn : List Node → List Node
  | [] => []
  | [node] => node.lastChain
  | _ :: next :: rest => Node.lastChainIn (next :: rest)

end

/-- The chain of a node goes on with its children. -/
theorem Node.lastChain_eq (node : Node) :
    node.lastChain = node :: Node.lastChainIn node.children := by
  obtain ⟨kind, index, text, wrapped, children⟩ := node
  rw [Node.lastChain]

namespace Generator

/-- The tag that closes an element. A lone tag and a literal text have none. -/
def closingTag (g : Generator) (node : Node) : Text :=
  match node.kind with
  | .element key _ _ =>
    if g.WritesLone key node.text node.wrapped node.children then []
    else '<' :: '/' :: key ++ ['>']
  | .literal => []

/-- The tags that close the nodes of a chain, from the innermost one on. -/
def closingTags (g : Generator) (chain : List Node) : Text :=
  chain.reverse.flatMap g.closingTag

/-- A node is closed behind the nodes inside it. -/
theorem closingTags_cons (g : Generator) (node : Node) (chain : List Node) :
    g.closingTags (node :: chain) = g.closingTags chain ++ g.closingTag node := by
  rw [closingTags, List.reverse_cons, List.flatMap_append, List.flatMap_singleton]
  rfl

end Generator

/-! ## The caret of joined fragments -/

namespace Fragment

/-- The markers `END` of a fragment. -/
def carets (f : Fragment) : List Marker :=
  f.markers.filter fun m => m.name = Marker.endName

/-- The fragment has one caret, and `after` is the text behind it. -/
def CaretBefore (f : Fragment) (after : Text) : Prop :=
  ∃ before, f.text = before ++ after ∧ f.carets = [⟨Marker.endName, before.length⟩]

variable {f host piece : Fragment} {after inner : Text}

/-- The place of contents is that of the only caret. -/
theorem place?_of_carets {n : Nat} (h : f.carets = [⟨Marker.endName, n⟩]) :
    f.place? Marker.endName = some n := by
  unfold place? offset?
  rw [← List.head?_filter, show f.markers.filter _ = _ from h]
  rfl

/-- The only caret is a place for contents. -/
theorem has_of_carets {n : Nat} (h : f.carets = [⟨Marker.endName, n⟩]) :
    f.has Marker.endName = true := by
  rw [has, place?_of_carets h]
  rfl

/-- Without carets there is no place for contents. -/
theorem has_of_carets_eq_nil (h : f.carets = []) : f.has Marker.endName = false := by
  unfold has place? offset?
  rw [← List.head?_filter, show f.markers.filter _ = _ from h]
  rfl

/-- The carets of a piece stay carets, whatever is renamed, and move with it. -/
theorem carets_inserted (host piece : Fragment) (offset : Nat) :
    (piece.markers.map fun m => (rename (host.renames piece) m).shift offset).filter
        (fun m => m.name = Marker.endName) = piece.carets.map (Marker.shift offset) := by
  have hreserved : Marker.isReserved Marker.endName = true := by decide
  have hname : ((fun m : Marker => decide (m.name = Marker.endName)) ∘
      fun m => (rename (host.renames piece) m).shift offset) =
        fun m => decide (m.name = Marker.endName) := by
    funext m
    simp only [Function.comp_apply, Marker.shift, name_rename, newName_eq_iff hreserved]
  rw [List.filter_map, hname]
  refine List.map_congr_left ?_
  intro m hm
  have hend : m.name = Marker.endName := of_decide_eq_true (List.mem_filter.1 hm).2
  rw [Marker.shift, name_rename, hend, newName_of_isReserved hreserved, Marker.shift, hend]
  rfl

/-- The caret of a piece replaces those of its host. -/
theorem carets_splice_of_has (h : piece.has Marker.endName = true) (host : Fragment) (offset : Nat)
    (moves : Marker → Bool) :
    (host.splice offset piece moves).carets = piece.carets.map (Marker.shift offset) := by
  -- The host has lost its carets to the piece, those that stay in place and those that move.
  have hnone (p : Marker → Bool) : ((host.remaining piece).filter p).filter
      (fun m => m.name = Marker.endName) = [] := by
    rw [remaining, if_pos h, List.filter_eq_nil_iff]
    intro m hm
    have hkept := (List.mem_filter.1 (List.mem_filter.1 hm).1).2
    simpa using hkept
  have hmoved : (((host.remaining piece).filter moves).map
      (Marker.shift piece.text.length)).filter (fun m => m.name = Marker.endName) = [] := by
    rw [List.filter_map, List.map_eq_nil_iff]
    exact hnone moves
  unfold splice carets
  dsimp only
  rw [List.filter_append, List.filter_append, hnone, hmoved, carets_inserted, List.nil_append,
    List.append_nil]
  rfl

/-- A piece without a caret leaves its host those that it has, and moves them if it moves what
stands there. -/
theorem carets_splice_of_eq_nil (h : piece.carets = []) (host : Fragment) (offset : Nat)
    (moves : Marker → Bool) :
    (host.splice offset piece moves).carets =
      host.carets.filter (fun m => !moves m) ++
        (host.carets.filter moves).map (Marker.shift piece.text.length) := by
  have hkept : host.remaining piece = host.markers := by
    rw [remaining, if_neg (by rw [has_of_carets_eq_nil h]; decide)]
  have hfilter (p : Marker → Bool) : (host.markers.filter p).filter
      (fun m => m.name = Marker.endName) = host.carets.filter p := by
    rw [carets, List.filter_filter, List.filter_filter]
    exact List.filter_congr fun m _ => Bool.and_comm _ _
  have hshift : (fun m : Marker => decide (m.name = Marker.endName)) ∘
      Marker.shift piece.text.length = fun m => decide (m.name = Marker.endName) := rfl
  unfold splice
  rw [carets]
  dsimp only
  rw [List.filter_append, List.filter_append, hkept, hfilter, carets_inserted, h,
    List.filter_map, hshift, hfilter, List.map_nil, List.append_nil]

/-- A piece with a caret, at the caret of its host. -/
theorem CaretBefore.insert (hhost : host.CaretBefore after) (hpiece : piece.CaretBefore inner) :
    (host.insert (host.text.length - after.length) piece).CaretBefore (inner ++ after) := by
  obtain ⟨before, htext, -⟩ := hhost
  obtain ⟨start, hinner, hcaret⟩ := hpiece
  have hoffset : host.text.length - after.length = before.length := by
    rw [htext, List.length_append, Nat.add_sub_cancel]
  refine ⟨before ++ start, ?_, ?_⟩
  · rw [hoffset, Fragment.insert, splice, htext, hinner, List.take_left, List.drop_left]
    simp only [List.append_assoc]
  · rw [hoffset, Fragment.insert, carets_splice_of_has (has_of_carets hcaret), hcaret,
      List.map_singleton, Marker.shift, List.length_append, Int.natCast_add, Int.add_comm]

/-- A piece without a caret, at the caret of its host. -/
theorem CaretBefore.insert_of_eq_nil (hhost : host.CaretBefore after) (hpiece : piece.carets = []) :
    (host.insert (host.text.length - after.length) piece).CaretBefore after := by
  obtain ⟨before, htext, hcaret⟩ := hhost
  have hoffset : host.text.length - after.length = before.length := by
    rw [htext, List.length_append, Nat.add_sub_cancel]
  refine ⟨before ++ piece.text, ?_, ?_⟩
  · rw [hoffset, Fragment.insert, splice, htext, List.take_left, List.drop_left]
  · -- The caret of the host stands where the piece goes, and moves behind it.
    rw [hoffset, Fragment.insert, carets_splice_of_eq_nil hpiece, hcaret, List.length_append,
      Int.natCast_add]
    simp [Marker.shift]

/-- A piece with a caret, behind another fragment. -/
theorem CaretBefore.append (hpiece : piece.CaretBefore inner) (host : Fragment) :
    (host.append piece).CaretBefore inner := by
  obtain ⟨start, hinner, hcaret⟩ := hpiece
  refine ⟨host.text ++ start, ?_, ?_⟩
  · rw [text_append, hinner, List.append_assoc]
  · rw [Fragment.append, carets_splice_of_has (has_of_carets hcaret), hcaret, List.map_singleton,
      Marker.shift, List.length_append, Int.natCast_add, Int.add_comm]

/-- The place for contents, counted from the end. -/
theorem length_around_sub (f : Fragment) (after : Text) :
    (f.around after).text.length - after.length = f.text.length := by
  rw [text_around, List.length_append, Nat.add_sub_cancel]

/-- A place for contents between tab stops is the only caret. -/
theorem OnlyTabStops.caretBefore_around (h : OnlyTabStops f) (after : Text) :
    (f.around after).CaretBefore after := by
  have hnone : f.markers.filter (fun m => m.name = Marker.endName) = [] := by
    rw [← List.length_eq_zero_iff, ← List.countP_eq_length_filter]
    exact h.endCount
  refine ⟨f.text, text_around f after, ?_⟩
  rw [carets, markers_around, List.filter_append, hnone]
  rfl

/-- Fragments without carets, one after the other. -/
theorem carets_foldl_append {start : Fragment} (hstart : start.carets = [])
    {steps : List Fragment} (h : ∀ step ∈ steps, step.carets = []) :
    (steps.foldl Fragment.append start).carets = [] := by
  induction steps generalizing start with
  | nil => exact hstart
  | cons step rest ih =>
    obtain ⟨hstep, hrest⟩ := List.forall_mem_cons.1 h
    have happended : (start.append step).carets = [] := by
      rw [Fragment.append, carets_splice_of_eq_nil hstep, hstart]
      rfl
    exact ih happended hrest

end Fragment

open Fragment

variable {g : Generator} {node : Node} {forest : List Node}

namespace Generator

/-! ## Nodes with their contents -/

/-- Texts have no caret, so a node without children keeps its own. -/
theorem caretBefore_filled_nil (hdialect : g.dialect ≠ .haml) (hformat : g.profile.format = false)
    {f : Fragment} (h : OnlyTabStops f) (after : Text) (node : Node) :
    (g.filled (f.around after) node []).CaretBefore after := by
  have htext (t : Option Text) : ∀ p ∈ Piece.ofText? t, p.fragment.carets = [] := by
    intro p hp
    cases t with
    | none => cases hp
    | some t =>
      obtain rfl := List.mem_singleton.1 hp
      rfl
  have hcontents : ∀ p ∈ contents node [], p.fragment.carets = [] := by
    intro p hp
    rw [contents, List.map_nil, List.append_nil] at hp
    rcases List.mem_append.1 hp with hp | hp
    · exact htext _ p hp
    · exact htext _ p hp
  have hlaidOut : (g.laidOut (contents node [])).carets = [] := by
    rw [laidOut, layoutSteps_eq_map hformat]
    exact carets_foldl_append rfl (List.forall_mem_map.2 hcontents)
  rw [filled_around hdialect h]
  split
  · exact h.caretBefore_around after
  · rw [← length_around_sub f after]
    exact (h.caretBefore_around after).insert_of_eq_nil hlaidOut

/-- The last child brings its caret, and keeps the text behind it. -/
theorem caretBefore_filled_concat (hdialect : g.dialect ≠ .haml)
    (hformat : g.profile.format = false) {f : Fragment} (h : OnlyTabStops f) (after : Text)
    (node : Node) (children : List (Bool × Fragment)) {last : Bool × Fragment} {inner : Text}
    (hlast : last.2.CaretBefore inner) :
    (g.filled (f.around after) node (children ++ [last])).CaretBefore (inner ++ after) := by
  have hcontents : contents node (children ++ [last]) =
      contents node children ++ [childPiece last] := by
    rw [contents, List.map_append, ← List.append_assoc]
    rfl
  have hlaidOut : (g.laidOut (contents node (children ++ [last]))).CaretBefore inner := by
    rw [laidOut, layoutSteps_eq_map hformat, hcontents, List.map_append, List.foldl_append]
    exact hlast.append _
  rw [filled_around hdialect h, if_neg (by rw [hcontents]; simp), ← length_around_sub f after]
  exact (h.caretBefore_around after).insert hlaidOut

/-- What is written for a node itself has the place for contents before its closing tag. -/
theorem exists_finished_eq_around (htags : g.WritesTags) (hplain : node.Plain) :
    ∃ f, g.finished [] node = f.around (g.closingTag node) ∧ OnlyTabStops f := by
  have hsnippet := hplain.snippet
  have hnames := hplain.names
  unfold closingTag
  cases hkind : node.kind with
  | literal => exact ⟨_, ownFragment_literal htags hkind, onlyTabStops_plain _⟩
  | element key attributes snippet =>
    rw [hkind] at hsnippet hnames
    obtain rfl : snippet = none := hsnippet
    obtain ⟨f, after, hown, htabs, htext⟩ := Node.exists_finished_eq_around htags hkind hnames
    refine ⟨f, ?_, htabs⟩
    dsimp only at htext ⊢
    rw [hown]
    split
    · next hlone =>
      rw [if_pos hlone] at htext
      rw [htext.2]
    · next hlone =>
      rw [if_neg hlone] at htext
      rw [htext.2]

/-- If what is written for each node of a forest has its caret before the closing tags of its chain,
what is written last has it before those of the chain of the forest. -/
theorem exists_last_caretBefore {written : List (Bool × Fragment)}
    (h : List.Forall₂ (fun node child => child.2.CaretBefore (g.closingTags node.lastChain)) forest
      written) (hne : forest ≠ []) :
    ∃ before last, written = before ++ [last] ∧
      last.2.CaretBefore (g.closingTags (Node.lastChainIn forest)) := by
  induction h with
  | nil => exact absurd rfl hne
  | @cons node child rest more hnode hrest ih =>
    cases rest with
    | nil =>
      cases hrest
      exact ⟨[], child, rfl, hnode⟩
    | cons next rest =>
      obtain ⟨before, last, rfl, hlast⟩ := ih (List.cons_ne_nil _ _)
      exact ⟨child :: before, last, rfl, hlast⟩

/-- What is written for each node of a forest has its caret before the closing tags of the chain of
last children that begins with the node. -/
theorem caretBefore_writtenAll (htags : g.WritesTags) (hformat : g.profile.format = false)
    (hplain : Node.Everywhere Node.Plain forest) :
    List.Forall₂ (fun node child => child.2.CaretBefore (g.closingTags node.lastChain)) forest
      (Node.writtenAll g [] forest) := by
  induction forest using Node.forest_induction with
  | nil => exact .nil
  | cons node rest ihChildren ihRest =>
    obtain ⟨hown, hinside, hbehind⟩ := Node.everywhere_cons.1 hplain
    obtain ⟨f, hfinished, htabs⟩ := exists_finished_eq_around htags hown
    rw [Node.writtenAll_cons]
    refine .cons ?_ (ihRest hbehind)
    show (g.filled (g.finished [] node) node _).CaretBefore _
    rw [hfinished, Node.lastChain_eq, closingTags_cons]
    -- The caret of the node stays if it has no children, or else the last child brings another.
    by_cases hchildren : node.children = []
    · rw [hchildren]
      exact caretBefore_filled_nil htags.ne_haml hformat htabs _ node
    · obtain ⟨before, last, hwritten, hlast⟩ :=
        exists_last_caretBefore (ihChildren hinside) hchildren
      rw [hwritten]
      exact caretBefore_filled_concat htags.ne_haml hformat htabs _ node before hlast

end Generator

/-! ## Templates -/

/-- The end offset of a template stays that of what was written first. -/
theorem Template.endOffset_foldl_add {t : Template} {offset : Int} (h : t.endOffset = some offset)
    (written : List (Bool × Fragment)) :
    (written.foldl (fun t child => t.add child.2) t).endOffset = some offset := by
  induction written generalizing t with
  | nil => exact h
  | cons child rest ih =>
    refine ih ?_
    show (t.endOffset <|> _) = some offset
    rw [h]
    rfl

namespace Generator

/-- Nodes written as tags are refused for nothing. -/
theorem WritesTags.fault?_eq_none (htags : g.WritesTags) (forest : List Node) :
    g.fault? [] forest = none := by
  refine Generator.fault?_eq_none ?_ (List.forall_mem_nil _) _
  rcases htags with h | h <;> rw [h] <;> decide

/-- The node written last brings the caret of the template. -/
theorem caretBefore_assemble (htags : g.WritesTags) (hformat : g.profile.format = false)
    (hplain : Node.Everywhere Node.Plain forest) (hne : forest ≠ []) :
    (g.assemble [] forest).value.toFragment.CaretBefore
      (g.closingTags (Node.lastChainIn forest)) := by
  obtain ⟨before, last, hwritten, hlast⟩ :=
    exists_last_caretBefore (caretBefore_writtenAll htags hformat hplain) hne
  rw [value_assemble, Template.toFragment_foldl_add, hwritten, List.map_append, List.foldl_append]
  exact hlast.append _

/-- The node written first stands at the start of the text, and its caret is the end offset. -/
theorem endOffset_assemble (htags : g.WritesTags) (hformat : g.profile.format = false)
    {first : Node} {rest : List Node} (hplain : Node.Everywhere Node.Plain (first :: rest)) :
    let template := (g.assemble [] (first :: rest)).value
    let shown := (first.render g []).value.text
    ∃ offset : Nat, template.endOffset = some (offset : Int) ∧ offset ≤ shown.length ∧
      (template.text.take shown.length).drop offset = g.closingTags first.lastChain := by
  intro template shown
  have hcons : Node.writtenAll g [] (first :: rest) =
      (g.isBlock first.kind, (first.render g []).value) :: Node.writtenAll g [] rest := by
    rw [Node.writtenAll, Node.renderAll]
    rfl
  have hwritten := caretBefore_writtenAll htags hformat hplain
  rw [hcons] at hwritten
  obtain ⟨start, hshown, hcarets⟩ := (List.forall₂_cons.1 hwritten).1
  have htemplate : template = _ := g.value_assemble [] (first :: rest)
  rw [hcons] at htemplate
  have htext : template.text =
      shown ++ (Node.writtenAll g [] rest).flatMap fun child => child.2.text := by
    rw [htemplate, Template.toFragment_foldl_add, text_foldl_append, List.map_cons,
      List.flatMap_cons, List.flatMap_map]
    rfl
  refine ⟨start.length, ?_, ?_, ?_⟩
  · rw [htemplate, List.foldl_cons]
    refine Template.endOffset_foldl_add ?_ _
    show (none <|> (insertedEnd? 0 (first.render g []).value).map Int.ofNat) = _
    rw [insertedEnd?, place?_of_carets hcarets]
    rfl
  · rw [show shown = _ from hshown, List.length_append]
    exact Nat.le_add_right _ _
  · rw [htext, List.take_left, show shown = _ from hshown, List.drop_left]

/-- Without formatting and filters, the caret of a template lands inside the last leaf, if there is
a node, elements have no snippets, and attributes without values have names in ASCII. Nothing is
refused and nothing has no place. There is one caret, and the text behind it are the closing tags of
the last node, its last child, and so on, from the innermost one on. The end offset stands in what
is written for the first node, and what follows it there are the closing tags of that node, its last
child, and so on. -/
theorem caret_assemble {profile : Profile} (hformat : profile.format = false)
    {dialect : Dialect} (hdialect : dialect = .html ∨ dialect = .xml) {first : Node}
    {rest : List Node} (hplain : Node.Everywhere Node.Plain (first :: rest)) :
    let g := Generator.ofDialect profile dialect
    let template := (g.assemble [] (first :: rest)).value
    let shown := (first.render g []).value.text
    g.fault? [] (first :: rest) = none ∧ Node.misplacedIn? g [] (first :: rest) = none ∧
      (∃ caret : Nat,
        template.markers.filter (fun m => m.name = Marker.endName) =
            [⟨Marker.endName, caret⟩] ∧
          caret ≤ template.text.length ∧
          template.text.drop caret = g.closingTags (Node.lastChainIn (first :: rest))) ∧
      ∃ offset : Nat, template.endOffset = some (offset : Int) ∧ offset ≤ shown.length ∧
        (template.text.take shown.length).drop offset = g.closingTags first.lastChain := by
  intro g template shown
  have htags : g.WritesTags := by
    rcases hdialect with rfl | rfl
    · exact .inl rfl
    · exact .inr rfl
  have hunformatted : g.profile.format = false := by
    rcases hdialect with rfl | rfl <;> exact hformat
  obtain ⟨start, htext, hcarets⟩ :=
    caretBefore_assemble htags hunformatted hplain (List.cons_ne_nil _ _)
  refine ⟨htags.fault?_eq_none _, Node.misplacedIn?_eq_none g [] _,
    ⟨start.length, hcarets, ?_, ?_⟩, endOffset_assemble htags hunformatted hplain⟩
  · show _ ≤ template.toFragment.text.length
    rw [htext, List.length_append]
    exact Nat.le_add_right _ _
  · show template.toFragment.text.drop _ = _
    rw [htext, List.drop_left]

/-- A list that ends in a line break, and a box around a literal text with an element inside. -/
def sampleLeaves : List Node :=
  [⟨.element "ul".toList [⟨"id".toList, []⟩] none, 0, none, none,
      [⟨.element "li".toList [] none, 0, some "a".toList, none, []⟩,
        ⟨.element "br".toList [] none, 0, none, none, []⟩]⟩,
    ⟨.element "div".toList [] none, 0, none, none,
      [⟨.literal, 0, some "b".toList, none,
        [⟨.element "i".toList [] none, 0, some "c".toList, some "d".toList, []⟩]⟩]⟩]

/-- In the sample, the caret stands in the innermost element of the box, and the end offset behind
the line break. -/
theorem caret_assemble_sampleLeaves :
    ({ format := false } : Profile).format = false ∧ (Dialect.html = .html ∨ Dialect.html = .xml) ∧
      Node.Everywhere Node.Plain sampleLeaves ∧
      let g := Generator.ofDialect { format := false } .html
      let template := (g.assemble [] sampleLeaves).value
      template.text = "<ul id=\"\"><li>a</li><br></ul><div>b<i>cd</i></div>".toList ∧
        (∃ caret : Nat, template.markers.filter (fun m => m.name = Marker.endName) =
            [⟨Marker.endName, caret⟩] ∧ template.text.drop caret = "</i></div>".toList) ∧
        ∃ offset : Nat, template.endOffset = some (offset : Int) ∧
          (template.text.take "<ul id=\"\"><li>a</li><br></ul>".toList.length).drop offset =
            "</ul>".toList := by
  have hformat : ({ format := false } : Profile).format = false := rfl
  have hsimple (key : Text) (text wrapped : Option Text) (children : List Node) :
      Node.Plain ⟨.element key [] none, 0, text, wrapped, children⟩ :=
    ⟨rfl, List.forall_mem_nil _⟩
  have hplain : Node.Everywhere Node.Plain sampleLeaves := by
    refine .cons ⟨rfl, fun a ha _ => ?_⟩ (.cons (hsimple _ _ _ _) .nil
      (.cons (hsimple _ _ _ _) .nil .nil)) (.cons (hsimple _ _ _ _) (.cons
        ⟨rfl, List.forall_mem_nil _⟩ (.cons (hsimple _ _ _ _) .nil .nil) .nil) .nil)
    obtain rfl := List.mem_singleton.1 ha
    simp
  obtain ⟨-, -, ⟨caret, hcaret, -, hbehind⟩, offset, hoffset, -, hinside⟩ :=
    caret_assemble hformat (.inl rfl) hplain
  refine ⟨hformat, .inl rfl, hplain, ?_, ⟨caret, hcaret, hbehind.trans ?_⟩, offset, hoffset, ?_⟩
  · decide +kernel
  · decide
  · have hshown : (Node.render (Generator.ofDialect { format := false } .html) []
        (sampleLeaves.head (by decide))).value.text =
          "<ul id=\"\"><li>a</li><br></ul>".toList := by decide +kernel
    rw [← hshown]
    refine hinside.trans ?_
    decide

end Generator

end Abbrev
