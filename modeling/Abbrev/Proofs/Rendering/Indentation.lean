import Abbrev.Proofs.Fragment.Indent
import Abbrev.Proofs.Registry.Members
import Abbrev.Proofs.Rendering.Markup

/-!
# Elements are indented as deep as they are nested

In XML all elements are blocks, so with formatting each child of an element stands on a line of its
own. What is written for a child gets one indent there, and one more each time that the element
around it is put into another one. So nothing is ever written at its depth at once, and the fact to
be shown is about one level: what stands at a depth, with an indent behind each of its line breaks,
is what stands one level deeper (`Node.replaceChar_indentedLines`). The line on which a child begins
is indented apart from that, as there is no line break before it yet.

An element ends in its tag and not in a line break, so no pad is ever taken away from its end.
-/

namespace Abbrev

open Fragment (OnlyTabStops InRange)

/-! ## Elements on lines -/

namespace NodeKind

/-- The tag before the contents of an element. -/
def startTag (quote : Quote) : NodeKind → Text
  | element key attributes _ => '<' :: key ++ attributes.flatMap (Attribute.markup quote) ++ ['>']
  | literal => []

/-- The tag behind the contents of an element. -/
def endTag : NodeKind → Text
  | element key _ _ => '<' :: '/' :: key ++ ['>']
  | literal => []

end NodeKind

/-- The start of a line at a depth, with the line break before it. -/
def Profile.lineStart (profile : Profile) (depth : Nat) : Text :=
  profile.newline ++ (List.replicate depth profile.indent).flatten

mutual

/-- An element at a depth. Its children stand on lines of their own between its tags, one level
deeper. -/
def Node.indented (profile : Profile) (depth : Nat) : Node → Text
  | ⟨kind, _, _, _, []⟩ => kind.startTag profile.quote ++ kind.endTag
  | ⟨kind, _, _, _, child :: more⟩ =>
    kind.startTag profile.quote ++ Node.indentedLines profile (depth + 1) (child :: more) ++
      profile.lineStart depth ++ kind.endTag

/-- Elements at a depth, each on a line of its own. -/
def Node.indentedLines (profile : Profile) (depth : Nat) : List Node → Text
  | [] => []
  | node :: rest =>
    profile.lineStart depth ++ node.indented profile depth ++ Node.indentedLines profile depth rest

end

/-- A node is an element without text and snippet, in whose tags there are no line breaks;
attributes without values have names in ASCII. -/
structure Node.BareElement (node : Node) : Prop extends Node.Plain node where
  element : node.kind.isLiteral = false
  text : node.text = none
  wrapped : node.wrapped = none
  line : node.kind.OneLine

/-- The line breaks of a profile are line feeds, with a carriage return before them or not, and its
indents are blanks. -/
structure Profile.Tidy (profile : Profile) : Prop where
  newline : profile.newline = ['\n'] ∨ profile.newline = ['\r', '\n']
  indent : ∀ c ∈ profile.indent, c = ' ' ∨ c = '\t'

variable {profile : Profile} {depth : Nat} {node : Node}

/-- An element with or without children. -/
theorem Node.indented_eq (profile : Profile) (depth : Nat) (node : Node) :
    node.indented profile depth =
      node.kind.startTag profile.quote ++
        (if node.children = [] then []
          else Node.indentedLines profile (depth + 1) node.children ++ profile.lineStart depth) ++
        node.kind.endTag := by
  obtain ⟨kind, index, text, wrapped, _ | ⟨child, more⟩⟩ := node
  · rw [Node.indented, if_pos rfl, List.append_nil]
  · rw [Node.indented, if_neg (List.cons_ne_nil _ _), List.append_assoc _ _ (profile.lineStart _)]

namespace Node.BareElement

/-- No line break is in an attribute as it is written in a tag. -/
theorem newline_notMem_markup (quote : Quote) {a : Attribute} (hname : '\n' ∉ a.name)
    (hvalue : '\n' ∉ a.value) : '\n' ∉ a.markup quote := by
  have hsign : quote.sign ≠ '\n' := by cases quote <;> decide
  have hentity : '\n' ∉ quote.entity := by cases quote <;> decide
  have hescaped : '\n' ∉ Text.replaceChar quote.sign quote.entity a.value :=
    Text.notMem_replaceChar hentity (.inr hvalue)
  rw [Attribute.markup, Quote.flatMap_enclosed]
  simp [hname, hescaped, hsign.symm]

/-- No line break is in a tag. -/
theorem newline_notMem_tags (h : node.BareElement) (quote : Quote) :
    '\n' ∉ node.kind.startTag quote ∧ '\n' ∉ node.kind.endTag := by
  have helement := h.element
  have hline := h.line
  cases hkind : node.kind with
  | literal =>
    rw [hkind] at helement
    cases helement
  | element key attributes snippet =>
    rw [hkind] at hline
    have hkey : '\n' ∉ key := hline.key key rfl
    have hmarkup : ∀ a ∈ attributes, '\n' ∉ a.markup quote := by
      intro a ha
      obtain ⟨hname, hvalue⟩ := hline.attributes a ha
      exact newline_notMem_markup quote hname hvalue
    constructor
    · simpa [NodeKind.startTag, hkey] using hmarkup
    · simp [NodeKind.endTag, hkey]

/-- An element does not end in a line break. -/
theorem indented_ne_concat (h : node.BareElement) (profile : Profile) (depth : Nat) (t : Text) :
    node.indented profile depth ≠ t ++ ['\n'] := by
  have helement := h.element
  rw [Node.indented_eq]
  cases hkind : node.kind with
  | literal =>
    rw [hkind] at helement
    cases helement
  | element key attributes snippet =>
    intro heq
    rw [NodeKind.endTag, ← List.append_assoc] at heq
    have hlast := List.append_inj_right' heq rfl
    exact absurd hlast (by decide)

end Node.BareElement

/-! ## One level deeper -/

/-- The start of a line with one more indent behind its line break. -/
theorem Profile.replaceChar_lineStart (h : profile.Tidy) (depth : Nat) :
    Text.replaceChar '\n' ('\n' :: profile.indent) (profile.lineStart depth) =
      profile.lineStart (depth + 1) := by
  have hindent : '\n' ∉ (List.replicate depth profile.indent).flatten := by
    rw [List.mem_flatten]
    rintro ⟨indent, hmem, hbreak⟩
    rw [List.eq_of_mem_replicate hmem] at hbreak
    obtain h | h := h.indent '\n' hbreak
    · exact absurd h (by decide)
    · exact absurd h (by decide)
  have hnewline : Text.replaceChar '\n' ('\n' :: profile.indent) profile.newline =
      profile.newline ++ profile.indent := by
    obtain h | h := h.newline
    · rw [h, Text.replaceChar_singleton]
      rfl
    · rw [h]
      simp [Text.replaceChar]
  rw [lineStart, lineStart, Text.replaceChar_append, hnewline,
    Text.replaceChar_eq_self _ hindent, List.replicate_succ, List.flatten_cons, List.append_assoc]

/-- An element with one more indent behind each line break stands one level deeper, if that is so of
its children. -/
theorem Node.replaceChar_indented (h : profile.Tidy) (hbare : node.BareElement)
    (hchildren : Text.replaceChar '\n' ('\n' :: profile.indent)
        (Node.indentedLines profile (depth + 1) node.children) =
      Node.indentedLines profile (depth + 2) node.children) :
    Text.replaceChar '\n' ('\n' :: profile.indent) (node.indented profile depth) =
      node.indented profile (depth + 1) := by
  obtain ⟨hstart, hend⟩ := hbare.newline_notMem_tags profile.quote
  rw [Node.indented_eq, Node.indented_eq, Text.replaceChar_append, Text.replaceChar_append,
    Text.replaceChar_eq_self _ hstart, Text.replaceChar_eq_self _ hend]
  split
  · rfl
  · rw [Text.replaceChar_append, hchildren, Profile.replaceChar_lineStart h]

/-- Elements on lines with one more indent behind each line break stand one level deeper. -/
theorem Node.replaceChar_indentedLines (h : profile.Tidy) (depth : Nat) {forest : List Node}
    (hbare : Node.Everywhere Node.BareElement forest) :
    Text.replaceChar '\n' ('\n' :: profile.indent) (Node.indentedLines profile depth forest) =
      Node.indentedLines profile (depth + 1) forest := by
  induction forest using Node.forest_induction generalizing depth with
  | nil =>
    rw [Node.indentedLines, Node.indentedLines]
    rfl
  | cons node rest ihChildren ihRest =>
    obtain ⟨hown, hinside, hbehind⟩ := Node.everywhere_cons.1 hbare
    have hnode := Node.replaceChar_indented h hown (ihChildren (depth + 1) hinside)
    rw [Node.indentedLines, Node.indentedLines, Text.replaceChar_append, Text.replaceChar_append,
      Profile.replaceChar_lineStart h, hnode, ihRest depth hbehind]

/-! ## What is written -/

variable {g : Generator} {forest : List Node}

/-- Blocks that end in no line break are laid out on lines of their own, with one more indent behind
each of their line breaks. -/
theorem Generator.text_laidOut_blocks (hformat : g.profile.format = true) {pieces : List Piece}
    (hblock : pieces.any Piece.isBlock = true)
    (hpieces : ∀ p ∈ pieces, InRange p.fragment ∧ ∀ t, p.fragment.text ≠ t ++ ['\n']) :
    (g.laidOut pieces).text =
      (pieces.flatMap fun p => g.profile.lineStart 1 ++
        Text.replaceChar '\n' ('\n' :: g.profile.indent) p.fragment.text) ++
        g.profile.newline := by
  have hline (p : Piece) (hp : p ∈ pieces) :
      [Fragment.plain g.profile.newline, p.fragment.indent g.profile.indent true].flatMap
          Fragment.text =
        g.profile.lineStart 1 ++
          Text.replaceChar '\n' ('\n' :: g.profile.indent) p.fragment.text := by
    obtain ⟨hrange, hend⟩ := hpieces p hp
    rw [List.flatMap_cons, List.flatMap_singleton, Fragment.text_indent hrange hend, if_pos rfl]
    simp [Fragment.plain, Profile.lineStart]
  have hsteps : g.layoutSteps pieces =
      pieces.flatMap (fun p =>
        [Fragment.plain g.profile.newline, p.fragment.indent g.profile.indent true]) ++
        [Fragment.plain g.profile.newline] := by
    unfold layoutSteps
    rw [hformat, hblock]
    rfl
  rw [laidOut, hsteps, Fragment.text_foldl_append, List.flatMap_append, List.flatMap_assoc,
    List.flatMap_congr hline, List.flatMap_singleton]
  rfl

/-- Elements on lines, one by one. -/
theorem Node.indentedLines_eq_flatMap (profile : Profile) (depth : Nat) (forest : List Node) :
    Node.indentedLines profile depth forest =
      forest.flatMap fun node => profile.lineStart depth ++ node.indented profile depth := by
  induction forest with
  | nil => rw [Node.indentedLines, List.flatMap_nil]
  | cons node rest ih => rw [Node.indentedLines, ih, List.flatMap_cons]

/-- What is laid out inside of an element are its children on lines, if each of them is written as
it stands at no depth. -/
theorem Node.text_laidOut_children (hxml : g.dialect = .xml) (hformat : g.profile.format = true)
    (htidy : g.profile.Tidy) (hbare : Node.Everywhere Node.BareElement forest)
    (hwritten : (Node.writtenAll g [] forest).map (fun child => child.2.text) =
      forest.map (Node.indented g.profile 0)) :
    (g.laidOut ((Node.writtenAll g [] forest).map Generator.childPiece)).text =
      if forest = [] then []
      else Node.indentedLines g.profile 1 forest ++ g.profile.lineStart 0 := by
  split
  · next hnil =>
    subst hnil
    have hnone : Node.writtenAll g [] [] = [] := rfl
    rw [hnone, List.map_nil, Generator.laidOut_nil]
    rfl
  · next hne =>
    -- The first child is an element, and so a block.
    have hblock : ((Node.writtenAll g [] forest).map Generator.childPiece).any Piece.isBlock =
        true := by
      obtain ⟨node, rest, rfl⟩ := List.exists_cons_of_ne_nil hne
      have helement := (hbare.of_mem List.mem_cons_self).1.element
      have hisBlock : g.isBlock node.kind = true := by
        unfold Generator.isBlock
        rw [hxml]
        cases hkind : node.kind with
        | literal =>
          rw [hkind] at helement
          cases helement
        | element key attributes snippet => rfl
      rw [Node.writtenAll_cons, hisBlock]
      rfl
    have hpieces : ∀ p ∈ (Node.writtenAll g [] forest).map Generator.childPiece,
        InRange p.fragment ∧ ∀ t, p.fragment.text ≠ t ++ ['\n'] := by
      intro p hp
      obtain ⟨child, hchild, rfl⟩ := List.mem_map.1 hp
      have htext : child.2.text ∈ forest.map (Node.indented g.profile 0) := by
        rw [← hwritten]
        exact List.mem_map_of_mem hchild
      obtain ⟨node, hnode, hindented⟩ := List.mem_map.1 htext
      refine ⟨Node.inRange_writtenAll g [] forest child hchild, fun t => ?_⟩
      show child.2.text ≠ _
      rw [← hindented]
      exact (hbare.of_mem hnode).1.indented_ne_concat g.profile 0 t
    have hdeeper : ∀ node ∈ forest,
        g.profile.lineStart 1 ++
            Text.replaceChar '\n' ('\n' :: g.profile.indent) (node.indented g.profile 0) =
          g.profile.lineStart 1 ++ node.indented g.profile 1 := by
      intro node hnode
      obtain ⟨hown, hinside⟩ := hbare.of_mem hnode
      rw [Node.replaceChar_indented htidy hown (Node.replaceChar_indentedLines htidy 1 hinside)]
    have hlines : (((Node.writtenAll g [] forest).map Generator.childPiece).flatMap fun p =>
          g.profile.lineStart 1 ++
            Text.replaceChar '\n' ('\n' :: g.profile.indent) p.fragment.text) =
        Node.indentedLines g.profile 1 forest := by
      calc (((Node.writtenAll g [] forest).map Generator.childPiece).flatMap fun p =>
            g.profile.lineStart 1 ++
              Text.replaceChar '\n' ('\n' :: g.profile.indent) p.fragment.text)
          = ((Node.writtenAll g [] forest).map fun child => child.2.text).flatMap fun t =>
              g.profile.lineStart 1 ++ Text.replaceChar '\n' ('\n' :: g.profile.indent) t := by
            rw [List.flatMap_map, List.flatMap_map]
            rfl
        _ = forest.flatMap fun node => g.profile.lineStart 1 ++
              Text.replaceChar '\n' ('\n' :: g.profile.indent) (node.indented g.profile 0) := by
            rw [hwritten, List.flatMap_map]
        _ = Node.indentedLines g.profile 1 forest := by
            rw [List.flatMap_congr hdeeper, Node.indentedLines_eq_flatMap]
    rw [Generator.text_laidOut_blocks hformat hblock hpieces, hlines, Profile.lineStart,
      List.replicate_zero, List.flatten_nil, List.append_nil]

/-- What is written for an element with its contents is the element at no depth, if that is so of
its children. -/
theorem Node.text_filled_bare (hxml : g.dialect = .xml) (hformat : g.profile.format = true)
    (htidy : g.profile.Tidy) (hbare : node.BareElement)
    (hinside : Node.Everywhere Node.BareElement node.children)
    (hwritten : (Node.writtenAll g [] node.children).map (fun child => child.2.text) =
      node.children.map (Node.indented g.profile 0)) :
    (g.filled (g.finished [] node) node (Node.writtenAll g [] node.children)).text =
      node.indented g.profile 0 := by
  have htags : g.WritesTags := .inr hxml
  have helement := hbare.element
  have hsnippet := hbare.snippet
  have hnames := hbare.names
  cases hkind : node.kind with
  | literal =>
    rw [hkind] at helement
    cases helement
  | element key attributes snippet =>
    rw [hkind] at hsnippet hnames
    obtain rfl : snippet = none := hsnippet
    have hlone : ¬ g.WritesLone key node.text node.wrapped node.children := by
      rintro ⟨hhtml, -⟩
      rw [hxml] at hhtml
      cases hhtml
    have hcontents : Generator.contents node (Node.writtenAll g [] node.children) =
        (Node.writtenAll g [] node.children).map Generator.childPiece := by
      unfold Generator.contents
      rw [hbare.text, hbare.wrapped, ite_self]
      rfl
    obtain ⟨f, after, hown, htabs, htext⟩ := Node.exists_finished_eq_around htags hkind hnames
    dsimp only at htext
    rw [if_neg hlone] at htext
    rw [hown, Generator.text_filled_around htags.ne_haml htabs, hcontents,
      Node.text_laidOut_children hxml hformat htidy hinside hwritten, htext.1, htext.2,
      Node.indented_eq, hkind]
    rfl

/-- What is written for each element of a forest is the element at no depth. -/
theorem Node.texts_writtenAll (hxml : g.dialect = .xml) (hformat : g.profile.format = true)
    (htidy : g.profile.Tidy) (hbare : Node.Everywhere Node.BareElement forest) :
    (Node.writtenAll g [] forest).map (fun child => child.2.text) =
      forest.map (Node.indented g.profile 0) := by
  induction forest using Node.forest_induction with
  | nil => rfl
  | cons node rest ihChildren ihRest =>
    obtain ⟨hown, hinside, hbehind⟩ := Node.everywhere_cons.1 hbare
    have hnode := Node.text_filled_bare hxml hformat htidy hown hinside (ihChildren hinside)
    rw [Node.writtenAll_cons, List.map_cons, List.map_cons, ihRest hbehind, ← hnode]
    rfl

/-- With formatting and without filters, elements are written in XML as they are nested, if they
have no texts and no snippets. Nothing is refused and nothing has no place; and the text of the
template are the elements one after the other, each with its children on lines of their own, which
are indented once for each element around them. -/
theorem Generator.assemble_indented {profile : Profile} (hformat : profile.format = true)
    (hnewline : profile.newline = ['\n'] ∨ profile.newline = ['\r', '\n'])
    (hindent : ∀ c ∈ profile.indent, c = ' ' ∨ c = '\t') {forest : List Node}
    (hbare : Node.Everywhere Node.BareElement forest) :
    let g := Generator.ofDialect profile .xml
    g.fault? [] forest = none ∧ Node.misplacedIn? g [] forest = none ∧
      (g.assemble [] forest).value.text = forest.flatMap (Node.indented profile 0) := by
  intro g
  have htexts := Node.texts_writtenAll (g := g) rfl hformat ⟨hnewline, hindent⟩ hbare
  refine ⟨?_, Node.misplacedIn?_eq_none g [] forest, ?_⟩
  · refine Generator.fault?_eq_none ?_ (List.forall_mem_nil _) forest
    show Dialect.xml ≠ .textual
    decide
  · calc (g.assemble [] forest).value.text
        = ((Node.writtenAll g [] forest).map fun child => child.2.text).flatten := by
          rw [value_assemble, Template.toFragment_foldl_add, Fragment.text_foldl_append,
            List.flatMap_map]
          rfl
      _ = forest.flatMap (Node.indented profile 0) := by
          rw [htexts, ← List.flatMap_def]
          rfl

/-- A list in a box, with an attribute that is left open. -/
def sampleElements : List Node :=
  [⟨.element "box".toList [] none, 0, none, none,
    [⟨.element "ul".toList [⟨"id".toList, []⟩] none, 0, none, none,
      [⟨.element "li".toList [] none, 0, none, none, []⟩,
        ⟨.element "li".toList [] none, 1, none, none, []⟩]⟩]⟩]

/-- The sample with line breaks of two characters and indents of two blanks. -/
theorem Generator.assemble_indented_sampleElements :
    let profile : Profile := { indent := [' ', ' '], newline := ['\r', '\n'] }
    profile.format = true ∧ (profile.newline = ['\n'] ∨ profile.newline = ['\r', '\n']) ∧
      (∀ c ∈ profile.indent, c = ' ' ∨ c = '\t') ∧
      Node.Everywhere Node.BareElement sampleElements ∧
      ((Generator.ofDialect profile .xml).assemble [] sampleElements).value.text =
        ("<box>\r\n  <ul id=\"\">\r\n    <li></li>\r\n    <li></li>\r\n  </ul>\r\n" ++
          "</box>").toList := by
  intro profile
  have hformat : profile.format = true := rfl
  have hnewline : profile.newline = ['\n'] ∨ profile.newline = ['\r', '\n'] := .inr rfl
  have hindent : ∀ c ∈ profile.indent, c = ' ' ∨ c = '\t' := by
    show ∀ c ∈ [' ', ' '], c = ' ' ∨ c = '\t'
    simp
  have hsimple {key : Text} (hkey : '\n' ∉ key) (index : Int) (children : List Node) :
      Node.BareElement ⟨.element key [] none, index, none, none, children⟩ :=
    ⟨⟨rfl, List.forall_mem_nil _⟩, rfl, rfl, rfl, ⟨by rintro _ ⟨⟩; exact hkey,
      List.forall_mem_nil _⟩⟩
  have hlist : Node.BareElement
      ⟨.element "ul".toList [⟨"id".toList, []⟩] none, 0, none, none,
        [⟨.element "li".toList [] none, 0, none, none, []⟩,
          ⟨.element "li".toList [] none, 1, none, none, []⟩]⟩ := by
    refine ⟨⟨rfl, fun a ha _ => ?_⟩, rfl, rfl, rfl, ⟨by rintro _ ⟨⟩; simp, fun a ha => ?_⟩⟩
    · obtain rfl := List.mem_singleton.1 ha
      simp
    · obtain rfl := List.mem_singleton.1 ha
      simp
  have hbare : Node.Everywhere Node.BareElement sampleElements :=
    .cons (hsimple (by simp) 0 _)
      (.cons hlist (.cons (hsimple (by simp) 0 _) .nil (.cons (hsimple (by simp) 1 _) .nil .nil))
        .nil) .nil
  obtain ⟨-, -, htext⟩ := assemble_indented hformat hnewline hindent hbare
  refine ⟨hformat, hnewline, hindent, hbare, htext.trans ?_⟩
  decide

end Abbrev
