import Abbrev.Proofs.Expansion.Leaves
import Abbrev.Proofs.Rendering.Sources
import Abbrev.Proofs.Rendering.Templates

/-!
# Writing is plain nested markup

Elements are written as sources, read as fragments with markers, and put into each other at these.
Without formatting and snippets, what comes of all that is what one would write down at once: tags
with attributes, and between them texts and what is inside (`Node.markup`).

Three things have to be seen. The marker `END` stands where the contents belong, as all other
markers are tab stops (`Fragment.place?_endName`). An attribute without a value leaves nothing
between its quotes, as its tab stop has a name that a marker can have
(`Generator.text_attributesFragment_of_ascii`). And a node that is not written around any contents
has none to be written (`Generator.text_filled`).
-/

namespace Abbrev

/-! ## Markup -/

/-- A character of a value between its quotes. The quote itself is written as an entity there. -/
def Quote.enclosed : Quote → Char → Text
  | .double, c => if c = '"' then "&quot;".toList else [c]
  | .single, c => if c = '\'' then "&#39;".toList else [c]

/-- Between its quotes, a value has the entity of the quote for the quote. -/
theorem Quote.flatMap_enclosed (quote : Quote) (value : Text) :
    value.flatMap quote.enclosed = Text.replaceChar quote.sign quote.entity value := by
  cases quote <;> rfl

/-- An attribute in a tag, with its value in quotes. -/
def Attribute.markup (quote : Quote) (a : Attribute) : Text :=
  ' ' :: a.name ++ '=' :: quote.sign :: a.value.flatMap quote.enclosed ++ [quote.sign]

/-- Whether an element is a lone tag: in HTML, if elements of its name never have contents, and it
has none. -/
def Generator.WritesLone (g : Generator) (key : Text) (text wrapped : Option Text)
    (children : List Node) : Prop :=
  g.dialect = .html ∧ Text.lower key ∈ voidElements ∧ text = none ∧ wrapped.getD [] = [] ∧
    children = []

instance (g : Generator) (key : Text) (text wrapped : Option Text) (children : List Node) :
    Decidable (g.WritesLone key text wrapped children) := by
  unfold Generator.WritesLone
  infer_instance

mutual

/-- A node as markup, without line breaks and indentation. -/
def Node.markup (g : Generator) : Node → Text
  | ⟨.literal, _, text, wrapped, children⟩ =>
    text.getD [] ++ wrapped.getD [] ++ Node.markupAll g children
  | ⟨.element key attributes _, _, text, wrapped, children⟩ =>
    let start := '<' :: key ++ attributes.flatMap (Attribute.markup g.profile.quote)
    if g.WritesLone key text wrapped children then start ++ g.profile.closing.tagEnd
    else
      start ++ ['>'] ++ (text.getD [] ++ wrapped.getD [] ++ Node.markupAll g children) ++
        ('<' :: '/' :: key ++ ['>'])

/-- A forest as markup. -/
def Node.markupAll (g : Generator) : List Node → Text
  | [] => []
  | node :: rest => node.markup g ++ Node.markupAll g rest

end

/-- The markup of a literal text. -/
theorem Node.markup_literal {g : Generator} {node : Node} (h : node.kind = .literal) :
    node.markup g =
      node.text.getD [] ++ node.wrapped.getD [] ++ Node.markupAll g node.children := by
  obtain ⟨kind, index, text, wrapped, children⟩ := node
  obtain rfl : kind = .literal := h
  rw [Node.markup]

/-- The markup of an element. -/
theorem Node.markup_element {g : Generator} {node : Node} {key : Text} {attributes : List Attribute}
    {snippet : Option Text} (h : node.kind = .element key attributes snippet) :
    node.markup g =
      let start := '<' :: key ++ attributes.flatMap (Attribute.markup g.profile.quote)
      if g.WritesLone key node.text node.wrapped node.children then
        start ++ g.profile.closing.tagEnd
      else
        start ++ ['>'] ++
          (node.text.getD [] ++ node.wrapped.getD [] ++ Node.markupAll g node.children) ++
            ('<' :: '/' :: key ++ ['>']) := by
  obtain ⟨kind, index, text, wrapped, children⟩ := node
  obtain rfl : kind = .element key attributes snippet := h
  rw [Node.markup]

/-- A node has no snippet, and its attributes without values have names in ASCII. -/
structure Node.Plain (node : Node) : Prop where
  snippet : node.kind.snippet? = none
  names : ∀ a ∈ node.kind.attributes, a.value = [] → ∀ c ∈ a.name, c.toNat < 128

/-- There are no line breaks in the key and the attributes of an element. -/
structure NodeKind.OneLine (kind : NodeKind) : Prop where
  key : ∀ key ∈ kind.key?, '\n' ∉ key
  attributes : ∀ a ∈ kind.attributes, '\n' ∉ a.name ∧ '\n' ∉ a.value

namespace Fragment

variable {f : Fragment}

/-- The text of a fragment with others at its end. -/
theorem text_foldl_append (pieces : List Fragment) (start : Fragment) :
    (pieces.foldl append start).text = start.text ++ pieces.flatMap Fragment.text := by
  induction pieces generalizing start with
  | nil => rw [List.foldl_nil, List.flatMap_nil, List.append_nil]
  | cons piece rest ih =>
    rw [List.foldl_cons, ih, text_append, List.flatMap_cons, List.append_assoc]

/-- A fragment with a place for contents before the text `after`. -/
def around (f : Fragment) (after : Text) : Fragment :=
  (f.concat (startMarker Marker.endName)).concat (plain after)

/-- The text around a place for contents. -/
theorem text_around (f : Fragment) (after : Text) : (f.around after).text = f.text ++ after := by
  simp [around, concat, startMarker, plain]

/-- The markers around a place for contents. -/
theorem markers_around (f : Fragment) (after : Text) :
    (f.around after).markers = f.markers ++ [⟨Marker.endName, f.text.length⟩] := by
  simp [around, concat, startMarker, plain, Marker.shift]

/-- Tab stops have no capitals in their names. -/
theorem OnlyTabStops.find?_eq_none (h : OnlyTabStops f) {name : Text}
    (hname : ∃ c ∈ name, c.isUpper = true) :
    f.markers.find? (fun m => m.name = name) = none := by
  rw [List.find?_eq_none]
  intro m hm heq
  obtain ⟨shown, htab⟩ := h m hm
  exact tabStopName_ne hname shown (htab.symm.trans (of_decide_eq_true heq))

/-- Contents go behind what has tab stops only. -/
theorem place?_endName (h : OnlyTabStops f) (after : Text) :
    (f.around after).place? Marker.endName = some f.text.length := by
  have hnone : f.markers.find? (fun m => m.name = Marker.endName) = none :=
    h.find?_eq_none ⟨'E', by decide, by decide⟩
  unfold place? offset?
  rw [markers_around, List.find?_append, hnone]
  rfl

/-- Wrapped text has no place of its own there. -/
theorem place?_selectionName (h : OnlyTabStops f) (after : Text) :
    (f.around after).place? Marker.selectionName = none := by
  have hnone : f.markers.find? (fun m => m.name = Marker.selectionName) = none :=
    h.find?_eq_none ⟨'S', by decide, by decide⟩
  unfold place? offset?
  rw [markers_around, List.find?_append, hnone]
  rfl

end Fragment

namespace Generator

open Fragment

variable {g : Generator} {node : Node} {f : Fragment}

/-! ## Nodes without their contents -/

/-- Attributes in a tag, if those without values have tab stops that markers can be named after. -/
theorem text_attributesFragment_of_ascii (quote : Quote) {attributes : List Attribute}
    (h : ∀ a ∈ attributes, a.value = [] → ∀ c ∈ a.name, c.toNat < 128) :
    (attributesFragment quote attributes).text =
      attributes.flatMap (Attribute.markup quote) := by
  rw [text_attributesFragment]
  refine List.flatMap_congr ?_
  intro a ha
  rw [Attribute.markup, Quote.flatMap_enclosed]
  unfold tagAttribute tagValue shownValue
  split
  · next hempty =>
    have hname := isName_tabStopName_iff.2 (asciiWords_of_ascii (h a ha hempty))
    rw [if_pos hname, hempty]
    rfl
  · rfl

/-- A lone tag, or a tag before the contents and one behind them. -/
theorem taggedFragment_eq (g : Generator) (key : Text) (attributes : List Attribute) (node : Node) :
    g.taggedFragment key attributes node =
      let start := (plain ('<' :: key)).concat (attributesFragment g.profile.quote attributes)
      if g.isVoid key node then (start.concat (plain g.profile.closing.tagEnd)).around []
      else (start.concat (plain ['>'])).around ('<' :: '/' :: key ++ ['>']) := by
  unfold taggedFragment around
  dsimp only
  split
  · rw [show plain ([] : Text) = empty from rfl, concat_empty]
  · rfl

/-- A generator writes elements with tags. -/
def WritesTags (g : Generator) : Prop :=
  g.dialect = .html ∨ g.dialect = .xml

/-- HTML and XML have tags. -/
theorem writesTags_ofDialect (profile : Profile) {dialect : Dialect}
    (h : dialect = .html ∨ dialect = .xml) : (ofDialect profile dialect).WritesTags := by
  rcases h with rfl | rfl
  · exact .inl rfl
  · exact .inr rfl

/-- A generator has the profile that it was made with. -/
@[simp] theorem profile_ofDialect (profile : Profile) (dialect : Dialect) :
    (ofDialect profile dialect).profile = profile := by
  cases dialect <;> rfl

/-- HAML has no tags. -/
theorem WritesTags.ne_haml (h : g.WritesTags) : g.dialect ≠ .haml := by
  rcases h with h | h <;> rw [h] <;> decide

/-- What is written for a literal text. -/
theorem ownFragment_literal (h : g.WritesTags) (hkind : node.kind = .literal) :
    (g.ownFragment node).value = (plain (node.text.getD [])).around [] := by
  unfold ownFragment literalFragment
  rw [hkind]
  rcases h with h | h <;> rw [h] <;> simp [around, concat, startMarker, plain, Marker.shift]

/-- An element without a snippet is written in the form of its dialect. -/
theorem ownFragment_of_no_snippet {key : Text} {attributes : List Attribute}
    (hkind : node.kind = .element key attributes none) :
    (g.ownFragment node).value = g.elementFragment key attributes node := by
  unfold ownFragment
  rw [hkind]
  cases g.usesSnippets <;> rfl

/-- What is written for an element without a snippet, with tags. -/
theorem ownFragment_element (h : g.WritesTags) {key : Text} {attributes : List Attribute}
    (hkind : node.kind = .element key attributes none) :
    (g.ownFragment node).value = g.taggedFragment key attributes node := by
  rw [ownFragment_of_no_snippet hkind, ← ofSource_taggedSource]
  unfold elementFragment
  rcases h with h | h <;> rw [h]

/-- An element is written as a lone tag exactly if its markup is one. -/
theorem isVoid_iff {key : Text} :
    g.isVoid key node = true ↔ g.WritesLone key node.text node.wrapped node.children := by
  unfold isVoid WritesLone
  simp only [Bool.and_eq_true, beq_iff_eq, List.contains_iff_mem, List.isEmpty_iff,
    Option.isNone_iff_eq_none]
  tauto

/-! ## Contents -/

/-- Without formatting, nothing is appended but the parts. -/
theorem layoutSteps_eq_map (hformat : g.profile.format = false) (pieces : List Piece) :
    g.layoutSteps pieces = pieces.map Piece.fragment := by
  unfold layoutSteps
  rw [hformat]
  rfl

/-- Without formatting, parts are laid out one after the other. -/
theorem text_laidOut (hformat : g.profile.format = false) (pieces : List Piece) :
    (g.laidOut pieces).text = pieces.flatMap fun p => p.fragment.text := by
  rw [laidOut, layoutSteps_eq_map hformat, text_foldl_append, List.flatMap_map]
  rfl

/-- A text as a part, if there is one. -/
theorem text_ofText? (t : Option Text) :
    ((Piece.ofText? t).flatMap fun p => p.fragment.text) = t.getD [] := by
  cases t with
  | none => rfl
  | some t => exact List.append_nil t

/-- It makes no difference to leave out an empty text. -/
theorem getD_filter (t : Option Text) : (t.filter fun u => !u.isEmpty).getD [] = t.getD [] := by
  cases t with
  | none => rfl
  | some t => cases t <;> rfl

/-- The parts that a node without a snippet is written around: inline text, wrapped text, and what
is inside it. -/
def contents (node : Node) (children : List (Bool × Fragment)) : List Piece :=
  Piece.ofText? (if node.kind.isLiteral then none else node.text) ++
    Piece.ofText? (node.wrapped.filter fun text => !text.isEmpty) ++ children.map childPiece

/-- A node with a place for contents is written by putting them in there as they are laid out. -/
theorem filled_around (hdialect : g.dialect ≠ .haml) (h : OnlyTabStops f) (after : Text)
    (node : Node) (children : List (Bool × Fragment)) :
    g.filled (f.around after) node children =
      if contents node children = [] then f.around after
      else (f.around after).insert f.text.length (g.laidOut (contents node children)) := by
  have htexts : placeTexts (f.around after) node =
      (f.around after, Piece.ofText? (if node.kind.isLiteral then none else node.text) ++
        Piece.ofText? (node.wrapped.filter fun text => !text.isEmpty)) := by
    unfold placeTexts placeSelection
    rw [place?_selectionName h]
  have hplace : contentPlace (f.around after) = f.text.length := by
    rw [contentPlace, place?_endName h]
    rfl
  rw [filled_eq hdialect, htexts, ← hplace]
  rfl

/-- The text of a node is written around its contents as they are laid out. -/
theorem text_filled_around (hdialect : g.dialect ≠ .haml) (h : OnlyTabStops f) (after : Text)
    (node : Node) (children : List (Bool × Fragment)) :
    (g.filled (f.around after) node children).text =
      f.text ++ (g.laidOut (contents node children)).text ++ after := by
  rw [filled_around hdialect h]
  split
  · next hnil =>
    -- There is nothing to put in, and nothing is laid out.
    rw [hnil, laidOut_nil, text_around, empty, List.append_nil]
  · show (f.around after).text.take _ ++ (g.laidOut _).text ++ (f.around after).text.drop _ = _
    rw [text_around, List.take_left, List.drop_left]

/-- Without formatting, a node is written around its contents one after the other. -/
theorem text_filled (hdialect : g.dialect ≠ .haml) (hformat : g.profile.format = false)
    (h : OnlyTabStops f) (after : Text) (node : Node) (children : List (Bool × Fragment)) :
    (g.filled (f.around after) node children).text =
      f.text ++ ((if node.kind.isLiteral then none else node.text).getD [] ++
        node.wrapped.getD [] ++ children.flatMap fun child => child.2.text) ++ after := by
  rw [text_filled_around hdialect h, text_laidOut hformat, contents, List.flatMap_append,
    List.flatMap_append, text_ofText?, text_ofText?, getD_filter, List.flatMap_map]
  rfl

end Generator

open Fragment

variable {g : Generator}

/-- A literal text is written before its other contents. -/
theorem Node.text_filled_literal (htags : g.WritesTags) (hformat : g.profile.format = false)
    {node : Node} (hkind : node.kind = .literal) (children : List (Bool × Fragment)) :
    (g.filled (g.finished [] node) node children).text =
      node.text.getD [] ++ node.wrapped.getD [] ++ children.flatMap fun child => child.2.text := by
  have hown : g.finished [] node = (plain (node.text.getD [])).around [] :=
    Generator.ownFragment_literal htags hkind
  rw [hown, Generator.text_filled htags.ne_haml hformat (onlyTabStops_plain _), hkind]
  simp [plain, NodeKind.isLiteral]

/-- What is written for an element itself is a lone tag, or a tag before the contents and one behind
them. -/
theorem Node.exists_finished_eq_around (htags : g.WritesTags) {node : Node} {key : Text}
    {attributes : List Attribute} (hkind : node.kind = .element key attributes none)
    (hnames : ∀ a ∈ attributes, a.value = [] → ∀ c ∈ a.name, c.toNat < 128) :
    ∃ f after, g.finished [] node = f.around after ∧ OnlyTabStops f ∧
      let start := '<' :: key ++ attributes.flatMap (Attribute.markup g.profile.quote)
      if g.WritesLone key node.text node.wrapped node.children then
        f.text = start ++ g.profile.closing.tagEnd ∧ after = []
      else f.text = start ++ ['>'] ∧ after = '<' :: '/' :: key ++ ['>'] := by
  have hown : g.finished [] node = g.taggedFragment key attributes node :=
    Generator.ownFragment_element htags hkind
  rw [hown, Generator.taggedFragment_eq]
  dsimp only
  generalize hstart : (plain ('<' :: key)).concat
    (Generator.attributesFragment g.profile.quote attributes) = start
  have htabs : OnlyTabStops start := by
    rw [← hstart]
    exact (onlyTabStops_plain _).concat (Generator.onlyTabStops_attributesFragment _ _)
  have htext : start.text =
      '<' :: key ++ attributes.flatMap (Attribute.markup g.profile.quote) := by
    rw [← hstart, ← Generator.text_attributesFragment_of_ascii g.profile.quote hnames]
    rfl
  rw [← htext]
  by_cases hlone : g.WritesLone key node.text node.wrapped node.children
  · rw [if_pos (Generator.isVoid_iff.2 hlone)]
    refine ⟨_, _, rfl, htabs.concat (onlyTabStops_plain _), ?_⟩
    rw [if_pos hlone]
    exact ⟨rfl, rfl⟩
  · rw [if_neg (mt Generator.isVoid_iff.1 hlone)]
    refine ⟨_, _, rfl, htabs.concat (onlyTabStops_plain _), ?_⟩
    rw [if_neg hlone]
    exact ⟨rfl, rfl⟩

/-- An element is written as a lone tag, or as tags around its contents. -/
theorem Node.text_filled_element (htags : g.WritesTags) (hformat : g.profile.format = false)
    {node : Node} {key : Text} {attributes : List Attribute}
    (hkind : node.kind = .element key attributes none)
    (hnames : ∀ a ∈ attributes, a.value = [] → ∀ c ∈ a.name, c.toNat < 128)
    {children : List (Bool × Fragment)} (hnone : node.children = [] → children = []) :
    (g.filled (g.finished [] node) node children).text =
      let start := '<' :: key ++ attributes.flatMap (Attribute.markup g.profile.quote)
      if g.WritesLone key node.text node.wrapped node.children then
        start ++ g.profile.closing.tagEnd
      else
        start ++ ['>'] ++ (node.text.getD [] ++ node.wrapped.getD [] ++
          children.flatMap fun child => child.2.text) ++ ('<' :: '/' :: key ++ ['>']) := by
  obtain ⟨f, after, hown, htabs, htext⟩ := Node.exists_finished_eq_around htags hkind hnames
  dsimp only at htext ⊢
  rw [hown, Generator.text_filled htags.ne_haml hformat htabs, hkind]
  by_cases hlone : g.WritesLone key node.text node.wrapped node.children
  · rw [if_pos hlone] at htext ⊢
    obtain ⟨-, -, hinline, hwrapped, hinside⟩ := hlone
    rw [htext.1, htext.2, hinline, hwrapped, hnone hinside]
    simp
  · rw [if_neg hlone] at htext ⊢
    rw [htext.1, htext.2]
    rfl

/-- Nothing is written for no children. -/
theorem Node.writtenAll_eq_nil {filters : List Filter} {forest : List Node} (h : forest = []) :
    Node.writtenAll g filters forest = [] := by
  rw [h]
  rfl

/-- What is written for the nodes of a forest, one after the other, is the markup of the forest. -/
theorem Node.text_writtenAll (htags : g.WritesTags) (hformat : g.profile.format = false)
    {forest : List Node} (hplain : Node.Everywhere Node.Plain forest) :
    ((Node.writtenAll g [] forest).flatMap fun child => child.2.text) =
      Node.markupAll g forest := by
  induction forest using Node.forest_induction with
  | nil => rfl
  | cons node rest ihChildren ihRest =>
    obtain ⟨hown, hinside, hbehind⟩ := Node.everywhere_cons.1 hplain
    have hnode : (g.filled (g.finished [] node) node (Node.writtenAll g [] node.children)).text =
        node.markup g := by
      cases hkind : node.kind with
      | literal =>
        rw [Node.text_filled_literal htags hformat hkind, ihChildren hinside,
          Node.markup_literal hkind]
      | element key attributes snippet =>
        have hsnippet := hown.snippet
        have hnames := hown.names
        rw [hkind] at hsnippet hnames
        obtain rfl : snippet = none := hsnippet
        rw [Node.text_filled_element htags hformat hkind hnames Node.writtenAll_eq_nil,
          ihChildren hinside, Node.markup_element hkind]
    rw [Node.writtenAll_cons, List.flatMap_cons, ihRest hbehind, Node.markupAll, ← hnode]
    rfl

/-- The text of a forest that is written without formatting and filters is its markup. -/
theorem Generator.text_assemble (htags : g.WritesTags) (hformat : g.profile.format = false)
    {forest : List Node} (hplain : Node.Everywhere Node.Plain forest) :
    (g.assemble [] forest).value.text = Node.markupAll g forest := by
  rw [value_assemble, Template.toFragment_foldl_add, text_foldl_append, List.flatMap_map,
    Node.text_writtenAll htags hformat hplain]
  rfl

end Abbrev
