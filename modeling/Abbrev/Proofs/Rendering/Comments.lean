import Abbrev.Proofs.Rendering.Nesting

/-!
# Comments around whole elements

The filter `comment` sees what is written for an element itself, before anything is inside of it,
and puts a comment before that and one behind it. The place for contents is between the two, and
stays there. So the comments are around the element with all that is inside it, at every depth
(`Node.text_writtenAll_comment`).

The markup with comments is a row of tags, texts and comments (`Node.commentedItemsAll`). Without
the comments it is the plain markup, and a reader that keeps all that is still open finds that tags
and comments together are properly nested (`CommentedItem.nests`).
-/

namespace Abbrev

/-! ## Markup with comments -/

/-- A part of markup with comments. -/
inductive CommentedItem where
  /-- A tag or a text. -/
  | markup (item : MarkupItem)
  /-- The comment before an element, with what it says about the element. -/
  | before (comment : Text)
  /-- The comment behind an element. -/
  | behind (comment : Text)
  deriving DecidableEq, Repr

/-- What is open in markup with comments: an element, or the comments around one. -/
inductive Opened where
  | element (key : Text)
  | comment (comment : Text)
  deriving DecidableEq, Repr

namespace Attribute

/-- A sign, and behind it the value of the first attribute of a name; nothing at all if there is no
such attribute, or if its value is empty. -/
def signed (sign : Char) (name : Text) : List Attribute → Text
  | [] => []
  | ⟨other, value⟩ :: rest =>
    if other = name then
      if value = [] then [] else sign :: value
    else signed sign name rest

/-- What comments say about an element: its first id, and then its first class. -/
def remark (attributes : List Attribute) : Text :=
  signed '#' "id".toList attributes ++ signed '.' "class".toList attributes

/-- The value of the first attribute of a name is the one that is found under that name. -/
theorem signed_eq (sign : Char) (name : Text) (attributes : List Attribute) :
    signed sign name attributes =
      match (value? attributes name).getD [] with
      | [] => []
      | value => sign :: value := by
  induction attributes with
  | nil => rfl
  | cons a rest ih =>
    obtain ⟨other, value⟩ := a
    by_cases h : other = name
    · have hfound : value? (⟨other, value⟩ :: rest) name = some value := by
        simp [value?, h]
      rw [signed, if_pos h, hfound]
      cases value <;> rfl
    · have hskipped : value? (⟨other, value⟩ :: rest) name = value? rest name := by
        simp [value?, h]
      rw [signed, if_neg h, hskipped, ih]

end Attribute

/-- The filter says in its comments what there is to be said about an element. -/
theorem Filter.commentText_eq (attributes : List Attribute) :
    Filter.commentText attributes = Attribute.remark attributes := by
  rw [Attribute.remark, Attribute.signed_eq, Attribute.signed_eq]
  rfl

namespace CommentedItem

/-- A part as it is written. Each comment has a line break on the side of its element. -/
def spelled (profile : Profile) (newline : Text) : CommentedItem → Text
  | markup item => item.spelled profile
  | before comment => "<!-- ".toList ++ comment ++ " -->".toList ++ newline
  | behind comment => newline ++ "<!-- /".toList ++ comment ++ " -->".toList

/-- The tag or the text, if the part is one. -/
def markup? : CommentedItem → Option MarkupItem
  | markup item => some item
  | before _ | behind _ => none

/-- Parts of markup between two comments, if there is something for these to say. -/
def bracketed (comment : Text) (inside : List CommentedItem) : List CommentedItem :=
  if comment = [] then inside else before comment :: inside ++ [behind comment]

/-- Whether tags and comments are properly nested, where `pending` is what is open already, the
innermost first: each closing tag and each comment behind an element closes what was opened last,
and all that is open is closed in the end. -/
def nests : List Opened → List CommentedItem → Bool
  | pending, [] => pending.isEmpty
  | pending, markup (.text _) :: rest | pending, markup (.lone _ _) :: rest => nests pending rest
  | pending, markup (.opening key _) :: rest => nests (.element key :: pending) rest
  | pending, before comment :: rest => nests (.comment comment :: pending) rest
  | last :: pending, markup (.closing key) :: rest => last = .element key && nests pending rest
  | last :: pending, behind comment :: rest => last = .comment comment && nests pending rest
  | [], markup (.closing _) :: _ | [], behind _ :: _ => false

/-- Tags and texts are written as in plain markup. -/
theorem spelled_markup (profile : Profile) (newline : Text) (item : MarkupItem) :
    spelled profile newline (markup item) = item.spelled profile := rfl

/-- Comments around parts of markup are written around these. -/
theorem spelled_bracketed (profile : Profile) (newline comment : Text)
    (inside : List CommentedItem) :
    (bracketed comment inside).flatMap (spelled profile newline) =
      if comment = [] then inside.flatMap (spelled profile newline)
      else spelled profile newline (before comment) ++ inside.flatMap (spelled profile newline) ++
        spelled profile newline (behind comment) := by
  unfold bracketed
  split
  · rfl
  · rw [List.flatMap_append, List.flatMap_cons, List.flatMap_singleton]

/-- A tag or a text is kept where comments are left out. -/
theorem filterMap_markup_cons (item : MarkupItem) (rest : List CommentedItem) :
    (markup item :: rest).filterMap markup? = item :: rest.filterMap markup? := rfl

/-- Comments around parts of markup are no markup themselves. -/
theorem filterMap_bracketed (comment : Text) (inside : List CommentedItem) :
    (bracketed comment inside).filterMap markup? = inside.filterMap markup? := by
  unfold bracketed
  split
  · rfl
  · rw [List.filterMap_append, List.filterMap_cons_none rfl]
    exact List.append_nil _

/-- A reader that comes to comments around parts of markup has the same open behind them, if it has
the same open behind these parts. -/
theorem nests_bracketed {inside : List CommentedItem}
    (h : ∀ pending rest, nests pending (inside ++ rest) = nests pending rest) (comment : Text)
    (pending : List Opened) (rest : List CommentedItem) :
    nests pending (bracketed comment inside ++ rest) = nests pending rest := by
  unfold bracketed
  split
  · exact h pending rest
  · rw [List.append_assoc, List.cons_append, nests, h, List.singleton_append, nests]
    simp

end CommentedItem

namespace Node

open CommentedItem (bracketed)

mutual

/-- The markup of a node, part by part, with comments around each element that has an id or a
class. -/
def commentedItems (g : Generator) : Node → List CommentedItem
  | ⟨.literal, _, text, wrapped, children⟩ =>
    .markup (.text (text.getD [] ++ wrapped.getD [])) :: commentedItemsAll g children
  | ⟨.element key attributes _, _, text, wrapped, children⟩ =>
    bracketed (Attribute.remark attributes)
      (if g.WritesLone key text wrapped children then [.markup (.lone key attributes)]
      else
        .markup (.opening key attributes) :: .markup (.text (text.getD [] ++ wrapped.getD [])) ::
          commentedItemsAll g children ++ [.markup (.closing key)])

/-- The markup of a forest, part by part, with comments. -/
def commentedItemsAll (g : Generator) : List Node → List CommentedItem
  | [] => []
  | node :: rest => node.commentedItems g ++ commentedItemsAll g rest

end

mutual

/-- Without the comments, the parts are those of plain markup. -/
theorem filterMap_commentedItems (g : Generator) :
    ∀ node : Node, (node.commentedItems g).filterMap CommentedItem.markup? = node.items g
  | ⟨.literal, _, text, wrapped, children⟩ => by
    rw [commentedItems, items, CommentedItem.filterMap_markup_cons,
      filterMap_commentedItemsAll g children]
  | ⟨.element key attributes _, _, text, wrapped, children⟩ => by
    rw [commentedItems, items, CommentedItem.filterMap_bracketed]
    split
    · rfl
    · rw [List.filterMap_append, CommentedItem.filterMap_markup_cons,
        CommentedItem.filterMap_markup_cons, filterMap_commentedItemsAll g children]
      rfl

/-- Without the comments, the parts of a forest are those of plain markup. -/
theorem filterMap_commentedItemsAll (g : Generator) :
    ∀ forest : List Node,
      (commentedItemsAll g forest).filterMap CommentedItem.markup? = itemsAll g forest
  | [] => by rw [commentedItemsAll, itemsAll, List.filterMap_nil]
  | node :: rest => by
    rw [commentedItemsAll, itemsAll, List.filterMap_append, filterMap_commentedItems g node,
      filterMap_commentedItemsAll g rest]

end

mutual

/-- A reader that comes to a node has the same open behind it. -/
theorem nests_commentedItems (g : Generator) :
    ∀ (node : Node) (pending : List Opened) (rest : List CommentedItem),
      CommentedItem.nests pending (node.commentedItems g ++ rest) =
        CommentedItem.nests pending rest
  | ⟨.literal, _, text, wrapped, children⟩, pending, rest => by
    rw [commentedItems, List.cons_append, CommentedItem.nests]
    exact nests_commentedItemsAll g children pending rest
  | ⟨.element key attributes _, _, text, wrapped, children⟩, pending, rest => by
    rw [commentedItems]
    refine CommentedItem.nests_bracketed (fun pending rest => ?_) _ pending rest
    split
    · rw [List.singleton_append, CommentedItem.nests]
    · rw [List.append_assoc, List.cons_append, List.cons_append, CommentedItem.nests,
        CommentedItem.nests, nests_commentedItemsAll g children, List.singleton_append,
        CommentedItem.nests]
      simp

/-- A reader that comes to a forest has the same open behind it. -/
theorem nests_commentedItemsAll (g : Generator) :
    ∀ (forest : List Node) (pending : List Opened) (rest : List CommentedItem),
      CommentedItem.nests pending (commentedItemsAll g forest ++ rest) =
        CommentedItem.nests pending rest
  | [], pending, rest => by rw [commentedItemsAll, List.nil_append]
  | node :: more, pending, rest => by
    rw [commentedItemsAll, List.append_assoc, nests_commentedItems g node,
      nests_commentedItemsAll g more]

end

end Node

/-! ## What is written with comments -/

namespace Fragment

/-- Texts are put around a fragment by putting them before it and behind it. -/
theorem surround_eq_concat (before behind : Text) (f : Fragment) :
    f.surround before behind = ((plain before).concat f).concat (plain behind) := by
  simp [surround, concat, plain]

/-- A text before a place for contents and one behind it leave it between them. -/
theorem surround_around (before behind after : Text) (f : Fragment) :
    (f.around after).surround before behind =
      ((plain before).concat f).around (after ++ behind) := by
  have hplain : (plain after).concat (plain behind) = plain (after ++ behind) := rfl
  rw [surround_eq_concat, around, around, ← hplain]
  simp only [concat_assoc]

end Fragment

namespace Generator

open Fragment

variable {g : Generator} {newline : Text} {node : Node}

/-- The filter changes nothing but what is written for an element with an id or a class, by a text
before it and one behind it. -/
theorem finished_comment (g : Generator) (newline : Text) (node : Node) :
    g.finished [.comment newline] node =
      let comment := Attribute.remark node.kind.attributes
      if comment = [] then g.finished [] node
      else
        (g.finished [] node).surround
          (CommentedItem.spelled g.profile newline (.before comment))
          (CommentedItem.spelled g.profile newline (.behind comment)) := by
  unfold finished Filter.finishAll Filter.prepareAll
  simp only [List.foldl_cons, List.foldl_nil, Filter.prepare, Filter.finish, Filter.commentText_eq]
  cases Attribute.remark node.kind.attributes <;> rfl

/-- What is written for a node with comments is the comments around what is written for it without
them. -/
theorem text_filled_comment (hdialect : g.dialect ≠ .haml) (hformat : g.profile.format = false)
    {f : Fragment} {after : Text} (hown : g.finished [] node = f.around after)
    (h : OnlyTabStops f) (children : List (Bool × Fragment)) :
    (g.filled (g.finished [.comment newline] node) node children).text =
      let comment := Attribute.remark node.kind.attributes
      let inside := (g.filled (g.finished [] node) node children).text
      if comment = [] then inside
      else CommentedItem.spelled g.profile newline (.before comment) ++ inside ++
        CommentedItem.spelled g.profile newline (.behind comment) := by
  rw [finished_comment]
  dsimp only
  split
  · rfl
  · -- The comments are outside of the place for contents.
    rw [hown, surround_around, text_filled hdialect hformat h,
      text_filled hdialect hformat ((onlyTabStops_plain _).concat h)]
    simp only [concat, plain, List.append_assoc]

end Generator

namespace Node

open Fragment

variable {g : Generator} {node : Node} {children : List (Bool × Fragment)}

/-- A literal text has no comments of its own. -/
theorem text_commented_literal (htags : g.WritesTags) (hformat : g.profile.format = false)
    (newline : Text) (hkind : node.kind = .literal)
    (hchildren : (children.flatMap fun child => child.2.text) =
      (commentedItemsAll g node.children).flatMap (CommentedItem.spelled g.profile newline)) :
    (g.filled (g.finished [.comment newline] node) node children).text =
      (node.commentedItems g).flatMap (CommentedItem.spelled g.profile newline) := by
  have hown : g.finished [] node = (plain (node.text.getD [])).around [] :=
    Generator.ownFragment_literal htags hkind
  rw [Generator.text_filled_comment htags.ne_haml hformat hown (onlyTabStops_plain _),
    text_filled_literal htags hformat hkind, hchildren]
  obtain ⟨kind, index, text, wrapped, inside⟩ := node
  obtain rfl : kind = .literal := hkind
  rw [commentedItems, List.flatMap_cons]
  rfl

/-- The parts of an element are written as a lone tag, or as tags around the parts inside of it. -/
theorem spelled_elementParts (g : Generator) (newline key : Text) (attributes : List Attribute)
    (text wrapped : Option Text) (inside : List Node) (parts : List CommentedItem) :
    (if g.WritesLone key text wrapped inside then [CommentedItem.markup (.lone key attributes)]
      else
        .markup (.opening key attributes) :: .markup (.text (text.getD [] ++ wrapped.getD [])) ::
          parts ++ [.markup (.closing key)]).flatMap (CommentedItem.spelled g.profile newline) =
      let start := '<' :: key ++ attributes.flatMap (Attribute.markup g.profile.quote)
      if g.WritesLone key text wrapped inside then start ++ g.profile.closing.tagEnd
      else
        start ++ ['>'] ++ (text.getD [] ++ wrapped.getD [] ++
          parts.flatMap (CommentedItem.spelled g.profile newline)) ++
            ('<' :: '/' :: key ++ ['>']) := by
  split
  · exact List.append_nil _
  · rw [List.flatMap_append, List.flatMap_cons, List.flatMap_cons, List.flatMap_singleton]
    simp only [CommentedItem.spelled_markup, MarkupItem.spelled, List.append_assoc]

/-- An element is written between its comments. -/
theorem text_commented_element (htags : g.WritesTags) (hformat : g.profile.format = false)
    (newline : Text) {key : Text} {attributes : List Attribute}
    (hkind : node.kind = .element key attributes none)
    (hnames : ∀ a ∈ attributes, a.value = [] → ∀ c ∈ a.name, c.toNat < 128)
    (hnone : node.children = [] → children = [])
    (hchildren : (children.flatMap fun child => child.2.text) =
      (commentedItemsAll g node.children).flatMap (CommentedItem.spelled g.profile newline)) :
    (g.filled (g.finished [.comment newline] node) node children).text =
      (node.commentedItems g).flatMap (CommentedItem.spelled g.profile newline) := by
  obtain ⟨f, after, hown, htabs, -⟩ := exists_finished_eq_around htags hkind hnames
  rw [Generator.text_filled_comment htags.ne_haml hformat hown htabs,
    text_filled_element htags hformat hkind hnames hnone, hchildren]
  obtain ⟨kind, index, text, wrapped, inside⟩ := node
  obtain rfl : kind = .element key attributes none := hkind
  rw [commentedItems, CommentedItem.spelled_bracketed, spelled_elementParts]
  rfl

/-- What is written for the nodes of a forest with comments, one after the other, is the markup of
the forest with comments. -/
theorem text_writtenAll_comment (htags : g.WritesTags) (hformat : g.profile.format = false)
    (newline : Text) {forest : List Node} (hplain : Everywhere Plain forest) :
    ((writtenAll g [.comment newline] forest).flatMap fun child => child.2.text) =
      (commentedItemsAll g forest).flatMap (CommentedItem.spelled g.profile newline) := by
  induction forest using forest_induction with
  | nil => rfl
  | cons node rest ihChildren ihRest =>
    obtain ⟨hown, hinside, hbehind⟩ := everywhere_cons.1 hplain
    have hnode : (g.filled (g.finished [.comment newline] node) node
        (writtenAll g [.comment newline] node.children)).text =
          (node.commentedItems g).flatMap (CommentedItem.spelled g.profile newline) := by
      cases hkind : node.kind with
      | literal => exact text_commented_literal htags hformat newline hkind (ihChildren hinside)
      | element key attributes snippet =>
        have hsnippet := hown.snippet
        have hnames := hown.names
        rw [hkind] at hsnippet hnames
        obtain rfl : snippet = none := hsnippet
        exact text_commented_element htags hformat newline hkind hnames writtenAll_eq_nil
          (ihChildren hinside)
    rw [writtenAll_cons, List.flatMap_cons, ihRest hbehind, commentedItemsAll,
      List.flatMap_append, ← hnode]
    rfl

end Node

/-- Comments are around whole elements. Without formatting, and with comments as the only filter, a
forest is written as its plain nested markup with comments added: each element whose first id or
first class is not empty stands, with all that is inside it, between a comment that gives both and
one that gives them again. Nothing else is added; and each closing tag and each comment behind an
element closes what was opened last, until nothing is left open. The elements must have no snippets,
and their attributes without values names in ASCII. -/
theorem Generator.assemble_comment {profile : Profile} (hformat : profile.format = false)
    {dialect : Dialect} (hdialect : dialect = .html ∨ dialect = .xml) (newline : Text)
    {forest : List Node} (hplain : Node.Everywhere Node.Plain forest) :
    let g := Generator.ofDialect profile dialect
    g.fault? [.comment newline] forest = none ∧
      Node.misplacedIn? g [.comment newline] forest = none ∧
      (g.assemble [.comment newline] forest).value.text =
        (Node.commentedItemsAll g forest).flatMap (CommentedItem.spelled profile newline) ∧
      (Node.commentedItemsAll g forest).filterMap CommentedItem.markup? = Node.itemsAll g forest ∧
      (g.assemble [] forest).value.text =
        (Node.itemsAll g forest).flatMap (MarkupItem.spelled profile) ∧
      CommentedItem.nests [] (Node.commentedItemsAll g forest) = true := by
  intro g
  have htags : g.WritesTags := Generator.writesTags_ofDialect profile hdialect
  have hprofile : g.profile = profile := Generator.profile_ofDialect profile dialect
  have hunformatted : g.profile.format = false := by
    rw [hprofile]
    exact hformat
  have hfault : g.fault? [.comment newline] forest = none := by
    refine Generator.fault?_eq_none ?_ (List.forall_mem_singleton.2 rfl) forest
    rcases htags with h | h <;> rw [h] <;> decide
  have htext : (g.assemble [.comment newline] forest).value.text =
      (Node.commentedItemsAll g forest).flatMap (CommentedItem.spelled g.profile newline) := by
    rw [g.value_assemble, Template.toFragment_foldl_add, Fragment.text_foldl_append,
      List.flatMap_map, Node.text_writtenAll_comment htags hunformatted newline hplain]
    rfl
  have hbare : (g.assemble [] forest).value.text = _ := g.text_assemble htags hunformatted hplain
  have hnests := Node.nests_commentedItemsAll g forest [] []
  rw [List.append_nil] at hnests
  rw [← Node.spelled_itemsAll] at hbare
  rw [hprofile] at htext hbare
  exact ⟨hfault, Node.misplacedIn?_eq_none g _ forest, htext,
    Node.filterMap_commentedItemsAll g forest, hbare, hnests⟩

/-- A paragraph with two ids and two classes, and in it a line break with a class and an element
whose first id is left open. -/
def sampleCommented : List Node :=
  [⟨.element "p".toList [⟨"id".toList, "i".toList⟩, ⟨"class".toList, "c".toList⟩,
      ⟨"id".toList, "j".toList⟩, ⟨"class".toList, "d".toList⟩] none, 0,
    some "a".toList, none,
    [⟨.element "br".toList [⟨"class".toList, "x".toList⟩] none, 0, none, none, []⟩,
      ⟨.element "b".toList [⟨"id".toList, []⟩, ⟨"id".toList, "k".toList⟩] none, 0, none, none,
        []⟩]⟩]

/-- In the sample, the comments of the line break are inside of those of the paragraph, which give
its first id and its first class only. -/
theorem Generator.assemble_comment_sampleCommented :
    ({ format := false } : Profile).format = false ∧
      (Dialect.html = .html ∨ Dialect.html = .xml) ∧
      Node.Everywhere Node.Plain sampleCommented ∧
      ((Generator.ofDialect { format := false } .html).assemble [.comment ['\n']]
          sampleCommented).value.text =
        ["<!-- #i.c -->\n", "<p id=\"i\" class=\"c\"", " id=\"j\" class=\"d\">", "a",
          "<!-- .x -->\n", "<br class=\"x\">", "\n<!-- /.x -->", "<b id=\"\" id=\"k\">", "</b>",
          "</p>", "\n<!-- /#i.c -->"].flatMap String.toList := by
  have hformat : ({ format := false } : Profile).format = false := rfl
  have hplain : Node.Everywhere Node.Plain sampleCommented := by
    refine .cons ⟨rfl, ?_⟩ (.cons ⟨rfl, ?_⟩ .nil (.cons ⟨rfl, ?_⟩ .nil .nil)) .nil
    all_goals
      simp [NodeKind.attributes]
  obtain ⟨-, -, htext, -⟩ := assemble_comment hformat (.inl rfl) ['\n'] hplain
  refine ⟨hformat, .inl rfl, hplain, htext.trans ?_⟩
  decide

end Abbrev
