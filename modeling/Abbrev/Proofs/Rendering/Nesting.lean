import Abbrev.Proofs.Rendering.Markup
import Abbrev.Proofs.Registry.Members

/-!
# Tags are nested as elements are

The markup of a forest is a row of tags and texts (`Node.itemsAll`). A reader that keeps the
elements which are still open checks that each closing tag closes the one opened last, and writes
down each element with the number of those around it (`MarkupItem.outline?`). On the markup of a
forest it finds all tags in order, and what it has written down at the end is the outline of the
elements of the forest (`Node.outline?_itemsAll`).

With that, the tags of what is written mirror the nodes that it is written for
(`Generator.assemble_markup`).
-/

namespace Abbrev

/-! ## Tags and texts -/

/-- A part of markup. -/
inductive MarkupItem where
  | text (t : Text)
  /-- The tag of an element that has no closing tag. -/
  | lone (key : Text) (attributes : List Attribute)
  | opening (key : Text) (attributes : List Attribute)
  | closing (key : Text)
  deriving DecidableEq, Repr

namespace MarkupItem

/-- A part as it is written. -/
def spelled (profile : Profile) : MarkupItem → Text
  | text t => t
  | lone key attributes =>
    '<' :: key ++ attributes.flatMap (Attribute.markup profile.quote) ++ profile.closing.tagEnd
  | opening key attributes =>
    '<' :: key ++ attributes.flatMap (Attribute.markup profile.quote) ++ ['>']
  | closing key => '<' :: '/' :: key ++ ['>']

/-- The keys of the elements in markup, each with the number of elements around it, where `pending`
are the keys of the elements that are open, the innermost first. There is no such outline if a tag
closes anything but the innermost of these, or if one of them is never closed. -/
def outline? : List Text → List MarkupItem → Option (List (Nat × Text))
  | [], [] => some []
  | _ :: _, [] => none
  | pending, text _ :: rest => outline? pending rest
  | pending, lone key _ :: rest =>
    (outline? pending rest).map ((pending.length, key) :: ·)
  | pending, opening key _ :: rest =>
    (outline? (key :: pending) rest).map ((pending.length, key) :: ·)
  | [], closing _ :: _ => none
  | key :: pending, closing other :: rest =>
    if other = key then outline? pending rest else none

end MarkupItem

namespace Node

mutual

/-- The markup of a node, part by part. -/
def items (g : Generator) : Node → List MarkupItem
  | ⟨.literal, _, text, wrapped, children⟩ =>
    .text (text.getD [] ++ wrapped.getD []) :: itemsAll g children
  | ⟨.element key attributes _, _, text, wrapped, children⟩ =>
    if g.WritesLone key text wrapped children then [.lone key attributes]
    else
      .opening key attributes :: .text (text.getD [] ++ wrapped.getD []) :: itemsAll g children ++
        [.closing key]

/-- The markup of a forest, part by part. -/
def itemsAll (g : Generator) : List Node → List MarkupItem
  | [] => []
  | node :: rest => node.items g ++ itemsAll g rest

end

mutual

/-- The keys of an element and of those inside it, each with the number of elements around it. A
literal text is no element, but there may be some inside it. -/
def elements (depth : Nat) : Node → List (Nat × Text)
  | ⟨.literal, _, _, _, children⟩ => elementsAll depth children
  | ⟨.element key _ _, _, _, _, children⟩ => (depth, key) :: elementsAll (depth + 1) children

/-- The keys of the elements of a forest in document order. -/
def elementsAll (depth : Nat) : List Node → List (Nat × Text)
  | [] => []
  | node :: rest => node.elements depth ++ elementsAll depth rest

end

mutual

/-- The parts of a node are its markup. -/
theorem spelled_items (g : Generator) :
    ∀ node : Node, (node.items g).flatMap (MarkupItem.spelled g.profile) = node.markup g
  | ⟨.literal, _, text, wrapped, children⟩ => by
    rw [items, markup, List.flatMap_cons, spelled_itemsAll g children]
    rfl
  | ⟨.element key attributes _, _, text, wrapped, children⟩ => by
    rw [items, markup]
    split
    · exact List.append_nil _
    · rw [List.flatMap_append, List.flatMap_cons, List.flatMap_cons, spelled_itemsAll g children]
      simp [MarkupItem.spelled]

/-- The parts of a forest are its markup. -/
theorem spelled_itemsAll (g : Generator) :
    ∀ forest : List Node,
      (itemsAll g forest).flatMap (MarkupItem.spelled g.profile) = markupAll g forest
  | [] => by rw [itemsAll, markupAll, List.flatMap_nil]
  | node :: rest => by
    rw [itemsAll, markupAll, List.flatMap_append, spelled_items g node, spelled_itemsAll g rest]

end

mutual

/-- A reader that comes to a node writes down its elements, and has the same elements open behind
it. -/
theorem outline?_items (g : Generator) (pending : List Text) (rest : List MarkupItem) :
    ∀ node : Node, MarkupItem.outline? pending (node.items g ++ rest) =
      (MarkupItem.outline? pending rest).map (node.elements pending.length ++ ·)
  | ⟨.literal, _, text, wrapped, children⟩ => by
    rw [items, elements, List.cons_append, MarkupItem.outline?]
    exact outline?_itemsAll g pending rest children
  | ⟨.element key attributes _, _, text, wrapped, children⟩ => by
    rw [items, elements]
    split
    · next hlone =>
      obtain ⟨-, -, -, -, rfl⟩ := hlone
      rw [elementsAll, List.singleton_append, MarkupItem.outline?]
      rfl
    · have hclosing : MarkupItem.outline? (key :: pending) (.closing key :: rest) =
          MarkupItem.outline? pending rest := by
        rw [MarkupItem.outline?, if_pos rfl]
      calc MarkupItem.outline? pending (.opening key attributes ::
            .text (text.getD [] ++ wrapped.getD []) :: itemsAll g children ++ [.closing key] ++
              rest)
          = (MarkupItem.outline? (key :: pending)
              (itemsAll g children ++ .closing key :: rest)).map ((pending.length, key) :: ·) := by
            rw [List.append_assoc, List.singleton_append, List.cons_append, List.cons_append,
              MarkupItem.outline?, MarkupItem.outline?]
        _ = ((MarkupItem.outline? pending rest).map
              (elementsAll (pending.length + 1) children ++ ·)).map
                ((pending.length, key) :: ·) := by
            rw [outline?_itemsAll g (key :: pending) (.closing key :: rest) children, hclosing,
              List.length_cons]
        _ = (MarkupItem.outline? pending rest).map
              ((pending.length, key) :: elementsAll (pending.length + 1) children ++ ·) := by
            rw [Option.map_map]
            rfl

/-- A reader that comes to a forest writes down its elements, and has the same elements open behind
it. -/
theorem outline?_itemsAll (g : Generator) (pending : List Text) (rest : List MarkupItem) :
    ∀ forest : List Node, MarkupItem.outline? pending (itemsAll g forest ++ rest) =
      (MarkupItem.outline? pending rest).map (elementsAll pending.length forest ++ ·)
  | [] => by
    rw [itemsAll, elementsAll]
    exact Option.map_id'.symm
  | node :: more => by
    rw [itemsAll, elementsAll, List.append_assoc, outline?_items g pending _ node,
      outline?_itemsAll g pending rest more, Option.map_map]
    congr 1
    funext found
    exact (List.append_assoc _ _ _).symm

end

end Node

/-- Without formatting and filters, a forest is written as plain nested markup, if its elements have
no snippets and its attributes without values have names in ASCII. Nothing is refused and nothing
has no place; the text of the template is the markup of the forest, which consists of tags and
texts; each closing tag closes the element that was opened last, none is left open, and the elements
are nested as they are in the forest. -/
theorem Generator.assemble_markup {profile : Profile} (hformat : profile.format = false)
    {dialect : Dialect} (hdialect : dialect = .html ∨ dialect = .xml) {forest : List Node}
    (hplain : Node.Everywhere Node.Plain forest) :
    let g := Generator.ofDialect profile dialect
    g.fault? [] forest = none ∧ Node.misplacedIn? g [] forest = none ∧
      (g.assemble [] forest).value.text = Node.markupAll g forest ∧
      Node.markupAll g forest = (Node.itemsAll g forest).flatMap (MarkupItem.spelled profile) ∧
      MarkupItem.outline? [] (Node.itemsAll g forest) = some (Node.elementsAll 0 forest) := by
  intro g
  have htags : g.WritesTags := by
    rcases hdialect with rfl | rfl
    · exact .inl rfl
    · exact .inr rfl
  have hprofile : g.profile = profile := by
    rcases hdialect with rfl | rfl <;> rfl
  have hfault : g.fault? [] forest = none := by
    refine Generator.fault?_eq_none ?_ (List.forall_mem_nil _) forest
    rcases htags with h | h <;> rw [h] <;> decide
  have hspelled := Node.spelled_itemsAll g forest
  have houtline := Node.outline?_itemsAll g [] [] forest
  rw [hprofile] at hspelled
  rw [List.append_nil, MarkupItem.outline?, Option.map_some, List.append_nil] at houtline
  have htext := g.text_assemble htags (hprofile ▸ hformat) hplain
  exact ⟨hfault, Node.misplacedIn?_eq_none g [] forest, htext, hspelled.symm, houtline⟩

/-- A list with a dollar sign and a line break in it, a title that is left open, and a label with
both quotes in it. -/
def sampleMarkup : List Node :=
  [⟨.element "ul".toList [⟨"title".toList, []⟩, ⟨"label".toList, "5'6\"".toList⟩] none, 0,
    some "$1".toList, none,
    [⟨.element "br".toList [] none, 0, none, none, []⟩,
      ⟨.literal, 0, some "a".toList, some "b".toList, []⟩]⟩]

/-- The markup of the sample, in which the line break is a lone tag inside of the list, and only
the quote around the label is written as an entity in it. -/
theorem Generator.assemble_markup_sampleMarkup :
    ({ format := false } : Profile).format = false ∧
      ({ format := false, quote := .single } : Profile).format = false ∧
      (Dialect.html = .html ∨ Dialect.html = .xml) ∧
      Node.Everywhere Node.Plain sampleMarkup ∧
      ((Generator.ofDialect { format := false } .html).assemble [] sampleMarkup).value.text =
        "<ul title=\"\" label=\"5'6&quot;\">$1<br>ab</ul>".toList ∧
      ((Generator.ofDialect { format := false, quote := .single } .html).assemble []
          sampleMarkup).value.text =
        "<ul title='' label='5&#39;6\"'>$1<br>ab</ul>".toList ∧
      MarkupItem.outline? []
        (Node.itemsAll (Generator.ofDialect { format := false } .html) sampleMarkup) =
          some [(0, "ul".toList), (1, "br".toList)] := by
  have hformat : ({ format := false } : Profile).format = false := rfl
  have hsingle : ({ format := false, quote := .single } : Profile).format = false := rfl
  have hplain : Node.Everywhere Node.Plain sampleMarkup := by
    refine .cons ⟨rfl, ?_⟩ (.cons ⟨rfl, List.forall_mem_nil _⟩ .nil
      (.cons ⟨rfl, List.forall_mem_nil _⟩ .nil .nil)) .nil
    simp [NodeKind.attributes]
  obtain ⟨-, -, htext, -, houtline⟩ := assemble_markup hformat (.inl rfl) hplain
  obtain ⟨-, -, htext', -⟩ := assemble_markup hsingle (.inl rfl) hplain
  refine ⟨hformat, hsingle, .inl rfl, hplain, htext.trans ?_, htext'.trans ?_, houtline.trans ?_⟩
  · decide
  · decide
  · decide

end Abbrev
