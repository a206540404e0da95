import Abbrev.Proofs.Fragment.Range
import Abbrev.Rendering

/-!
# Every part of a template has a place

Writing a forest puts fragments into fragments, and each of them goes to a marker or to an end of
the text. No insertion can miss the text: what is written for a node itself is in range, whatever
filters make of it, and so are the places in it (`Node.misplacedIn?_eq_none`). The same invariant
carries over to what is written for whole nodes and forests (`Node.inRange_render`,
`Generator.wellPlaced_assemble`).
-/

namespace Abbrev

open Fragment (InRange)

variable {g : Generator} {filters : List Filter}

namespace Generator

/-! ## What is written for a node itself -/

/-- What a snippet receives is in range, and goes in at an offset of the snippet. -/
theorem snippetAttributes_le (g : Generator) {snippet : Fragment} (h : InRange snippet)
    (attributes : List Attribute) :
    InRange (g.snippetAttributes snippet attributes).1 ∧
      (g.snippetAttributes snippet attributes).2 ≤ snippet.text.length := by
  refine ⟨Fragment.inRange_ofSource _, ?_⟩
  unfold snippetAttributes
  dsimp only
  cases hplace : snippet.place? Marker.attributesName with
  | some n => simpa using h.place?_le hplace
  | none =>
    cases htag : StartTag.find? snippet.text with
    | some tag => simpa [htag] using StartTag.insertion_le_of_findFrom? htag
    | none => simp

/-- A snippet with attributes is in range. -/
theorem inRange_snippetFragment (g : Generator) (source : Text) (attributes : List Attribute) :
    InRange (g.snippetFragment source attributes).value := by
  have hsource := Fragment.inRange_ofSource source
  obtain ⟨hadded, hoffset⟩ := g.snippetAttributes_le hsource attributes
  -- Whatever has been put in, the marker of the attributes goes, and a missing caret is added.
  have hcaret (f : Fragment) (hf : InRange f) :
      InRange (if (f.without Marker.attributesName).has Marker.endName
        then f.without Marker.attributesName
        else (f.without Marker.attributesName).withMarker Marker.endName
          (f.without Marker.attributesName).text.length) := by
    have hwithout := hf.without Marker.attributesName
    split
    · exact hwithout
    · exact hwithout.withMarker Marker.endName (Nat.le_refl _)
  unfold snippetFragment
  dsimp only
  split
  · exact hcaret _ hsource
  · exact hcaret _ (hsource.insert hadded hoffset)

/-- An element is in range, as it is read from a source. -/
theorem inRange_elementFragment (g : Generator) (key : Text) (attributes : List Attribute)
    (node : Node) : InRange (g.elementFragment key attributes node) := by
  unfold elementFragment
  split
  · exact Fragment.inRange_ofSource _
  · exact Fragment.inRange_ofSource _
  · exact Fragment.inRange_ofSource _
  · exact Fragment.inRange_empty

/-- The only marker of a literal text stands at its end. -/
theorem inRange_literalFragment (g : Generator) (text : Text) :
    InRange (g.literalFragment text) := by
  unfold literalFragment
  split
  all_goals
    intro m hm
    obtain rfl := List.mem_singleton.1 hm
    simp
    try omega

/-- What is written for a node itself is in range. -/
theorem inRange_ownFragment (g : Generator) (node : Node) :
    InRange (g.ownFragment node).value := by
  unfold ownFragment
  split
  · exact g.inRange_literalFragment _
  · split
    · exact g.inRange_snippetFragment _ _
    · exact g.inRange_elementFragment _ _ _

end Generator

/-- A filter leaves what is written for a node in range. -/
theorem Filter.inRange_finish (f : Filter) (node : Node) {own : Fragment} (h : InRange own) :
    InRange (f.finish node own) := by
  unfold finish
  split
  · exact Fragment.inRange_mapText _ _
  · split
    · exact h
    · exact h.surround _ _
  all_goals exact h

/-- All filters together leave what is written for a node in range. -/
theorem Filter.inRange_finishAll (filters : List Filter) (node : Node) {own : Fragment}
    (h : InRange own) : InRange (finishAll filters node own) := by
  unfold finishAll
  induction filters generalizing own with
  | nil => exact h
  | cons f rest ih => exact ih (f.inRange_finish node h)

namespace Generator

/-! ## Places for contents -/

/-- An insertion at an offset of the text is not outside of it. -/
theorem outside?_eq_none {host : Fragment} {offset : Nat} (h : offset ≤ host.text.length) :
    host.outside? offset = none := by
  rw [Fragment.outside?, if_pos ⟨Int.natCast_nonneg _, Int.ofNat_le.2 h⟩]

/-- Wrapped text at its marker leaves a fragment in range. -/
theorem inRange_placeTexts {own : Fragment} (h : InRange own) (node : Node) :
    InRange (placeTexts own node).1 := by
  unfold placeTexts placeSelection
  cases hplace : own.place? Marker.selectionName with
  | none => exact h
  | some offset =>
    have hwithout := h.without Marker.selectionName
    cases node.wrapped with
    | none => exact hwithout
    | some text => exact hwithout.insert (Fragment.inRange_plain text) (h.place?_le hplace)

/-- Contents go to an offset of the text. -/
theorem contentPlace_le {base : Fragment} (h : InRange base) :
    contentPlace base ≤ base.text.length := by
  unfold contentPlace
  cases hplace : base.place? Marker.endName with
  | none => exact Nat.le_refl _
  | some n => exact h.place?_le hplace

/-- The attributes of a node have a place in its snippet. -/
theorem attributesOutside?_eq_none (g : Generator) (node : Node) :
    g.attributesOutside? node = none := by
  unfold attributesOutside?
  split
  · next source _ _ =>
    obtain ⟨-, hoffset⟩ := g.snippetAttributes_le (Fragment.inRange_ofSource source) _
    dsimp only
    split
    · rfl
    · exact outside?_eq_none hoffset
  · rfl

/-- Wrapped text has a place at its marker. -/
theorem selectionOutside?_eq_none {own : Fragment} (h : InRange own) (wrapped : Option Text) :
    selectionOutside? own wrapped = none := by
  unfold selectionOutside?
  split
  · next hplace => exact outside?_eq_none (h.place?_le hplace)
  · rfl

/-- Contents have a place in what is written for their node. -/
theorem contentsOutside?_eq_none {own : Fragment} (h : InRange own) (node : Node) :
    contentsOutside? own node = none := by
  unfold contentsOutside?
  dsimp only
  split
  · rfl
  · exact outside?_eq_none (contentPlace_le (inRange_placeTexts h node))

end Generator

/-! ## No insertion misses the text -/

mutual

/-- Every part of a node has a place. -/
theorem Node.misplaced?_eq_none (g : Generator) (filters : List Filter) :
    ∀ node : Node, node.misplaced? g filters = none
  | ⟨kind, index, text, wrapped, children⟩ => by
    have hown := Filter.inRange_finishAll filters
      (Filter.prepareAll filters ⟨kind, index, text, wrapped, children⟩)
      (g.inRange_ownFragment (Filter.prepareAll filters ⟨kind, index, text, wrapped, children⟩))
    have hchildren := Node.misplacedIn?_eq_none g filters children
    rw [Node.misplaced?, g.attributesOutside?_eq_none, hchildren,
      Generator.selectionOutside?_eq_none hown, Generator.contentsOutside?_eq_none hown]
    split <;> rfl

/-- Every part of a forest has a place. -/
theorem Node.misplacedIn?_eq_none (g : Generator) (filters : List Filter) :
    ∀ forest : List Node, Node.misplacedIn? g filters forest = none
  | [] => rfl
  | node :: rest => by
    rw [Node.misplacedIn?, Node.misplaced?_eq_none g filters node,
      Node.misplacedIn?_eq_none g filters rest]
    rfl

end

/-! ## What is written for whole nodes -/

namespace Generator

/-- Fragments in range are in range one after the other. -/
theorem inRange_foldl_append {start : Fragment} (hstart : InRange start) {steps : List Fragment}
    (h : ∀ step ∈ steps, InRange step) : InRange (steps.foldl Fragment.append start) := by
  induction steps generalizing start with
  | nil => exact hstart
  | cons step rest ih =>
    obtain ⟨hstep, hrest⟩ := List.forall_mem_cons.1 h
    exact ih (hstart.append hstep) hrest

/-- Parts that are in range are laid out in range. -/
theorem inRange_layout (g : Generator) {pieces : List Piece}
    (h : ∀ p ∈ pieces, InRange p.fragment) : InRange (g.layout pieces).value := by
  unfold layout
  rw [Logged.value_foldlM]
  refine inRange_foldl_append Fragment.inRange_empty ?_
  intro step hstep
  split at hstep
  · rcases List.mem_append.1 hstep with hstep | hstep
    · obtain ⟨p, hp, hstep⟩ := List.mem_flatMap.1 hstep
      simp only [List.mem_cons, List.not_mem_nil, or_false] at hstep
      rcases hstep with rfl | rfl
      · exact Fragment.inRange_plain _
      · exact (h p hp).indent _ _
    · obtain rfl := List.mem_singleton.1 hstep
      exact Fragment.inRange_plain _
  · obtain ⟨p, hp, rfl⟩ := List.mem_map.1 hstep
    exact h p hp

/-- The texts of a node are parts in range. -/
theorem inRange_of_mem_placeTexts (own : Fragment) (node : Node) :
    ∀ p ∈ (placeTexts own node).2, InRange p.fragment := by
  have htext (t : Option Text) : ∀ p ∈ Piece.ofText? t, InRange p.fragment := by
    intro p hp
    cases t with
    | none => cases hp
    | some t =>
      obtain rfl := List.mem_singleton.1 hp
      exact Fragment.inRange_plain t
  intro p hp
  rcases List.mem_append.1 hp with hp | hp
  · exact htext _ p hp
  · exact htext _ p hp

/-- What is written for a node is in range, if what is written for the node itself and for its
children is. -/
theorem inRange_fill (g : Generator) {own : Fragment} (hown : InRange own) (node : Node)
    {children : List (Bool × Logged Fragment)} (h : ∀ child ∈ children, InRange child.2.value) :
    InRange (g.fill own node children).value := by
  unfold fill
  split
  · -- HAML: the children follow their node, indented.
    rw [Logged.value_foldlM]
    have hsteps : ∀ step ∈ children.map fun child => child.2.value.indent hamlIndent true,
        InRange step := by
      intro step hstep
      obtain ⟨child, hchild, rfl⟩ := List.mem_map.1 hstep
      exact (h child hchild).indent _ _
    have happended := inRange_foldl_append hown hsteps
    rw [List.foldl_map] at happended
    exact happended
  · -- Otherwise they are laid out with the texts and put in at the place for contents.
    have hbase := inRange_placeTexts hown node
    have htexts := inRange_of_mem_placeTexts own node
    dsimp only
    rw [Logged.value_bind, Logged.value_mapM]
    split
    · exact hbase
    · next pieces _ =>
      refine hbase.insert (g.inRange_layout ?_) (contentPlace_le hbase)
      intro p hp
      rcases List.mem_append.1 hp with hp | hp
      · exact htexts p hp
      · obtain ⟨child, hchild, rfl⟩ := List.mem_map.1 hp
        exact h child hchild

end Generator

mutual

/-- What is written for a node is in range. -/
theorem Node.inRange_render (g : Generator) (filters : List Filter) :
    ∀ node : Node, InRange (node.render g filters).value
  | ⟨kind, index, text, wrapped, children⟩ => by
    rw [Node.render]
    exact g.inRange_fill (Filter.inRange_finishAll filters _ (g.inRange_ownFragment _)) _
      (Node.inRange_renderAll g filters children)

/-- What is written for each node of a forest is in range. -/
theorem Node.inRange_renderAll (g : Generator) (filters : List Filter) :
    ∀ forest : List Node, ∀ child ∈ Node.renderAll g filters forest, InRange child.2.value
  | [] => by rintro child ⟨⟩
  | node :: rest => by
    rw [Node.renderAll]
    exact List.forall_mem_cons.2
      ⟨Node.inRange_render g filters node, Node.inRange_renderAll g filters rest⟩

end

/-! ## Templates -/

namespace Template

/-- A template is in range, and if it knows where its first part had the caret, it has a caret. -/
structure WellPlaced (t : Template) : Prop where
  inRange : InRange t.toFragment
  has_end : t.endOffset.isSome = true → t.has Marker.endName = true

end Template

/-- A template stays well placed with one more fragment. -/
theorem Template.WellPlaced.addFragment {t : Template} (h : t.WellPlaced) {f : Fragment}
    (hf : InRange f) : (Generator.addFragment t f).value.WellPlaced := by
  have hrange : InRange (t.toFragment.append f) := h.inRange.append hf
  refine ⟨hrange, ?_⟩
  intro hend
  have hcaret : t.has Marker.endName = true ∨ f.has Marker.endName = true := by
    cases hoffset : t.endOffset with
    | some offset => exact .inl (h.has_end (by rw [hoffset]; rfl))
    | none =>
      -- The template has had no caret so far, so this fragment brings it.
      right
      change (t.endOffset <|> _).isSome = true at hend
      rw [hoffset] at hend
      simpa [Fragment.insertedEnd?, Fragment.has] using hend
  refine hrange.has_iff.2 (Fragment.exists_end_splice ?_)
  exact hcaret.imp_left h.inRange.has_iff.1

/-- A forest is written as a template that is in range, with a caret if one of its parts has one. -/
theorem Generator.wellPlaced_assemble (g : Generator) (filters : List Filter)
    (forest : List Node) : (g.assemble filters forest).value.WellPlaced := by
  have hall := Node.inRange_renderAll g filters forest
  unfold assemble
  rw [Logged.value_bind, Logged.value_bind, Logged.value_pure, Logged.value_foldlM]
  have hstart : (⟨.empty, none⟩ : Template).WellPlaced :=
    ⟨Fragment.inRange_empty, by rintro ⟨⟩⟩
  -- The forest is written from the left, onto any template that is well placed.
  generalize (⟨.empty, none⟩ : Template) = start at hstart
  generalize Node.renderAll g filters forest = rendered at hall
  induction rendered generalizing start with
  | nil => exact hstart
  | cons first rest ih =>
    obtain ⟨hfirst, hrest⟩ := List.forall_mem_cons.1 hall
    exact ih _ (hstart.addFragment hfirst) hrest

end Abbrev
