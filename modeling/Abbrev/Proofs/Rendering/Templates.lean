import Abbrev.Proofs.Fragment.Rewriting
import Abbrev.Proofs.Rendering.Placement
import Abbrev.Proofs.Rendering.Values

/-!
# Templates rewritten character by character

A template is what is written for its nodes, one after the other, with the place where the first of
them had the caret. A rewriting of its text takes that place along with the markers. So rewriting a
template is rewriting what is written for each node (`Generator.rewritten_assemble`).
-/

namespace Abbrev

open Fragment (InRange)

/-- All that is written for nodes is in range. -/
theorem Node.inRange_writtenAll (g : Generator) (filters : List Filter) (forest : List Node) :
    ∀ child ∈ Node.writtenAll g filters forest, InRange child.2 := by
  intro child hchild
  obtain ⟨rendered, hrendered, rfl⟩ := List.mem_map.1 hchild
  exact Node.inRange_renderAll g filters forest rendered hrendered

namespace Generator

/-- What is appended to lay out parts that are in range is in range. -/
theorem inRange_layoutSteps (g : Generator) {pieces : List Piece}
    (h : ∀ p ∈ pieces, InRange p.fragment) : ∀ step ∈ g.layoutSteps pieces, InRange step := by
  intro step hstep
  obtain rfl | ⟨p, hp, rfl | rfl⟩ := of_mem_layoutSteps hstep
  · exact Fragment.inRange_plain _
  · exact h p hp
  · exact (h p hp).indent _ _

/-- Parts that are in range are laid out in range. -/
theorem inRange_laidOut (g : Generator) {pieces : List Piece}
    (h : ∀ p ∈ pieces, InRange p.fragment) : InRange (g.laidOut pieces) :=
  inRange_foldl_append Fragment.inRange_empty (g.inRange_layoutSteps h)

/-- The parts of the contents of a node are in range. -/
theorem inRange_pieces (own : Fragment) (node : Node) {children : List (Bool × Fragment)}
    (h : ∀ child ∈ children, InRange child.2) :
    ∀ p ∈ (placeTexts own node).2 ++ children.map childPiece, InRange p.fragment := by
  intro p hp
  rcases List.mem_append.1 hp with hp | hp
  · exact inRange_of_mem_placeTexts own node p hp
  · obtain ⟨child, hchild, rfl⟩ := List.mem_map.1 hp
    exact h child hchild

end Generator

namespace Template

open Fragment

variable {t : Template} {f : Fragment}

/-- The markers of a template are offsets of its text, and so is its caret. -/
structure InRange (t : Template) : Prop where
  markers : t.toFragment.InRange
  caret : ∀ o ∈ t.endOffset, 0 ≤ o ∧ o ≤ t.text.length

/-- The template without text is in range. -/
theorem inRange_empty : InRange ⟨.empty, none⟩ :=
  ⟨Fragment.inRange_empty, by rintro o ⟨⟩⟩

/-- A template stays in range with a fragment at its end. -/
theorem InRange.add (h : t.InRange) (hf : f.InRange) : (t.add f).InRange := by
  have hlength : (t.add f).text.length = t.text.length + f.text.length := by
    rw [Template.add, text_append, List.length_append]
  refine ⟨h.markers.append hf, ?_⟩
  intro o ho
  rw [hlength]
  change (t.endOffset <|> (insertedEnd? t.text.length f).map Int.ofNat) = some o at ho
  cases hcaret : t.endOffset with
  | some old =>
    rw [hcaret] at ho
    obtain rfl : old = o := Option.some.inj ho
    have := h.caret old hcaret
    omega
  | none =>
    rw [hcaret, insertedEnd?] at ho
    cases hplace : f.place? Marker.endName with
    | none =>
      rw [hplace] at ho
      cases ho
    | some n =>
      rw [hplace] at ho
      obtain rfl : ((n + t.text.length : Nat) : Int) = o := Option.some.inj ho
      have := hf.place?_le hplace
      omega

/-- The template with its text rewritten, and its markers and its caret moved along. -/
def rewritten (change : Char → Text) (t : Template) : Template :=
  ⟨t.toFragment.rewritten change, t.endOffset.map fun o => Text.moved change t.text o⟩

/-- A fragment may be put at the end of a template before or after both are rewritten. -/
theorem rewritten_add (change : Char → Text) (h : t.InRange) (hf : f.InRange) :
    (t.add f).rewritten change = (t.rewritten change).add (f.rewritten change) := by
  have hfragment : ((t.add f).rewritten change).toFragment =
      ((t.rewritten change).add (f.rewritten change)).toFragment :=
    rewritten_append h.markers hf change
  have hcaret : ((t.add f).rewritten change).endOffset =
      ((t.rewritten change).add (f.rewritten change)).endOffset := by
    change (t.endOffset <|> (insertedEnd? t.text.length f).map Int.ofNat).map
        (fun o => ((Text.moved change (t.add f).text o : Nat) : Int)) =
      (t.endOffset.map (fun o => ((Text.moved change t.text o : Nat) : Int)) <|>
        (insertedEnd? (t.rewritten change).text.length (f.rewritten change)).map Int.ofNat)
    cases hold : t.endOffset with
    | some o =>
      -- The caret that the template has stays.
      obtain ⟨hnonneg, hle⟩ := h.caret o hold
      obtain ⟨n, rfl⟩ := Int.eq_ofNat_of_zero_le hnonneg
      have hmoved := Text.moved_insert_before change f.text
        (Nat.le_refl t.text.length) (Int.ofNat_le.1 hle)
      exact congrArg (fun k : Nat => some (k : Int)) hmoved
    | none =>
      unfold insertedEnd?
      rw [place?_rewritten hf]
      cases hplace : f.place? Marker.endName with
      | none => rfl
      | some n =>
        -- The caret is that of the fragment, behind the template.
        have hmoved := Text.moved_insert_inside change f.text
          (Nat.le_refl t.text.length) (hf.place?_le hplace)
        rw [Text.moved_length] at hmoved
        exact congrArg (fun k : Nat => some (k : Int)) hmoved
  exact congrArg₂ Template.mk hfragment hcaret

/-- The same of many fragments. -/
theorem rewritten_foldl_add (change : Char → Text) (h : t.InRange)
    {written : List (Bool × Fragment)} (hall : ∀ child ∈ written, Fragment.InRange child.2) :
    (written.foldl (fun t child => t.add child.2) t).rewritten change =
      (written.map fun child => child.2.rewritten change).foldl Template.add
        (t.rewritten change) := by
  induction written generalizing t with
  | nil => rfl
  | cons first rest ih =>
    obtain ⟨hfirst, hrest⟩ := List.forall_mem_cons.1 hall
    rw [List.foldl_cons, List.map_cons, List.foldl_cons, ih (h.add hfirst) hrest,
      rewritten_add change h hfirst]

end Template

/-- A template is rewritten by rewriting what is written for each node. -/
theorem Generator.rewritten_assemble (change : Char → Text) (g : Generator) (filters : List Filter)
    (forest : List Node) :
    (g.assemble filters forest).value.rewritten change =
      ((Node.writtenAll g filters forest).map fun child => child.2.rewritten change).foldl
        Template.add ⟨.empty, none⟩ := by
  rw [value_assemble, Template.rewritten_foldl_add change Template.inRange_empty
    (Node.inRange_writtenAll g filters forest)]
  rfl

end Abbrev
