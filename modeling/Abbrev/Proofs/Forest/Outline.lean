import Abbrev.Node

/-!
# Forests as outlines

A forest can be written as an outline: its nodes in document order, each with its depth and without
its children. The outline keeps the order and the nesting (`outlineAll_injective`), so a statement
about the shape of a forest is a statement about a list. `Node.preorder` forgets the depths.

Proofs about forests go by `forest_induction`: a forest is empty, or a node with the forest inside
it and the forest behind it.
-/

namespace Abbrev.Node

/-- What holds of no nodes, and of a node before others if it holds of its children and of the
others, holds of every forest. -/
@[elab_as_elim]
theorem forest_induction {motive : List Node → Prop} (nil : motive [])
    (cons : ∀ (node : Node) (rest : List Node),
      motive node.children → motive rest → motive (node :: rest)) :
    ∀ forest, motive forest
  | [] => nil
  | ⟨kind, index, text, wrapped, children⟩ :: rest =>
    cons ⟨kind, index, text, wrapped, children⟩ rest (forest_induction nil cons children)
      (forest_induction nil cons rest)

mutual

/-- A node with all that is inside it, as entries of a depth and a node without children. -/
def outline (depth : Nat) : Node → List (Nat × Node)
  | ⟨kind, index, text, wrapped, children⟩ =>
    (depth, ⟨kind, index, text, wrapped, []⟩) :: outlineAll (depth + 1) children

/-- The entries of all nodes of a forest in document order. -/
def outlineAll (depth : Nat) : List Node → List (Nat × Node)
  | [] => []
  | node :: rest => node.outline depth ++ outlineAll depth rest

end

/-- The nodes of a forest in document order, each without its children. -/
def preorder (forest : List Node) : List Node :=
  (outlineAll 0 forest).map Prod.snd

/-! ## Outlines of parts -/

/-- The outline of two forests one after the other. -/
@[simp] theorem outlineAll_append (depth : Nat) (forest more : List Node) :
    outlineAll depth (forest ++ more) = outlineAll depth forest ++ outlineAll depth more := by
  induction forest with
  | nil => rw [List.nil_append, outlineAll, List.nil_append]
  | cons node rest ih => rw [List.cons_append, outlineAll, outlineAll, ih, List.append_assoc]

/-- The outline of forests that are put one after the other. -/
theorem outlineAll_flatMap {α : Type} (depth : Nat) (items : List α) (f : α → List Node) :
    outlineAll depth (items.flatMap f) = items.flatMap fun item => outlineAll depth (f item) := by
  induction items with
  | nil => rw [List.flatMap_nil, outlineAll, List.flatMap_nil]
  | cons item rest ih => rw [List.flatMap_cons, outlineAll_append, ih, List.flatMap_cons]

/-- The outline of a forest: its first node, what is inside that node, and the other nodes. -/
theorem outlineAll_cons (depth : Nat) (node : Node) (rest : List Node) :
    outlineAll depth (node :: rest) =
      (depth, { node with children := [] }) ::
        (outlineAll (depth + 1) node.children ++ outlineAll depth rest) := by
  obtain ⟨kind, index, text, wrapped, children⟩ := node
  rw [outlineAll, outline, List.cons_append]

/-- No entry of a forest stands above the forest's own depth. -/
theorem le_of_mem_outlineAll {forest : List Node} {depth : Nat} {entry : Nat × Node}
    (h : entry ∈ outlineAll depth forest) : depth ≤ entry.1 := by
  induction forest using forest_induction generalizing depth with
  | nil =>
    rw [outlineAll] at h
    cases h
  | cons node rest ihChildren ihRest =>
    rw [outlineAll_cons] at h
    rcases List.mem_cons.1 h with rfl | h
    · exact Nat.le_refl _
    · rcases List.mem_append.1 h with h | h
      · have hinside : depth + 1 ≤ entry.1 := ihChildren h
        exact Nat.le_of_succ_le hinside
      · exact ihRest h

/-- The document order does not depend on the depth at which a forest is put. -/
theorem map_snd_outlineAll (depth : Nat) (forest : List Node) :
    (outlineAll depth forest).map Prod.snd = preorder forest := by
  unfold preorder
  generalize 0 = other
  induction forest using forest_induction generalizing depth other with
  | nil => rw [outlineAll, outlineAll]
  | cons node rest ihChildren ihRest =>
    rw [outlineAll_cons, outlineAll_cons, List.map_cons, List.map_cons, List.map_append,
      List.map_append, ihChildren (depth + 1) (other + 1), ihRest depth other]

/-- The nodes of a forest are its first node, those inside it, and the others. -/
theorem preorder_cons (node : Node) (rest : List Node) :
    preorder (node :: rest) =
      { node with children := [] } :: (preorder node.children ++ preorder rest) := by
  rw [← map_snd_outlineAll 1 node.children]
  unfold preorder
  rw [outlineAll_cons, List.map_cons, List.map_append]

/-- The nodes of two forests one after the other. -/
@[simp] theorem preorder_append (forest more : List Node) :
    preorder (forest ++ more) = preorder forest ++ preorder more := by
  unfold preorder
  rw [outlineAll_append, List.map_append]

/-! ## An outline determines its forest -/

/-- The entries inside the first node are those up to the first one at the depth of the forest. -/
theorem takeWhile_outlineAll (depth : Nat) (inside rest : List Node) :
    (outlineAll (depth + 1) inside ++ outlineAll depth rest).takeWhile (fun e => depth < e.1) =
      outlineAll (depth + 1) inside := by
  have hinside : ∀ e ∈ outlineAll (depth + 1) inside, decide (depth < e.1) = true := by
    intro e he
    exact decide_eq_true (le_of_mem_outlineAll he)
  have hrest : (outlineAll depth rest).takeWhile (fun e => depth < e.1) = [] := by
    cases rest with
    | nil => rw [outlineAll, List.takeWhile_nil]
    | cons node more => rw [outlineAll_cons, List.takeWhile_cons_of_neg (by simp)]
  rw [List.takeWhile_append_of_pos hinside, hrest, List.append_nil]

/-- Two forests with the same outline are equal. -/
theorem outlineAll_injective (depth : Nat) {forest other : List Node}
    (h : outlineAll depth forest = outlineAll depth other) : forest = other := by
  induction forest using forest_induction generalizing depth other with
  | nil =>
    cases other with
    | nil => rfl
    | cons node rest =>
      rw [outlineAll_cons, outlineAll] at h
      cases h
  | cons node rest ihChildren ihRest =>
    cases other with
    | nil =>
      rw [outlineAll_cons, outlineAll] at h
      cases h
    | cons node' rest' =>
      rw [outlineAll_cons, outlineAll_cons] at h
      injection h with hentry htail
      -- The children end where the outline first comes back to the depth of the forest.
      have hinside : outlineAll (depth + 1) node.children =
          outlineAll (depth + 1) node'.children := by
        rw [← takeWhile_outlineAll depth node.children rest, htail, takeWhile_outlineAll]
      have hbehind : outlineAll depth rest = outlineAll depth rest' := by
        rw [hinside] at htail
        exact List.append_cancel_left htail
      have hchildren : node.children = node'.children := ihChildren (depth + 1) hinside
      have hrest : rest = rest' := ihRest depth hbehind
      obtain ⟨kind, index, text, wrapped, children⟩ := node
      obtain ⟨kind', index', text', wrapped', children'⟩ := node'
      simp only [Prod.mk.injEq, Node.mk.injEq, true_and, and_true] at hentry
      obtain ⟨rfl, rfl, rfl, rfl⟩ := hentry
      obtain rfl : children = children' := hchildren
      rw [hrest]

end Abbrev.Node
