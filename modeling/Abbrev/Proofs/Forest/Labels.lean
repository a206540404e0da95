import Mathlib.Algebra.Order.Group.Multiset
import Abbrev.Proofs.Forest.Outline

/-!
# What is in a forest, and how it is nested

Two views of a forest that each forget one side of it. `Node.labels` has what the nodes say, as a
multiset that knows nothing of order and nesting. `Node.shape` has the nesting and nothing else; the
number of childless nodes can be told from it (`Node.leafCountAll_map_shape`).
-/

namespace Abbrev

namespace Node

/-- What a node says, apart from its attributes and its place: the key of an element, and the text
of a literal or in an element. -/
def label (node : Node) : Option Text × Option Text :=
  (node.kind.key?, node.text)

/-- The labels of all nodes of a forest, at every depth. -/
def labels (forest : List Node) : Multiset (Option Text × Option Text) :=
  Multiset.ofList ((preorder forest).map label)

mutual

/-- The number of nodes without children among a node and those inside it. -/
def leafCount : Node → Nat
  | ⟨_, _, _, _, []⟩ => 1
  | ⟨_, _, _, _, child :: more⟩ => leafCountAll (child :: more)

/-- The number of nodes without children in a forest, at every depth. -/
def leafCountAll : List Node → Nat
  | [] => 0
  | node :: rest => node.leafCount + leafCountAll rest

end

mutual

/-- A node of which nothing is left but the nesting of the nodes inside it. -/
def shape : Node → Node
  | ⟨_, _, _, _, children⟩ => ⟨.literal, 0, none, none, shapeAll children⟩

/-- The shapes of the nodes of a forest. -/
def shapeAll : List Node → List Node
  | [] => []
  | node :: rest => node.shape :: shapeAll rest

end

/-! ## Labels of parts -/

/-- No nodes, no labels. -/
@[simp] theorem labels_nil : labels [] = 0 := by
  unfold labels preorder
  rw [outlineAll]
  rfl

/-- The labels of two forests one after the other. -/
@[simp] theorem labels_append (forest more : List Node) :
    labels (forest ++ more) = labels forest + labels more := by
  unfold labels
  rw [preorder_append, List.map_append, Multiset.coe_add]

/-- The labels of a forest: that of its first node, those inside that node, and the others. -/
theorem labels_cons (node : Node) (rest : List Node) :
    labels (node :: rest) = {node.label} + labels node.children + labels rest := by
  unfold labels
  rw [preorder_cons, List.map_cons, List.map_append, ← Multiset.cons_coe, ← Multiset.coe_add,
    ← Multiset.singleton_add, add_assoc]
  rfl

/-- The labels of forests that are put one after the other. -/
theorem labels_flatMap {α : Type} (items : List α) (f : α → List Node) :
    labels (items.flatMap f) = (items.map fun item => labels (f item)).sum := by
  induction items with
  | nil => exact labels_nil
  | cons item rest ih => rw [List.flatMap_cons, labels_append, ih, List.map_cons, List.sum_cons]

/-! ## Shapes -/

/-- The shapes of a forest, node by node. -/
theorem shapeAll_eq_map (forest : List Node) : shapeAll forest = forest.map shape := by
  induction forest with
  | nil => rw [shapeAll, List.map_nil]
  | cons node rest ih => rw [shapeAll, List.map_cons, ih]

/-- The children of a shape are the shapes of the children. -/
@[simp] theorem children_shape (node : Node) : node.shape.children = node.children.map shape := by
  obtain ⟨kind, index, text, wrapped, children⟩ := node
  rw [shape, shapeAll_eq_map]

/-- The childless nodes of a forest: the first node if it has no children, or else those inside it,
and those of the other nodes. -/
theorem leafCountAll_cons (node : Node) (rest : List Node) :
    leafCountAll (node :: rest) =
      (if node.children = [] then 1 else leafCountAll node.children) + leafCountAll rest := by
  obtain ⟨kind, index, text, wrapped, _ | ⟨child, more⟩⟩ := node
  · rfl
  · rw [leafCountAll, leafCount, if_neg (List.cons_ne_nil _ _)]

/-- The shape of a forest tells how many childless nodes it has. -/
theorem leafCountAll_map_shape (forest : List Node) :
    leafCountAll (forest.map shape) = leafCountAll forest := by
  induction forest using forest_induction with
  | nil => rfl
  | cons node rest ihChildren ihRest =>
    rw [List.map_cons, leafCountAll_cons, leafCountAll_cons, ihRest, children_shape, ihChildren]
    simp only [List.map_eq_nil_iff]

end Node

end Abbrev
