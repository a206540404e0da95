import Abbrev.Expansion
import Abbrev.Proofs.Forest.Outline

/-!
# Levels of an expansion

An expansion is a forest that is not put together yet: its own nodes, and groups of nodes with the
number of levels that they still have to rise. What a `>` does to it is described by `landed` and
`risen`: the groups that have arrived stand after the node they were lifted out of, and the others
go on. This keeps the order of the groups as long as lower groups come first, or have nothing in
them that counts (`flatMap_landed_risen`).

`Expansion.outline` is the outline that an expansion will have when its groups have risen. An
expansion at depth zero is as high as it can be, so that its outline is that of its forest.
-/

namespace Abbrev.Expansion

variable {β : Type}

/-! ## Groups that land and groups that rise -/

/-- The order of groups in which those that land come before those that rise: the levels do not
fall, apart from groups in which `f` finds nothing. -/
def Ascending (f : Nat → List Node → List β) (groups : List Lifted) : Prop :=
  groups.Pairwise fun first second =>
    first.level ≤ second.level ∨ f first.level first.nodes = [] ∨ f second.level second.nodes = []

/-- No group lands that stands behind one that rises, unless one of the two has nothing in it. -/
theorem landed_of_rising {f : Nat → List Node → List β} {group : Lifted} {groups : List Lifted}
    (h : ∀ other ∈ groups, group.level ≤ other.level ∨ f group.level group.nodes = [] ∨
      f other.level other.nodes = []) (hlevel : group.level ≠ 0)
    (hgroup : f group.level group.nodes ≠ []) :
    ((groups.filter fun other => other.level = 0).flatMap fun other => f 0 other.nodes) = [] := by
  rw [List.flatMap_eq_nil_iff]
  intro other hother
  obtain ⟨hmem, hzero⟩ := List.mem_filter.1 hother
  have hzero : other.level = 0 := of_decide_eq_true hzero
  obtain hle | hnil | hnil := h other hmem
  · omega
  · exact absurd hnil hgroup
  · rwa [hzero] at hnil

/-- What is found in the groups that land and then in those that rise, is found in all groups. -/
theorem flatMap_landed_risen {f : Nat → List Node → List β} {groups : List Lifted}
    (h : Ascending f groups) :
    ((groups.filter fun group => group.level = 0).flatMap fun group => f 0 group.nodes) ++
        ((risen groups).flatMap fun group => f (group.level + 1) group.nodes) =
      groups.flatMap fun group => f group.level group.nodes := by
  unfold risen
  rw [List.flatMap_map]
  induction groups with
  | nil => rfl
  | cons group rest ih =>
    obtain ⟨hhead, htail⟩ := List.pairwise_cons.1 h
    have hrest := ih htail
    rw [List.flatMap_cons, ← hrest]
    by_cases hlevel : group.level = 0
    · simp [hlevel]
    · -- The group rises, so what lands from the rest comes before it: there is nothing on one side.
      have hsucc : group.level - 1 + 1 = group.level := by omega
      rw [List.filter_cons_of_neg (by simpa using hlevel),
        List.filter_cons_of_pos (by simpa using hlevel), List.flatMap_cons, hsucc]
      by_cases hgroup : f group.level group.nodes = []
      · rw [hgroup, List.nil_append, List.nil_append]
      · rw [landed_of_rising hhead hlevel hgroup, List.nil_append, List.nil_append]

/-! ## Outlines -/

/-- The outline of an expansion at a depth. A group that has to rise by `level` levels above the
next one belongs there, and no group rises above depth zero. -/
def outline (depth : Nat) (e : Expansion) : List (Nat × Node) :=
  Node.outlineAll depth e.nodes ++
    e.lifted.flatMap fun group => Node.outlineAll (depth - 1 - group.level) group.nodes

/-- The levels of the groups do not fall. -/
def Sorted (e : Expansion) : Prop :=
  e.lifted.Pairwise fun first second => first.level ≤ second.level

/-- Sorted groups are those that are ascending even if something counts in each of them. -/
theorem sorted_iff_ascending {e : Expansion} : Sorted e ↔ Ascending (fun _ _ => [()]) e.lifted := by
  simp [Sorted, Ascending]

/-- At depth zero an expansion has the outline of its forest: all groups are where they belong. -/
theorem outline_zero (e : Expansion) : e.outline 0 = Node.outlineAll 0 e.flatten := by
  unfold outline flatten
  rw [Node.outlineAll_append, Node.outlineAll_flatMap]
  simp only [Nat.zero_sub]

/-- Nodes before an expansion come before its outline. -/
theorem outline_behind (nodes : List Node) (e : Expansion) (depth : Nat) :
    (⟨nodes ++ e.nodes, e.lifted⟩ : Expansion).outline depth =
      Node.outlineAll depth nodes ++ e.outline depth := by
  unfold outline
  rw [Node.outlineAll_append, List.append_assoc]

/-! ## What climbs -/

/-- The groups that an expansion becomes when it climbs: its nodes have to rise to the next level,
and its groups one level further than before. -/
def raised (e : Expansion) : List Lifted :=
  ⟨0, e.nodes⟩ :: e.lifted.map fun group => { group with level := group.level + 1 }

/-- An expansion that climbs has the outline that it would have one level above. -/
theorem outline_raised (e : Expansion) (nodes : List Node) (depth : Nat) :
    (⟨nodes, raised e⟩ : Expansion).outline depth =
      Node.outlineAll depth nodes ++ e.outline (depth - 1) := by
  unfold outline raised
  rw [List.flatMap_cons, List.flatMap_map, Nat.sub_zero]
  simp only [Nat.sub_sub, Nat.add_comm _ 1, ← Nat.add_assoc]

/-- Climbing keeps groups ascending: the first group is not behind any other, and the others go up
alike. -/
theorem Ascending.raised {f : List Node → List β} {e : Expansion}
    (h : Ascending (fun _ => f) e.lifted) : Ascending (fun _ => f) (raised e) := by
  refine List.Pairwise.cons (fun _ _ => .inl (Nat.zero_le _)) (List.Pairwise.map _ ?_ h)
  rintro first second (hle | hnone)
  · exact .inl (Nat.add_le_add_right hle 1)
  · exact .inr hnone

/-- The groups of an expansion that climbs are sorted if they were before. -/
theorem sorted_raised {e : Expansion} (h : Sorted e) (nodes : List Node) :
    Sorted ⟨nodes, raised e⟩ := by
  rw [sorted_iff_ascending] at h ⊢
  exact h.raised

/-! ## What lands -/

/-- Groups lifted out of a node at some depth land at that depth or rise on from there. -/
theorem outline_landed_risen {groups : List Lifted} (h : Sorted ⟨[], groups⟩) (depth : Nat) :
    (⟨landed groups, risen groups⟩ : Expansion).outline depth =
      groups.flatMap fun group => Node.outlineAll (depth - group.level) group.nodes := by
  -- A group that rises is put off by one level in `risen`, and `outline` counts it from one above.
  have hrisen (group : Lifted) : Node.outlineAll (depth - 1 - group.level) group.nodes =
      Node.outlineAll (depth - (group.level + 1)) group.nodes := by
    rw [Nat.sub_sub, Nat.add_comm 1]
  calc (⟨landed groups, risen groups⟩ : Expansion).outline depth
      = ((groups.filter fun group => group.level = 0).flatMap fun group =>
            Node.outlineAll (depth - 0) group.nodes) ++
          (risen groups).flatMap fun group =>
            Node.outlineAll (depth - (group.level + 1)) group.nodes := by
        simp only [outline, landed, Node.outlineAll_flatMap, hrisen, Nat.sub_zero]
    _ = groups.flatMap fun group => Node.outlineAll (depth - group.level) group.nodes :=
        flatMap_landed_risen (f := fun level nodes => Node.outlineAll (depth - level) nodes)
          (h.imp Or.inl)

/-- The groups that go on stay ascending, each of them one level closer. -/
theorem Ascending.risen {f : List Node → List β} {groups : List Lifted}
    (h : Ascending (fun _ => f) groups) : Ascending (fun _ => f) (risen groups) := by
  refine List.Pairwise.map _ ?_ (h.filter _)
  rintro first second (hle | hnone)
  · exact .inl (Nat.sub_le_sub_right hle 1)
  · exact .inr hnone

/-- The groups that go on are sorted if all groups were. -/
theorem sorted_risen {groups : List Lifted} (h : Sorted ⟨[], groups⟩) (nodes : List Node) :
    Sorted ⟨nodes, risen groups⟩ := by
  rw [sorted_iff_ascending] at h ⊢
  exact h.risen

variable {grow : Int → Option Text → Expansion} {wrapped : Option Text} {node : Node}

/-- A node without children is filled with what grows for its copy, and followed by what lands. -/
theorem fillAll_singleton (h : node.children = []) :
    fillAll grow wrapped [node] =
      let inside := grow node.index wrapped
      ⟨{ node with children := inside.nodes } :: landed inside.lifted, risen inside.lifted⟩ := by
  obtain ⟨kind, index, text, own, children⟩ := node
  obtain rfl : children = [] := h
  simp [fillAll, Node.fill, nothing]

/-- A node that is filled has, at every depth, what is inside it one level below; what climbs out of
there lands behind the node or rises on. -/
theorem outline_fillAll_singleton (h : node.children = [])
    (hsorted : (grow node.index wrapped).Sorted) (depth : Nat) :
    (fillAll grow wrapped [node]).outline depth =
      (depth, node) :: (grow node.index wrapped).outline (depth + 1) := by
  obtain ⟨kind, index, text, own, children⟩ := node
  obtain rfl : children = [] := h
  rw [fillAll_singleton rfl]
  dsimp only
  rw [← List.singleton_append, outline_behind _ ⟨_, _⟩, outline_landed_risen hsorted, outline,
    Node.outlineAll_cons, Node.outlineAll, List.append_nil, List.cons_append, Nat.add_sub_cancel]

end Abbrev.Expansion
