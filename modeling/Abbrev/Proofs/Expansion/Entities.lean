import Mathlib.Algebra.Order.Group.Multiset
import Abbrev.Proofs.Expansion.Census

/-!
# Nodes that are known by a number

Two nodes that say the same are equal, so a list of nodes cannot tell in which of its places
something was put. An entity is a node with a number of its own. The nodes inside an entity can be
changed wherever the entity stands in a forest (`Entity.changeAll`), and a number says which of two
equal nodes is meant.

Entities are made from nodes by counting on (`Entity.ofNodes`), so that no number is given twice
(`Entity.exists_ofNodes`). With them, the nodes that a forest had before some number was given can
be told from those that came later (`Entity.restrictAll`).
-/

namespace Abbrev

/-- A node with a number of its own. -/
structure Entity where
  id : Nat
  kind : NodeKind
  index : Int
  text : Option Text
  wrapped : Option Text
  children : List Entity

namespace Entity

mutual

/-- An entity without the numbers. -/
def node : Entity → Node
  | ⟨_, kind, index, text, wrapped, children⟩ => ⟨kind, index, text, wrapped, nodes children⟩

/-- Entities without their numbers. -/
def nodes : List Entity → List Node
  | [] => []
  | e :: rest => e.node :: nodes rest

end

mutual

/-- A node as an entity with the number `next`, and with the numbers behind it for the nodes inside
it; and the first number that is left. -/
def ofNode (next : Nat) : Node → Entity × Nat
  | ⟨kind, index, text, wrapped, children⟩ =>
    let inside := ofNodes (next + 1) children
    (⟨next, kind, index, text, wrapped, inside.1⟩, inside.2)

/-- Nodes as entities with the numbers from `next` on, in document order; and the first number that
is left. -/
def ofNodes (next : Nat) : List Node → List Entity × Nat
  | [] => ([], next)
  | node :: rest =>
    let first := ofNode next node
    let others := ofNodes first.2 rest
    (first.1 :: others.1, others.2)

end

mutual

/-- The numbers of an entity and of those inside it. -/
def ids : Entity → Multiset Nat
  | ⟨id, _, _, _, _, children⟩ => {id} + idsAll children

/-- The numbers of entities and of those inside them. -/
def idsAll : List Entity → Multiset Nat
  | [] => 0
  | e :: rest => e.ids + idsAll rest

end

mutual

/-- Changes the children of the entity with a number, if that is this one or one inside it. -/
def change (id : Nat) (f : List Entity → Option (List Entity)) : Entity → Option Entity
  | ⟨own, kind, index, text, wrapped, children⟩ =>
    (if own = id then f children else changeAll id f children).map fun changed =>
      ⟨own, kind, index, text, wrapped, changed⟩

/-- Changes the children of the entity with a number. There is no result if no entity has the
number, or if the children cannot be changed. -/
def changeAll (id : Nat) (f : List Entity → Option (List Entity)) :
    List Entity → Option (List Entity)
  | [] => none
  | e :: rest => (e.change id f).map (· :: rest) <|> (changeAll id f rest).map (e :: ·)

end

mutual

/-- An entity without those inside it whose numbers are not below `start`. -/
def restrict (start : Nat) : Entity → Entity
  | ⟨id, kind, index, text, wrapped, children⟩ =>
    ⟨id, kind, index, text, wrapped, restrictAll start children⟩

/-- The entities with numbers below `start`, each without those inside it that have others. -/
def restrictAll (start : Nat) : List Entity → List Entity
  | [] => []
  | e :: rest =>
    if e.id < start then e.restrict start :: restrictAll start rest else restrictAll start rest

end

/-- What holds of no entities, and of an entity before others if it holds of its children and of the
others, holds of all lists of entities. -/
@[elab_as_elim]
theorem forest_induction {motive : List Entity → Prop} (nil : motive [])
    (cons : ∀ (e : Entity) (rest : List Entity),
      motive e.children → motive rest → motive (e :: rest)) :
    ∀ forest, motive forest
  | [] => nil
  | ⟨id, kind, index, text, wrapped, children⟩ :: rest =>
    cons ⟨id, kind, index, text, wrapped, children⟩ rest (forest_induction nil cons children)
      (forest_induction nil cons rest)

variable {e : Entity} {forest more : List Entity} {id start : Nat}
  {f : List Entity → Option (List Entity)}

/-! ## Nodes and numbers -/

/-- No entities, no nodes. -/
@[simp] theorem nodes_nil : nodes [] = [] := by
  rw [nodes]

/-- The node of the first entity, and those of the others. -/
@[simp] theorem nodes_cons (e : Entity) (rest : List Entity) :
    nodes (e :: rest) = e.node :: nodes rest := by
  rw [nodes]

/-- The nodes of entities one after the other. -/
@[simp] theorem nodes_append (forest more : List Entity) :
    nodes (forest ++ more) = nodes forest ++ nodes more := by
  induction forest with
  | nil => rw [nodes_nil, List.nil_append, List.nil_append]
  | cons e rest ih => rw [List.cons_append, nodes_cons, nodes_cons, ih, List.cons_append]

/-- A node has the nodes of the children inside it. -/
theorem children_node (e : Entity) : e.node.children = nodes e.children := by
  obtain ⟨id, kind, index, text, wrapped, children⟩ := e
  rw [node]

/-- An entity says the number of the copy of its node. -/
theorem index_node (e : Entity) : e.node.index = e.index := by
  obtain ⟨id, kind, index, text, wrapped, children⟩ := e
  rw [node]

/-- An entity with other children is its node with other children. -/
theorem node_withChildren (e : Entity) (forest : List Entity) :
    ({ e with children := forest } : Entity).node =
      { e.node with children := nodes forest } := by
  obtain ⟨id, kind, index, text, wrapped, children⟩ := e
  rw [node, node]

/-- There are nodes if there are entities. -/
theorem nodes_eq_nil_iff : nodes forest = [] ↔ forest = [] := by
  cases forest with
  | nil => simp
  | cons e rest => simp

/-- The number of an entity, and those inside it. -/
theorem ids_eq (e : Entity) : e.ids = {e.id} + idsAll e.children := by
  obtain ⟨id, kind, index, text, wrapped, children⟩ := e
  rw [ids]

/-- No entities, no numbers. -/
@[simp] theorem idsAll_nil : idsAll [] = 0 := by
  rw [idsAll]

/-- The numbers of the first entity, and those of the others. -/
@[simp] theorem idsAll_cons (e : Entity) (rest : List Entity) :
    idsAll (e :: rest) = e.ids + idsAll rest := by
  rw [idsAll]

/-- The numbers of entities one after the other. -/
@[simp] theorem idsAll_append (forest more : List Entity) :
    idsAll (forest ++ more) = idsAll forest + idsAll more := by
  induction forest with
  | nil => rw [idsAll_nil, List.nil_append, zero_add]
  | cons e rest ih => rw [List.cons_append, idsAll_cons, idsAll_cons, ih, add_assoc]

/-- The number of an entity is among its numbers. -/
theorem id_mem_ids (e : Entity) : e.id ∈ e.ids := by
  rw [ids_eq, Multiset.mem_add]
  exact .inl (Multiset.mem_singleton_self e.id)

/-- The number of an entity of a forest is among those of the forest. -/
theorem id_mem_idsAll (h : e ∈ forest) : e.id ∈ idsAll forest := by
  induction forest with
  | nil => cases h
  | cons first rest ih =>
    rw [idsAll_cons, Multiset.mem_add]
    rcases List.mem_cons.1 h with rfl | h
    · exact .inl (id_mem_ids e)
    · exact .inr (ih h)

/-- Nodes become entities with a row of numbers, and nothing else about them changes. -/
theorem exists_ofNodes (next : Nat) (forest : List Node) :
    nodes (ofNodes next forest).1 = forest ∧
      ∃ count, (ofNodes next forest).2 = next + count ∧
        idsAll (ofNodes next forest).1 = (List.range' next count : Multiset Nat) := by
  induction forest using Node.forest_induction generalizing next with
  | nil =>
    rw [ofNodes]
    exact ⟨nodes_nil, 0, rfl, idsAll_nil⟩
  | cons node rest ihChildren ihRest =>
    obtain ⟨kind, index, text, wrapped, children⟩ := node
    obtain ⟨hinside, inner, hafter, hinner⟩ := ihChildren (next + 1)
    obtain ⟨hothers, outer, hlast, houter⟩ := ihRest (ofNodes (next + 1) children).2
    rw [ofNodes, ofNode]
    dsimp only at hinside hafter hinner ⊢
    refine ⟨by rw [nodes_cons, Entity.node, hinside, hothers], 1 + inner + outer, ?_, ?_⟩
    · rw [hlast, hafter]
      omega
    · have hrow : List.range' next (1 + inner + outer) =
          next :: (List.range' (next + 1) inner ++ List.range' (next + 1 + inner) outer) := by
        rw [List.range'_append_1, add_assoc, add_comm 1, List.range'_succ]
      rw [idsAll_cons, ids, hinner, houter, hafter, hrow, ← Multiset.cons_coe,
        ← Multiset.coe_add, ← Multiset.singleton_add, add_assoc]

/-! ## Changing the children of one entity -/

/-- An entity is found at once. -/
theorem change_self (e : Entity) (f : List Entity → Option (List Entity)) :
    e.change e.id f = (f e.children).map fun changed => { e with children := changed } := by
  obtain ⟨id, kind, index, text, wrapped, children⟩ := e
  rw [change, if_pos rfl]

/-- Another entity is looked for inside. -/
theorem change_of_ne (h : e.id ≠ id) (f : List Entity → Option (List Entity)) :
    e.change id f =
      (changeAll id f e.children).map fun changed => { e with children := changed } := by
  obtain ⟨own, kind, index, text, wrapped, children⟩ := e
  rw [change, if_neg h]

/-- The first entity, if the one that is meant is there, is changed and nothing else. -/
theorem changeAll_cons_of_change {changed : Entity} (h : e.change id f = some changed)
    (rest : List Entity) : changeAll id f (e :: rest) = some (changed :: rest) := by
  rw [changeAll, h]
  rfl

/-- Nothing is changed if no entity has the number. -/
theorem changeAll_eq_none (h : id ∉ idsAll forest) (f : List Entity → Option (List Entity)) :
    changeAll id f forest = none := by
  induction forest using forest_induction with
  | nil => rw [changeAll]
  | cons e rest ihChildren ihRest =>
    rw [idsAll_cons, ids_eq, Multiset.mem_add, Multiset.mem_add, Multiset.mem_singleton, not_or,
      not_or] at h
    obtain ⟨⟨hne, hinside⟩, hbehind⟩ := h
    rw [changeAll, change_of_ne (Ne.symm hne), ihChildren hinside, ihRest hbehind]
    rfl

/-- Entities without the number stay as they are before the others. -/
theorem changeAll_append (h : id ∉ idsAll forest) (f : List Entity → Option (List Entity))
    (more : List Entity) :
    changeAll id f (forest ++ more) = (changeAll id f more).map (forest ++ ·) := by
  induction forest with
  | nil => exact Option.map_id'.symm
  | cons e rest ih =>
    rw [idsAll_cons, Multiset.mem_add, not_or] at h
    have hfirst : e.change id f = none := by
      have hnone : changeAll id f [e] = none :=
        changeAll_eq_none (by rw [idsAll_cons, idsAll_nil, add_zero]; exact h.1) f
      rw [changeAll] at hnone
      cases hchange : e.change id f with
      | none => rfl
      | some changed =>
        rw [hchange] at hnone
        cases hnone
    rw [List.cons_append, changeAll, hfirst, ih h.2]
    cases changeAll id f more <;> rfl

/-! ## What was there before -/

/-- Entities before others that stay are those that stay of both. -/
@[simp] theorem restrictAll_append (start : Nat) (forest more : List Entity) :
    restrictAll start (forest ++ more) = restrictAll start forest ++ restrictAll start more := by
  induction forest with
  | nil => rw [restrictAll, List.nil_append, List.nil_append]
  | cons e rest ih =>
    rw [List.cons_append, restrictAll, restrictAll, ih]
    split <;> rfl

/-- Nothing stays of entities with later numbers. -/
theorem restrictAll_eq_nil (h : ∀ e ∈ forest, start ≤ e.id) : restrictAll start forest = [] := by
  induction forest with
  | nil => rw [restrictAll]
  | cons e rest ih =>
    obtain ⟨he, hrest⟩ := List.forall_mem_cons.1 h
    rw [restrictAll, if_neg (Nat.not_lt.2 he), ih hrest]

/-- All stays of entities with earlier numbers. -/
theorem restrictAll_eq_self (h : ∀ id ∈ idsAll forest, id < start) :
    restrictAll start forest = forest := by
  induction forest using forest_induction with
  | nil => rw [restrictAll]
  | cons e rest ihChildren ihRest =>
    obtain ⟨id, kind, index, text, wrapped, children⟩ := e
    have hbelow {id : Nat} (hid : id ∈ idsAll children ∨ id ∈ idsAll rest) : id < start := by
      refine h id ?_
      rw [idsAll_cons, ids, Multiset.mem_add, Multiset.mem_add]
      exact hid.imp_left .inr
    have hown : id < start := h id (id_mem_idsAll (e := ⟨id, kind, index, text, wrapped, children⟩)
      List.mem_cons_self)
    rw [restrictAll, if_pos hown, restrict, ihChildren fun id hid => hbelow (.inl hid),
      ihRest fun id hid => hbelow (.inr hid)]

/-- What stays of an entity with other children. -/
theorem restrict_eq (start : Nat) (e : Entity) :
    e.restrict start = { e with children := restrictAll start e.children } := by
  obtain ⟨id, kind, index, text, wrapped, children⟩ := e
  rw [restrict]

/-- If the same stays of the children of one entity when they are changed, the same stays of all. -/
theorem restrictAll_changeAll
    (hf : ∀ children changed, f children = some changed →
      restrictAll start changed = restrictAll start children)
    {changed : List Entity} (h : changeAll id f forest = some changed) :
    restrictAll start changed = restrictAll start forest := by
  induction forest using forest_induction generalizing changed with
  | nil =>
    rw [changeAll] at h
    cases h
  | cons e rest ihChildren ihRest =>
    rw [changeAll] at h
    cases hfirst : e.change id f with
    | none =>
      rw [hfirst] at h
      obtain ⟨others, hothers, rfl⟩ := Option.map_eq_some_iff.1 h
      rw [restrictAll, restrictAll, ihRest hothers]
    | some first =>
      rw [hfirst] at h
      obtain rfl : first :: rest = changed := Option.some.inj h
      have hsame : first.id = e.id ∧ first.restrict start = e.restrict start := by
        by_cases hid : e.id = id
        · subst hid
          rw [change_self] at hfirst
          obtain ⟨children, hchildren, rfl⟩ := Option.map_eq_some_iff.1 hfirst
          exact ⟨rfl, by rw [restrict_eq, restrict_eq, hf _ _ hchildren]⟩
        · rw [change_of_ne hid] at hfirst
          obtain ⟨children, hchildren, rfl⟩ := Option.map_eq_some_iff.1 hfirst
          exact ⟨rfl, by rw [restrict_eq, restrict_eq, ihChildren hchildren]⟩
      rw [restrictAll, restrictAll, hsame.1, hsame.2]

end Entity

end Abbrev
