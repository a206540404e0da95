import Abbrev.Proofs.Expansion.Attaching

/-!
# Attaching in place is filling

To attach in place is to do what the recursion does (`Abbreviation.attach_child`). Between the two
stands the recursion over entities (`Entity.fillAll`): it knows the numbers that a visit goes by,
but no paths and no cursors.

That the visits come to the same as this recursion is shown for the children of any entity, wherever
that stands and whatever has been done to the children before (`Attaching.Fills`). The visits to the
childless entities in one child leave the entity with the filled child and what has landed behind
it; and the groups that went on have been pushed to its surroundings (`Attaching.fills_cons`). Which
text goes to which number is a matter of the recursions alone (`Entity.fillAll_eq`).

Only entities with new numbers are put in, so without these, there is at any time what was there
before (`Attaching.Keeps`).
-/

namespace Abbrev

/-! ## Filling entities -/

namespace EntityGroup

/-- The nodes of what lands. -/
theorem nodes_landed (groups : List EntityGroup) :
    Entity.nodes (landed groups) = Expansion.landed (groups.map lifted) := by
  induction groups with
  | nil => exact Entity.nodes_nil
  | cons group rest ih =>
    obtain ⟨level, entities⟩ := group
    unfold landed Expansion.landed at ih ⊢
    cases level with
    | zero => simpa [lifted] using ih
    | succ level => simpa [lifted] using ih

/-- The groups of nodes that go on. -/
theorem map_lifted_risen (groups : List EntityGroup) :
    (risen groups).map lifted = Expansion.risen (groups.map lifted) := by
  unfold risen Expansion.risen
  rw [List.map_map, List.filter_map, List.map_map]
  rfl

/-- Lifted nodes become groups with a row of numbers, and nothing else about them changes. -/
theorem exists_ofLifted (next : Nat) (groups : List Lifted) :
    (ofLifted next groups).1.map lifted = groups ∧
      ∃ count, (ofLifted next groups).2 = next + count ∧
        idsIn (ofLifted next groups).1 = (List.range' next count : Multiset Nat) := by
  induction groups generalizing next with
  | nil => exact ⟨rfl, 0, rfl, rfl⟩
  | cons group rest ih =>
    obtain ⟨level, nodes⟩ := group
    obtain ⟨hnodes, first, hafter, hfirst⟩ := Entity.exists_ofNodes next nodes
    obtain ⟨hrest, others, hlast, hothers⟩ := ih (Entity.ofNodes next nodes).2
    rw [ofLifted]
    dsimp only
    refine ⟨by rw [List.map_cons, hrest, lifted, hnodes], first + others, ?_, ?_⟩
    · rw [hlast, hafter, add_assoc]
    · unfold idsIn at hothers ⊢
      rw [List.map_cons, List.sum_cons, hothers, hfirst, hafter, Multiset.coe_add,
        List.range'_append_1]

end EntityGroup

namespace Entity

mutual

/-- Fills each childless entity inside an entity with what `grow` makes for it. Groups that are
lifted out of the entity are returned beside its node. -/
def fill (grow : Nat → Int → Expansion) : Entity → Node × List Lifted
  | ⟨id, kind, index, text, wrapped, []⟩ =>
    let inside := grow id index
    (⟨kind, index, text, wrapped, inside.nodes⟩, inside.lifted)
  | ⟨_, kind, index, text, wrapped, child :: more⟩ =>
    let inside := fillAll grow (child :: more)
    (⟨kind, index, text, wrapped, inside.nodes⟩, inside.lifted)

/-- Fills the entities of a forest. Each is followed by the groups that have landed behind it. -/
def fillAll (grow : Nat → Int → Expansion) : List Entity → Expansion
  | [] => .nothing
  | e :: rest =>
    let filled := e.fill grow
    let more := fillAll grow rest
    ⟨filled.1 :: Expansion.landed filled.2 ++ more.nodes, Expansion.risen filled.2 ++ more.lifted⟩

end

/-- What comes to be inside an entity that is filled. -/
def inside (grow : Nat → Int → Expansion) (e : Entity) : Expansion :=
  if e.children = [] then grow e.id e.index else fillAll grow e.children

/-- Filling a forest of entities: the first one with what is inside it then, the groups that land
behind it, and the rest of the forest. -/
theorem fillAll_cons (grow : Nat → Int → Expansion) (e : Entity) (rest : List Entity) :
    fillAll grow (e :: rest) =
      Expansion.append
        ⟨{ e.node with children := (e.inside grow).nodes } ::
            Expansion.landed (e.inside grow).lifted,
          Expansion.risen (e.inside grow).lifted⟩
        (fillAll grow rest) := by
  have hfill : e.fill grow =
      ({ e.node with children := (e.inside grow).nodes }, (e.inside grow).lifted) := by
    obtain ⟨id, kind, index, text, wrapped, _ | ⟨child, more⟩⟩ := e
    · rw [fill, inside, if_pos rfl, node]
    · rw [fill, inside, if_neg (List.cons_ne_nil _ _), node]
  rw [fillAll, hfill]
  rfl

/-- The only way to a childless entity, or those to the childless entities inside. -/
theorem leafPaths_eq (above : List Nat) (e : Entity) :
    e.leafPaths above =
      if e.children = [] then [⟨e.id, e.index, above⟩]
      else leafPathsAll (e.id :: above) e.children := by
  obtain ⟨id, kind, index, text, wrapped, _ | ⟨child, more⟩⟩ := e
  · rw [leafPaths, if_pos rfl]
  · rw [leafPaths, if_neg (List.cons_ne_nil _ _)]

end Entity

/-! ## Visits -/

namespace Attaching

variable {s : Attaching} {p : Surroundings} {e : Entity} {pending : Multiset Nat}
  {grow : Nat → Int → Expansion}

/-- A childless entity is given children with numbers from `next` on; there are groups with the
numbers behind those. None of these numbers is given to anything that is there or is to come. -/
theorem Holds.put (h : Holds s p e pending) (hleaf : e.children = []) {children : List Entity}
    {waiting : Multiset Nat} {count : Nat}
    (hnew : Entity.idsAll children + waiting = (List.range' s.next count : Multiset Nat)) :
    Holds { s with
        next := s.next + count
        nodes := p.plug { e with children := children } }
      p { e with children := children } (waiting + pending) := by
  have hids : p.ids + ({ e with children := children } : Entity).ids + (waiting + pending) =
      p.ids + e.ids + pending + (List.range' s.next count : Multiset Nat) := by
    rw [Entity.ids_eq, Entity.ids_eq e, hleaf, Entity.idsAll_nil, ← hnew]
    abel
  refine ⟨rfl, h.lifted, h.cursors, ?_, ?_⟩
  · rw [hids, Multiset.nodup_add]
    refine ⟨h.nodup, Multiset.coe_nodup.2 List.nodup_range', Multiset.disjoint_left.2 ?_⟩
    intro id hid hid'
    have hlow := (List.mem_range'_1.1 (Multiset.mem_coe.1 hid')).1
    have hhigh := h.bounded id hid
    omega
  · rw [hids]
    intro id hid
    show id < s.next + count
    rcases Multiset.mem_add.1 hid with hid | hid
    · have hhigh := h.bounded id hid
      omega
    · exact (List.mem_range'_1.1 (Multiset.mem_coe.1 hid)).2

/-- A visit fills a childless entity, and pushes what is lifted out of it to its surroundings. -/
theorem Holds.visit (h : Holds s p e pending) (hleaf : e.children = [])
    (grow : Nat → Int → Expansion) :
    ∃ (s' : Attaching) (filled : List Entity) (groups : List EntityGroup),
      Attaching.visit grow s ⟨e.id, e.index, p.path⟩ = some s' ∧
      Entity.nodes filled = (grow e.id e.index).nodes ∧
      groups.map EntityGroup.lifted = (grow e.id e.index).lifted ∧
      Holds s' (groups.foldl Surroundings.push p) { e with children := filled } pending ∧
      SameCursors (e.id :: p.path) s s' := by
  obtain ⟨hnodes, first, hafter, hfirst⟩ := Entity.exists_ofNodes s.next (grow e.id e.index).nodes
  generalize hinside : Entity.ofNodes s.next (grow e.id e.index).nodes = inside at *
  obtain ⟨hlifted, more, hlast, hmore⟩ :=
    EntityGroup.exists_ofLifted inside.2 (grow e.id e.index).lifted
  generalize hgroups : EntityGroup.ofLifted inside.2 (grow e.id e.index).lifted = groups at *
  -- The leaf is found with the entities around it.
  have hchange : Entity.changeAll e.id (fun children => some (children ++ inside.1)) s.nodes =
      some (p.plug { e with children := inside.1 }) := by
    have hself := Entity.change_self e fun children => some (children ++ inside.1)
    rw [hleaf, List.nil_append] at hself
    rw [h.nodes]
    exact Surroundings.changeAll_plug h.id_notMem hself
  have hnew : Entity.idsAll inside.1 + EntityGroup.idsIn groups.1 =
      (List.range' s.next (first + more) : Multiset Nat) := by
    rw [hfirst, hmore, hafter, Multiset.coe_add, List.range'_append_1]
  have hnext : s.next + (first + more) = groups.2 := by
    rw [hlast, hafter, add_assoc]
  obtain ⟨s', hdeliver, hholds, -, hsame⟩ := (h.put hleaf hnew).deliverAll
  refine ⟨s', inside.1, groups.1, ?_, hnodes, hlifted, hholds, hsame⟩
  rw [hnext] at hdeliver
  unfold Attaching.visit
  dsimp only
  rw [hinside, hgroups, hchange]
  exact hdeliver

/-- What stands behind an entity has other numbers than the entity and those around it. -/
theorem Holds.notMem_of_mem_after {frame : Frame} {id : Nat}
    (h : Holds s (.inside frame p) e pending) (hid : id ∈ Entity.idsAll frame.after) :
    id ∉ e.ids ∧ id ∉ frame.owner.id :: p.path := by
  have hle : Entity.idsAll frame.after + (e.ids + ({frame.owner.id} + p.ids)) ≤
      (Surroundings.inside frame p).ids + e.ids + pending := by
    rw [Surroundings.ids]
    calc Entity.idsAll frame.after + (e.ids + ({frame.owner.id} + p.ids))
        ≤ Entity.idsAll frame.after + (e.ids + ({frame.owner.id} + p.ids)) +
            (Entity.idsAll frame.before + Entity.idsAll frame.landed + pending) :=
          Multiset.le_add_right _ _
      _ = {frame.owner.id} + Entity.idsAll frame.before + Entity.idsAll frame.landed +
            Entity.idsAll frame.after + p.ids + e.ids + pending := by abel
  have hdisjoint := (Multiset.nodup_add.1 (Multiset.nodup_of_le hle h.nodup)).2.2
  have hother := Multiset.disjoint_left.1 hdisjoint hid
  rw [Multiset.mem_add, Multiset.mem_add, Multiset.mem_singleton, not_or, not_or] at hother
  obtain ⟨hinside, howner, houter⟩ := hother
  exact ⟨hinside, List.not_mem_cons_of_ne_of_not_mem howner (mt p.mem_ids_of_mem_path houter)⟩

/-- The visits to the childless entities among the children of an entity fill these children,
wherever the entity stands. The children before them may be filled already; the cursors of those
that are visited are not in use yet. -/
def Fills (grow : Nat → Int → Expansion) (forest : List Entity) : Prop :=
  ∀ (owner : Entity) (before : List Entity) (p : Surroundings) (s : Attaching)
    (pending : Multiset Nat), Holds s p { owner with children := before ++ forest } pending →
    (∀ id ∈ Entity.idsAll forest, s.cursors.lookup id = none) →
    ∃ (s' : Attaching) (filled : List Entity) (groups : List EntityGroup),
      (Entity.leafPathsAll (owner.id :: p.path) forest).foldlM (visit grow) s = some s' ∧
      Entity.nodes filled = (Entity.fillAll grow forest).nodes ∧
      groups.map EntityGroup.lifted = (Entity.fillAll grow forest).lifted ∧
      Holds s' (groups.foldl Surroundings.push p) { owner with children := before ++ filled }
        pending ∧
      ∀ id, id ∉ Entity.idsAll forest → id ∉ owner.id :: p.path →
        s'.cursors.lookup id = s.cursors.lookup id

/-- The visits to the childless entities in an entity fill it, and push what is lifted out of it to
its surroundings. -/
theorem Holds.visitAll (h : Holds s p e pending) (hfills : Fills grow e.children)
    (hnone : ∀ id ∈ e.ids, s.cursors.lookup id = none) :
    ∃ (s' : Attaching) (filled : List Entity) (groups : List EntityGroup),
      (e.leafPaths p.path).foldlM (Attaching.visit grow) s = some s' ∧
      Entity.nodes filled = (e.inside grow).nodes ∧
      groups.map EntityGroup.lifted = (e.inside grow).lifted ∧
      Holds s' (groups.foldl Surroundings.push p) { e with children := filled } pending ∧
      ∀ id, id ∉ e.ids → id ∉ p.path → s'.cursors.lookup id = s.cursors.lookup id := by
  have hids : ∀ id, id ∉ e.ids → id ∉ Entity.idsAll e.children ∧ id ≠ e.id := by
    intro id hid
    rw [Entity.ids_eq, Multiset.mem_add, Multiset.mem_singleton, not_or] at hid
    exact ⟨hid.2, hid.1⟩
  rw [Entity.leafPaths_eq, Entity.inside]
  by_cases hleaf : e.children = []
  · obtain ⟨s', filled, groups, hvisit, hnodes, hlifted, hholds, hsame⟩ := h.visit hleaf grow
    rw [if_pos hleaf, if_pos hleaf]
    refine ⟨s', filled, groups, ?_, hnodes, hlifted, hholds, fun id hid hpath => hsame id ?_⟩
    · rw [List.foldlM_cons, hvisit]
      rfl
    · exact List.not_mem_cons_of_ne_of_not_mem (hids id hid).2 hpath
  · have hchildren : ∀ id ∈ Entity.idsAll e.children, s.cursors.lookup id = none := by
      intro id hid
      refine hnone id ?_
      rw [Entity.ids_eq, Multiset.mem_add]
      exact .inr hid
    have hself : ({ e with children := [] ++ e.children } : Entity) = e := by
      obtain ⟨id, kind, index, text, wrapped, children⟩ := e
      rfl
    obtain ⟨s', filled, groups, hvisit, hnodes, hlifted, hholds, hsame⟩ :=
      hfills e [] p s pending (by rwa [hself]) hchildren
    rw [if_neg hleaf, if_neg hleaf]
    refine ⟨s', filled, groups, hvisit, hnodes, hlifted, hholds, fun id hid hpath => ?_⟩
    exact hsame id (hids id hid).1 (List.not_mem_cons_of_ne_of_not_mem (hids id hid).2 hpath)

/-- The first of some children is filled, and then the others. -/
theorem fills_cons {rest : List Entity} (hchildren : Fills grow e.children)
    (hrest : Fills grow rest) : Fills grow (e :: rest) := by
  intro owner before p s pending h hnone
  rw [Entity.idsAll_cons] at hnone
  have hown : ∀ id ∈ e.ids, s.cursors.lookup id = none :=
    fun id hid => hnone id (Multiset.mem_add.2 (.inl hid))
  have hfirst : Holds s (.inside ⟨owner, before, [], rest⟩ p) e pending :=
    holds_inside.2 ⟨hown e.id e.id_mem_ids, h⟩
  have helsewhere : ∀ id ∈ Entity.idsAll rest, id ∉ e.ids ∧ id ∉ owner.id :: p.path :=
    fun id hid => hfirst.notMem_of_mem_after hid
  obtain ⟨s₁, filled₁, groups₁, hvisits₁, hnodes₁, hlifted₁, hholds₁, hsame₁⟩ :=
    hfirst.visitAll hchildren hown
  rw [Surroundings.foldl_push_inside] at hholds₁
  -- The first child with what has landed behind it goes to the children that come before.
  have hsecond : Holds s₁ ((EntityGroup.risen groups₁).foldl Surroundings.push p)
      { owner with children :=
        (before ++ { e with children := filled₁ } :: EntityGroup.landed groups₁) ++ rest }
      pending := by
    rw [List.append_assoc, List.cons_append]
    exact (holds_inside.1 hholds₁).2
  have hnone₁ : ∀ id ∈ Entity.idsAll rest, s₁.cursors.lookup id = none := by
    intro id hid
    rw [hsame₁ id (helsewhere id hid).1 (helsewhere id hid).2]
    exact hnone id (Multiset.mem_add.2 (.inr hid))
  obtain ⟨s₂, filled₂, groups₂, hvisits₂, hnodes₂, hlifted₂, hholds₂, hsame₂⟩ :=
    hrest owner _ _ s₁ pending hsecond hnone₁
  rw [Surroundings.path_foldl_push] at hvisits₂ hsame₂
  refine ⟨s₂, { e with children := filled₁ } :: (EntityGroup.landed groups₁ ++ filled₂),
    EntityGroup.risen groups₁ ++ groups₂, ?_, ?_, ?_, ?_, ?_⟩
  · rw [Entity.leafPathsAll, List.foldlM_append]
    exact Option.bind_eq_some_iff.2 ⟨s₁, hvisits₁, hvisits₂⟩
  · rw [Entity.nodes_cons, Entity.nodes_append, Entity.node_withChildren, hnodes₁, hnodes₂,
      EntityGroup.nodes_landed, hlifted₁, Entity.fillAll_cons]
    rfl
  · rw [List.map_append, EntityGroup.map_lifted_risen, hlifted₁, hlifted₂, Entity.fillAll_cons]
    rfl
  · rw [List.foldl_append]
    rwa [List.append_assoc, List.cons_append] at hholds₂
  · intro id hid hpath
    rw [Entity.idsAll_cons, Multiset.mem_add, not_or] at hid
    exact (hsame₂ id hid.2 hpath).trans (hsame₁ id hid.1 hpath)

/-- Visits fill any children. -/
theorem fills (grow : Nat → Int → Expansion) (forest : List Entity) : Fills grow forest := by
  induction forest using Entity.forest_induction with
  | nil =>
    intro owner before p s pending h _
    exact ⟨s, [], [], rfl, Entity.nodes_nil, rfl, h, fun _ _ _ => rfl⟩
  | cons e rest ihChildren ihRest => exact fills_cons ihChildren ihRest

/-- Entities that are attached to are filled one after the other. -/
theorem exists_attachTo_all (grow : Nat → Int → Expansion) (parents : List Entity)
    (hnodup : (Entity.idsAll s.nodes + Entity.idsAll parents).Nodup)
    (hbounded : ∀ id ∈ Entity.idsAll s.nodes + Entity.idsAll parents, id < s.next) :
    ∃ s', (parents.map fun e => (e, e.leafPaths [])).foldlM (attachTo grow) s = some s' ∧
      s'.result = s.result.append (Entity.fillAll grow parents) := by
  induction parents generalizing s with
  | nil =>
    refine ⟨s, rfl, ?_⟩
    rw [Entity.fillAll, Expansion.append, Expansion.nothing, List.append_nil, List.append_nil]
  | cons e rest ih =>
    rw [Entity.idsAll_cons, ← add_assoc] at hnodup hbounded
    -- At first nothing has landed behind the entity, and no cursor of it is in use.
    have hids : (Surroundings.top s.nodes [] s.lifted).ids = Entity.idsAll s.nodes := by
      rw [Surroundings.ids, Entity.idsAll_nil, add_zero]
    have hstart : Holds { s with nodes := s.nodes ++ [e], cursors := [] }
        (.top s.nodes [] s.lifted) e (Entity.idsAll rest) :=
      ⟨rfl, rfl, trivial, by rwa [hids], by rwa [hids]⟩
    obtain ⟨s₁, filled, groups, hvisits, hnodes, hlifted, hholds, -⟩ :=
      hstart.visitAll (fills grow e.children) fun _ _ => rfl
    rw [Surroundings.foldl_push_top, List.nil_append] at hholds
    obtain ⟨hnodes₁, hlifted₁, -, hnodup₁, hbounded₁⟩ := hholds
    rw [← Surroundings.idsAll_plug, ← hnodes₁] at hnodup₁ hbounded₁
    obtain ⟨s₂, hothers, hresult⟩ := ih hnodup₁ hbounded₁
    have hfirst : s₁.result = s.result.append
        ⟨{ e.node with children := (e.inside grow).nodes } ::
            Expansion.landed (e.inside grow).lifted,
          Expansion.risen (e.inside grow).lifted⟩ := by
      rw [result, hnodes₁, hlifted₁, Surroundings.plug, Surroundings.lifted, Entity.nodes_append,
        Entity.nodes_cons, Entity.node_withChildren, hnodes, EntityGroup.nodes_landed,
        EntityGroup.map_lifted_risen, hlifted]
      rfl
    refine ⟨s₂, ?_, ?_⟩
    · rw [List.map_cons, List.foldlM_cons]
      exact Option.bind_eq_some_iff.2 ⟨s₁, hvisits, hothers⟩
    · rw [hresult, hfirst, Entity.fillAll_cons, Expansion.append, Expansion.append,
        Expansion.append, Expansion.append, List.append_assoc, List.append_assoc]

end Attaching

/-! ## Who is given the text -/

namespace Entity

variable {e : Entity} {forest : List Entity} {grow : Int → Option Text → Expansion}
  {wrapped : Option Text} {last : Option Nat}

/-- Any forest has a last childless entity, which is one of the forest. -/
theorem exists_lastLeaf (h : forest ≠ []) (above : List Nat) :
    ∃ path, (leafPathsAll above forest).getLast? = some path ∧ path.leaf ∈ idsAll forest := by
  induction forest using forest_induction generalizing above with
  | nil => exact absurd rfl h
  | cons e rest ihChildren ihRest =>
    rw [leafPathsAll, List.getLast?_append, idsAll_cons, leafPaths_eq]
    by_cases hrest : rest = []
    · have hfirst : ∃ path, (if e.children = [] then [⟨e.id, e.index, above⟩]
            else leafPathsAll (e.id :: above) e.children).getLast? = some path ∧
          path.leaf ∈ e.ids := by
        by_cases hleaf : e.children = []
        · rw [if_pos hleaf]
          exact ⟨_, rfl, e.id_mem_ids⟩
        · obtain ⟨path, hlast, hmem⟩ := ihChildren hleaf (e.id :: above)
          rw [if_neg hleaf, ids_eq]
          exact ⟨path, hlast, Multiset.mem_add.2 (.inr hmem)⟩
      obtain ⟨path, hlast, hmem⟩ := hfirst
      rw [hrest, leafPathsAll, hlast]
      exact ⟨path, rfl, Multiset.mem_add.2 (.inl hmem)⟩
    · obtain ⟨path, hlast, hmem⟩ := ihRest hrest above
      rw [hlast]
      exact ⟨path, rfl, Multiset.mem_add.2 (.inr hmem)⟩

/-- The last entity of a forest that has any has the last childless one. -/
theorem getLast?_leafPaths (forest : List Entity) :
    ((forest.map fun e => (e, e.leafPaths [])).getLast?.bind fun parent => parent.2.getLast?) =
      (leafPathsAll [] forest).getLast? := by
  induction forest with
  | nil => rfl
  | cons e rest ih =>
    rw [leafPathsAll, List.getLast?_append, ← ih]
    rcases rest with _ | ⟨next, more⟩
    · rfl
    · obtain ⟨path, hlast, -⟩ := exists_lastLeaf (List.cons_ne_nil next more) []
      rw [← ih] at hlast
      rw [hlast]
      exact hlast

/-- An entity is filled as its node is, if what grows for it and what fills its children is the
same. -/
theorem inside_growFor (share : Option Text)
    (hown : e.children = [] → (if last = some e.id then wrapped else none) = share)
    (hchildren : e.children ≠ [] → fillAll (Attaching.growFor grow wrapped last) e.children =
      Expansion.fillAll grow share (nodes e.children)) :
    e.inside (Attaching.growFor grow wrapped last) =
      if e.node.children = [] then grow e.node.index share
      else Expansion.fillAll grow share e.node.children := by
  rw [inside, children_node, index_node]
  by_cases hleaf : e.children = []
  · rw [if_pos hleaf, if_pos (nodes_eq_nil_iff.2 hleaf), Attaching.growFor, hown hleaf]
  · rw [if_neg hleaf, if_neg (mt nodes_eq_nil_iff.1 hleaf), hchildren hleaf]

/-- A forest in which no entity is given the text is filled without it. -/
theorem fillAll_growFor_of_notMem (h : ∀ id ∈ idsAll forest, last ≠ some id) :
    fillAll (Attaching.growFor grow wrapped last) forest =
      Expansion.fillAll grow none (nodes forest) := by
  induction forest using forest_induction with
  | nil => rw [fillAll, nodes_nil, Expansion.fillAll]
  | cons e rest ihChildren ihRest =>
    rw [idsAll_cons] at h
    have hown := h e.id (Multiset.mem_add.2 (.inl e.id_mem_ids))
    have hchildren : ∀ id ∈ idsAll e.children, last ≠ some id := by
      intro id hid
      refine h id (Multiset.mem_add.2 (.inl ?_))
      rw [ids_eq]
      exact Multiset.mem_add.2 (.inr hid)
    rw [fillAll_cons, inside_growFor none (fun _ => if_neg hown) fun _ => ihChildren hchildren,
      nodes_cons, Expansion.fillAll_cons_none,
      ihRest fun id hid => h id (Multiset.mem_add.2 (.inr hid))]

/-- The text is given to the last childless entity, so the recursion over nodes, by which only the
last node of each row is given it, comes to the same. -/
theorem fillAll_eq (h : (idsAll forest).Nodup) (above : List Nat) :
    fillAll (Attaching.growFor grow wrapped
        ((leafPathsAll above forest).getLast?.map LeafPath.leaf)) forest =
      Expansion.fillAll grow wrapped (nodes forest) := by
  induction forest using forest_induction generalizing above with
  | nil => rw [fillAll, nodes_nil, Expansion.fillAll]
  | cons e rest ihChildren ihRest =>
    rw [idsAll_cons, Multiset.nodup_add, ids_eq, Multiset.nodup_add] at h
    obtain ⟨⟨-, hchildren, -⟩, hrest, hdisjoint⟩ := h
    rw [leafPathsAll, List.getLast?_append, nodes_cons, Expansion.fillAll_cons, fillAll_cons]
    by_cases hempty : rest = []
    · subst hempty
      rw [leafPathsAll, List.getLast?_nil, Option.none_or, leafPaths_eq, inside_growFor wrapped]
      · rw [fillAll, nodes_nil, Expansion.fillAll]
        rfl
      · intro hleaf
        rw [if_pos hleaf]
        exact if_pos rfl
      · intro hleaf
        rw [if_neg hleaf]
        exact ihChildren hchildren (e.id :: above)
    · -- The text goes to one behind the first entity, so neither that nor one inside is given it.
      obtain ⟨path, hlast, hmem⟩ := exists_lastLeaf hempty above
      have hother : ∀ id ∈ {e.id} + idsAll e.children, some path.leaf ≠ some id := by
        rintro id hid ⟨⟩
        exact Multiset.disjoint_left.1 hdisjoint hid hmem
      have hown := hother e.id (Multiset.mem_add.2 (.inl (Multiset.mem_singleton_self e.id)))
      have hshare : (nodes rest).isEmpty = false :=
        List.isEmpty_eq_false_iff.2 (mt nodes_eq_nil_iff.1 hempty)
      have hothers := ihRest hrest above
      rw [hlast] at hothers ⊢
      rw [Option.some_or, Option.map_some, inside_growFor none]
      · rw [hshare, ← hothers]
        rfl
      · exact fun _ => if_neg hown
      · exact fun _ => fillAll_growFor_of_notMem fun id hid =>
          hother id (Multiset.mem_add.2 (.inr hid))

end Entity

/-! ## What was there before -/

namespace EntityGroup

/-- The number of an entity of a group is among those of the groups. -/
theorem id_mem_idsIn {groups : List EntityGroup} {group : EntityGroup} {e : Entity}
    (hgroup : group ∈ groups) (he : e ∈ group.entities) : e.id ∈ idsIn groups := by
  induction groups with
  | nil => cases hgroup
  | cons first rest ih =>
    rw [idsIn, List.map_cons, List.sum_cons, Multiset.mem_add]
    rcases List.mem_cons.1 hgroup with rfl | hgroup
    · exact .inl (Entity.id_mem_idsAll he)
    · exact .inr (ih hgroup)

end EntityGroup

namespace Attaching

variable {s s' : Attaching} {start : Nat} {grow : Nat → Int → Expansion}

/-- The entities with a number below `start` are where they were, and there is still none of these
numbers to give. -/
def Keeps (start : Nat) (s s' : Attaching) : Prop :=
  start ≤ s'.next ∧ Entity.restrictAll start s'.nodes = Entity.restrictAll start s.nodes

/-- What each step keeps, many steps keep. -/
theorem keeps_foldlM {α : Type} {f : Attaching → α → Option Attaching} {items : List α}
    (hstep : ∀ s s' item, item ∈ items → start ≤ s.next → f s item = some s' → Keeps start s s')
    (hs : start ≤ s.next) (h : items.foldlM f s = some s') : Keeps start s s' := by
  induction items generalizing s with
  | nil =>
    obtain rfl := Option.some.inj h
    exact ⟨hs, rfl⟩
  | cons item rest ih =>
    obtain ⟨s₁, hfirst, hrest⟩ := Option.bind_eq_some_iff.1 h
    obtain ⟨hnext, hsame⟩ := hstep s s₁ item List.mem_cons_self hs hfirst
    obtain ⟨hnext', hsame'⟩ :=
      ih (fun s s' item hitem => hstep s s' item (List.mem_cons_of_mem _ hitem)) hnext hrest
    exact ⟨hnext', hsame'.trans hsame⟩

/-- Of entities among which others with later numbers are put, the same stays. -/
theorem restrictAll_insertAfter? {id : Nat} {more forest changed : List Entity}
    (hmore : ∀ e ∈ more, start ≤ e.id) (h : Entity.insertAfter? id more forest = some changed) :
    Entity.restrictAll start changed = Entity.restrictAll start forest := by
  induction forest generalizing changed with
  | nil => cases h
  | cons e rest ih =>
    rw [Entity.insertAfter?] at h
    by_cases hid : e.id = id
    · rw [if_pos hid] at h
      obtain rfl := Option.some.inj h
      rw [Entity.restrictAll, Entity.restrictAll, Entity.restrictAll_append,
        Entity.restrictAll_eq_nil hmore, List.nil_append]
    · rw [if_neg hid] at h
      obtain ⟨others, hothers, rfl⟩ := Option.map_eq_some_iff.1 h
      rw [Entity.restrictAll, Entity.restrictAll, ih hothers]

/-- A group of entities with later numbers is delivered without a change to the others. -/
theorem keeps_deliver {path : List Nat} {group : EntityGroup} (hs : start ≤ s.next)
    (hgroup : ∀ e ∈ group.entities, start ≤ e.id) (h : deliver path s group = some s') :
    Keeps start s s' := by
  unfold deliver at h
  split at h
  · obtain rfl := Option.some.inj h
    exact ⟨hs, rfl⟩
  · obtain rfl := Option.some.inj h
    refine ⟨hs, ?_⟩
    rw [Entity.restrictAll_append, Entity.restrictAll_eq_nil hgroup, List.append_nil]
  · obtain ⟨nodes, hnodes, h⟩ := Option.bind_eq_some_iff.1 h
    obtain rfl := Option.some.inj h
    refine ⟨hs, Entity.restrictAll_changeAll (fun children changed hchildren => ?_) hnodes⟩
    exact restrictAll_insertAfter? hgroup hchildren

/-- What grows in a visit has later numbers, and the other entities stay as they are. -/
theorem keeps_visit {path : LeafPath} (hs : start ≤ s.next) (h : visit grow s path = some s') :
    Keeps start s s' := by
  unfold visit at h
  dsimp only at h
  obtain ⟨nodes, hnodes, hdelivered⟩ := Option.bind_eq_some_iff.1 h
  generalize grow path.leaf path.index = grown at *
  obtain ⟨-, first, hafter, hfirst⟩ := Entity.exists_ofNodes s.next grown.nodes
  obtain ⟨-, more, hlast, hmore⟩ :=
    EntityGroup.exists_ofLifted (Entity.ofNodes s.next grown.nodes).2 grown.lifted
  have hput : Entity.restrictAll start nodes = Entity.restrictAll start s.nodes := by
    refine Entity.restrictAll_changeAll (fun children changed hchildren => ?_) hnodes
    obtain rfl := Option.some.inj hchildren
    have hnew : ∀ e ∈ (Entity.ofNodes s.next grown.nodes).1, start ≤ e.id := by
      intro e he
      have hid := Entity.id_mem_idsAll he
      rw [hfirst] at hid
      exact hs.trans (List.mem_range'_1.1 hid).1
    rw [Entity.restrictAll_append, Entity.restrictAll_eq_nil hnew, List.append_nil]
  have hgroups : ∀ s₁ s₂ group,
      group ∈ (EntityGroup.ofLifted (Entity.ofNodes s.next grown.nodes).2 grown.lifted).1 →
      start ≤ s₁.next → deliver (path.leaf :: path.above) s₁ group = some s₂ →
      Keeps start s₁ s₂ := by
    intro s₁ s₂ group hgroup hs₁ hdeliver
    refine keeps_deliver hs₁ (fun e he => ?_) hdeliver
    have hid := EntityGroup.id_mem_idsIn hgroup he
    rw [hmore, hafter] at hid
    have hlow := (List.mem_range'_1.1 (Multiset.mem_coe.1 hid)).1
    omega
  obtain ⟨hnext, hsame⟩ := keeps_foldlM hgroups (by dsimp only; omega) hdelivered
  exact ⟨hnext, hsame.trans hput⟩

/-- The entities that are attached to are kept one behind the other. -/
theorem restrictAll_attachTo_all {parents : List Entity}
    (hparents : ∀ id ∈ Entity.idsAll parents, id < start) (hs : start ≤ s.next)
    (h : (parents.map fun e => (e, e.leafPaths [])).foldlM (attachTo grow) s = some s') :
    Entity.restrictAll start s'.nodes = Entity.restrictAll start s.nodes ++ parents := by
  induction parents generalizing s with
  | nil =>
    obtain rfl := Option.some.inj h
    exact (List.append_nil _).symm
  | cons e rest ih =>
    rw [List.map_cons, List.foldlM_cons] at h
    obtain ⟨s₁, hfirst, hrest⟩ := Option.bind_eq_some_iff.1 h
    obtain ⟨hnext, hsame⟩ : Keeps start { s with nodes := s.nodes ++ [e], cursors := [] } s₁ :=
      keeps_foldlM (fun _ _ _ _ => keeps_visit) hs hfirst
    rw [Entity.idsAll_cons] at hparents
    have hown : ∀ id ∈ Entity.idsAll [e], id < start := by
      intro id hid
      rw [Entity.idsAll_cons, Entity.idsAll_nil, add_zero] at hid
      exact hparents id (Multiset.mem_add.2 (.inl hid))
    calc Entity.restrictAll start s'.nodes
        = Entity.restrictAll start s₁.nodes ++ rest :=
          ih (fun id hid => hparents id (Multiset.mem_add.2 (.inr hid))) hnext hrest
      _ = Entity.restrictAll start (s.nodes ++ [e]) ++ rest := by rw [hsame]
      _ = Entity.restrictAll start s.nodes ++ e :: rest := by
        rw [Entity.restrictAll_append, Entity.restrictAll_eq_self hown, List.append_assoc,
          List.singleton_append]

/-- Attaching in place finds every place it looks for, and comes to what the recursion gives, behind
the groups that have gone on before. Without the entities that have been put in, there is what there
was before. -/
theorem exists_attach_eq (grow : Int → Option Text → Expansion) (wrapped : Option Text)
    (outer : Expansion) :
    ∃ s, attach grow wrapped outer = some s ∧
      s.result = Expansion.append ⟨[], outer.lifted⟩
        (Expansion.fillAll grow wrapped outer.nodes) ∧
      Entity.restrictAll (Entity.ofNodes 0 outer.nodes).2 s.nodes =
        (Entity.ofNodes 0 outer.nodes).1 := by
  obtain ⟨hnodes, count, hnext, hids⟩ := Entity.exists_ofNodes 0 outer.nodes
  have hnodup : (Entity.idsAll (Entity.ofNodes 0 outer.nodes).1).Nodup := by
    rw [hids]
    exact Multiset.coe_nodup.2 List.nodup_range'
  have hbounded : ∀ id ∈ Entity.idsAll (Entity.ofNodes 0 outer.nodes).1,
      id < (Entity.ofNodes 0 outer.nodes).2 := by
    intro id hid
    rw [hids] at hid
    rw [hnext]
    exact (List.mem_range'_1.1 hid).2
  unfold attach
  generalize Entity.ofNodes 0 outer.nodes = entities at *
  obtain ⟨parents, start⟩ := entities
  dsimp only at hnodes hnodup hbounded ⊢
  rw [Entity.getLast?_leafPaths]
  generalize hgrow : growFor grow wrapped
    ((Entity.leafPathsAll [] parents).getLast?.map LeafPath.leaf) = growAt
  have hfilled : Entity.fillAll growAt parents = Expansion.fillAll grow wrapped outer.nodes := by
    rw [← hgrow, Entity.fillAll_eq hnodup, hnodes]
  obtain ⟨s, hs, hresult⟩ := exists_attachTo_all (s := ⟨start, [], outer.lifted, []⟩) growAt parents
    (by rwa [Entity.idsAll_nil, zero_add]) (by rwa [Entity.idsAll_nil, zero_add])
  have hkept := restrictAll_attachTo_all hbounded (le_refl start) hs
  have hempty : result ⟨start, [], outer.lifted, []⟩ = ⟨[], outer.lifted⟩ := by
    rw [result, Entity.nodes_nil]
  rw [hfilled, hempty] at hresult
  rw [Entity.restrictAll, List.nil_append] at hkept
  exact ⟨s, hs, hresult, hkept⟩

end Attaching

/-- The right side of a `>` is attached in place to what the left one expands into, whatever that
is: every place that is looked for is found, the result is that of the recursion, and without what
has been put in, the nodes of the left side are those that were there before. So this is how a `>`
expands. -/
theorem Abbreviation.attach_child (setting : ExpansionSetting) (right : Abbreviation)
    (wrapped : Option Text) :
    (∀ outer : Expansion, ∃ s,
      Attaching.attach (right.expansion setting) wrapped outer = some s ∧
      s.result = Expansion.append ⟨[], outer.lifted⟩
        (Expansion.fillAll (right.expansion setting) wrapped outer.nodes) ∧
      Entity.restrictAll (Entity.ofNodes 0 outer.nodes).2 s.nodes =
        (Entity.ofNodes 0 outer.nodes).1 ∧
      Entity.nodes (Entity.ofNodes 0 outer.nodes).1 = outer.nodes) ∧
    ∀ left index, ∃ s,
      Attaching.attach (right.expansion setting) wrapped (left.expansion setting index none) =
        some s ∧
      s.result = (child left right).expansion setting index wrapped := by
  constructor
  · intro outer
    obtain ⟨s, hs, hresult, hkept⟩ :=
      Attaching.exists_attach_eq (right.expansion setting) wrapped outer
    exact ⟨s, hs, hresult, hkept, (Entity.exists_ofNodes 0 outer.nodes).1⟩
  · intro left index
    obtain ⟨s, hs, hresult, -⟩ := Attaching.exists_attach_eq (right.expansion setting) wrapped
      (left.expansion setting index none)
    exact ⟨s, hs, hresult.trans (expansion_child setting left right index wrapped).symm⟩

-- Two childless nodes in one: what is lifted by one level lands behind each of them, what is lifted
-- by two lands behind the node around them, and the rest goes on.
example :
    let leaf (index : Int) : Node := ⟨.literal, index, none, none, []⟩
    let grow (index : Int) (_ : Option Text) : Expansion :=
      ⟨[], [⟨0, [leaf (index + 10)]⟩, ⟨1, [leaf (index + 20)]⟩, ⟨2, [leaf (index + 30)]⟩]⟩
    (Attaching.attach grow none ⟨[⟨.literal, 0, none, none, [leaf 1, leaf 2]⟩], []⟩).map
        Attaching.result =
      some ⟨[⟨.literal, 0, none, none, [leaf 1, leaf 11, leaf 2, leaf 12]⟩, leaf 21, leaf 22],
        [⟨0, [leaf 31]⟩, ⟨0, [leaf 32]⟩]⟩ := by
  rfl

end Abbrev
