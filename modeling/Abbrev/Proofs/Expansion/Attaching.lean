import Abbrev.Proofs.Expansion.Entities

/-!
# Attaching in place

The right side of a `>` can be put into the left one by a recursion over the left side
(`Expansion.fillAll`), or in place. In place, the paths to all childless nodes are noted first. Then
each of these nodes is visited: what grows for it is put into it, and each group that is lifted out
of it goes to the children of a node on its path, right behind the path's own child and behind all
that was put there before. A cursor for each such child says which node was put in last
(`Attaching.deliver`).

A node on the path is the owner of a row of children, in which the path goes on somewhere. Seen from
below, the rest of a forest is what surrounds a hole (`Surroundings`), and a group is delivered by
pushing it there (`Surroundings.push`): it lands behind the hole, or it goes on to what surrounds
the owner. A visit does the same with paths, numbers and cursors (`Attaching.Holds.deliver`). The
cursor of each node on the path points to the last entity that has landed behind it; and since no
number is given twice, what is looked for is always found.
-/

namespace Abbrev

/-- A group of entities that are lifted. -/
structure EntityGroup where
  level : Nat
  entities : List Entity

namespace EntityGroup

/-- A group without the numbers. -/
def lifted (group : EntityGroup) : Lifted :=
  ⟨group.level, Entity.nodes group.entities⟩

/-- Lifted nodes as entities with the numbers from `next` on; and the first number that is left. -/
def ofLifted (next : Nat) : List Lifted → List EntityGroup × Nat
  | [] => ([], next)
  | ⟨level, nodes⟩ :: rest =>
    let first := Entity.ofNodes next nodes
    let others := ofLifted first.2 rest
    (⟨level, first.1⟩ :: others.1, others.2)

/-- The numbers in groups. -/
def idsIn (groups : List EntityGroup) : Multiset Nat :=
  (groups.map fun group => Entity.idsAll group.entities).sum

/-- The entities that land. -/
def landed (groups : List EntityGroup) : List Entity :=
  (groups.filter fun group => group.level = 0).flatMap EntityGroup.entities

/-- The groups that go on, with one level less to go. -/
def risen (groups : List EntityGroup) : List EntityGroup :=
  (groups.filter fun group => group.level ≠ 0).map fun group =>
    { group with level := group.level - 1 }

end EntityGroup

/-- The way to a childless entity. -/
structure LeafPath where
  leaf : Nat
  /-- The number of the copy that the entity belongs to. -/
  index : Int
  /-- The entities around it, the innermost first. -/
  above : List Nat

mutual

/-- The ways to the childless entities in an entity, which stands inside those of `above`. -/
def Entity.leafPaths (above : List Nat) : Entity → List LeafPath
  | ⟨id, _, index, _, _, []⟩ => [⟨id, index, above⟩]
  | ⟨id, _, _, _, _, child :: more⟩ => Entity.leafPathsAll (id :: above) (child :: more)

/-- The ways to the childless entities of a forest. -/
def Entity.leafPathsAll (above : List Nat) : List Entity → List LeafPath
  | [] => []
  | e :: rest => e.leafPaths above ++ Entity.leafPathsAll above rest

end

/-- Puts entities right behind the one with a number. There is no result if none has it. -/
def Entity.insertAfter? (id : Nat) (more : List Entity) : List Entity → Option (List Entity)
  | [] => none
  | e :: rest =>
    if e.id = id then some (e :: (more ++ rest)) else (insertAfter? id more rest).map (e :: ·)

/-- What there is while the right side of a `>` is attached to the left one. -/
structure Attaching where
  /-- The first number that is not given to an entity. -/
  next : Nat
  nodes : List Entity
  /-- The groups that go on. -/
  lifted : List Lifted
  /-- For entities, the one that was put behind them last. -/
  cursors : List (Nat × Nat)

namespace Attaching

/-- The cursors when entities have been put behind an anchor. -/
def moveCursor (anchor : Nat) (entities : List Entity) (cursors : List (Nat × Nat)) :
    List (Nat × Nat) :=
  match entities.getLast? with
  -- A later entry for an anchor hides those that were made before.
  | some last => (anchor, last.id) :: cursors
  | none => cursors

/-- Puts a group where it belongs that is lifted out of the first entity of a path. -/
def deliver (path : List Nat) (s : Attaching) (group : EntityGroup) : Option Attaching :=
  match path.drop group.level with
  | [] =>
    -- The path is too short, so the group is lifted out of all that is attached to.
    some { s with
      lifted := s.lifted ++ [⟨group.level - path.length, Entity.nodes group.entities⟩] }
  | [_] => some { s with nodes := s.nodes ++ group.entities }
  | anchor :: owner :: _ => do
    -- What was put behind the anchor before stays in front.
    let behind := (s.cursors.lookup anchor).getD anchor
    let nodes ← Entity.changeAll owner (Entity.insertAfter? behind group.entities) s.nodes
    return { s with nodes, cursors := moveCursor anchor group.entities s.cursors }

/-- Puts what grows for a childless entity into it, and its groups where they belong. -/
def visit (grow : Nat → Int → Expansion) (s : Attaching) (path : LeafPath) : Option Attaching := do
  let grown := grow path.leaf path.index
  let inside := Entity.ofNodes s.next grown.nodes
  let groups := EntityGroup.ofLifted inside.2 grown.lifted
  let nodes ← Entity.changeAll path.leaf (fun children => some (children ++ inside.1)) s.nodes
  groups.1.foldlM (deliver (path.leaf :: path.above)) { s with next := groups.2, nodes }

/-- Appends an entity with its childless entities, and visits these. -/
def attachTo (grow : Nat → Int → Expansion) (s : Attaching) (parent : Entity × List LeafPath) :
    Option Attaching :=
  parent.2.foldlM (visit grow) { s with nodes := s.nodes ++ [parent.1], cursors := [] }

/-- What grows for an entity. One of them is given the text. -/
def growFor (grow : Int → Option Text → Expansion) (wrapped : Option Text) (last : Option Nat)
    (id : Nat) (index : Int) : Expansion :=
  grow index (if last = some id then wrapped else none)

/-- Attaches what grows for each childless node of an expansion to it. The last one is given
`wrapped`. -/
def attach (grow : Int → Option Text → Expansion) (wrapped : Option Text) (outer : Expansion) :
    Option Attaching :=
  let entities := Entity.ofNodes 0 outer.nodes
  -- All paths are known before anything is changed.
  let parents := entities.1.map fun e => (e, e.leafPaths [])
  let last := (parents.getLast?.bind fun parent => parent.2.getLast?).map LeafPath.leaf
  parents.foldlM (attachTo (growFor grow wrapped last)) ⟨entities.2, [], outer.lifted, []⟩

/-- What has been attached, without the numbers. -/
def result (s : Attaching) : Expansion :=
  ⟨Entity.nodes s.nodes, s.lifted⟩

end Attaching

/-! ## Surroundings -/

/-- An entity around a hole. -/
structure Frame where
  /-- The entity, whatever is inside it. -/
  owner : Entity
  /-- Its children before the hole. -/
  before : List Entity
  /-- The children that have been put in behind the hole. -/
  landed : List Entity
  /-- Its other children behind the hole. -/
  after : List Entity

/-- The entity with a child in the hole. -/
def Frame.close (frame : Frame) (e : Entity) : Entity :=
  { frame.owner with children := frame.before ++ e :: (frame.landed ++ frame.after) }

/-- What there is around an entity. -/
inductive Surroundings where
  /-- The entity is the last one of those that have been appended so far. -/
  | top (before landed : List Entity) (lifted : List Lifted)
  /-- The entity is inside of another one. -/
  | inside (frame : Frame) (outer : Surroundings)

namespace Surroundings

/-- All entities, with one in the hole. -/
def plug : Surroundings → Entity → List Entity
  | top before landed _, e => before ++ e :: landed
  | inside frame outer, e => outer.plug (frame.close e)

/-- The groups that have gone on. -/
def lifted : Surroundings → List Lifted
  | top _ _ lifted => lifted
  | inside _ outer => outer.lifted

/-- The entities around a hole, the innermost first. -/
def path : Surroundings → List Nat
  | top _ _ _ => []
  | inside frame outer => frame.owner.id :: outer.path

/-- The numbers of all entities but those in the hole. -/
def ids : Surroundings → Multiset Nat
  | top before landed _ => Entity.idsAll before + Entity.idsAll landed
  | inside frame outer =>
    {frame.owner.id} + Entity.idsAll frame.before + Entity.idsAll frame.landed +
      Entity.idsAll frame.after + outer.ids

/-- The surroundings with a group that was lifted out of the hole: it lands behind the hole, or goes
on. -/
def push : Surroundings → EntityGroup → Surroundings
  | top before landed lifted, ⟨0, entities⟩ => top before (landed ++ entities) lifted
  | top before landed lifted, ⟨level + 1, entities⟩ =>
    top before landed (lifted ++ [⟨level, Entity.nodes entities⟩])
  | inside frame outer, ⟨0, entities⟩ =>
    inside { frame with landed := frame.landed ++ entities } outer
  | inside frame outer, ⟨level + 1, entities⟩ => inside frame (outer.push ⟨level, entities⟩)

/-- The cursor of each entity on the path, from the hole on, points to what has landed behind it
last. At the top no cursors are used. -/
def Tracks (cursors : List (Nat × Nat)) : Surroundings → Nat → Prop
  | top _ _ _, _ => True
  | inside frame outer, id =>
    cursors.lookup id = frame.landed.getLast?.map Entity.id ∧ outer.Tracks cursors frame.owner.id

variable {p : Surroundings} {e : Entity} {id : Nat} {cursors others : List (Nat × Nat)}

/-- Only the cursors of an entity and of those around it matter. -/
theorem Tracks.congr (h : p.Tracks cursors id)
    (hsame : ∀ other ∈ id :: p.path, others.lookup other = cursors.lookup other) :
    p.Tracks others id := by
  induction p generalizing id with
  | top => trivial
  | inside frame outer ih =>
    obtain ⟨hcursor, houter⟩ := h
    obtain ⟨hown, hpath⟩ := List.forall_mem_cons.1 hsame
    exact ⟨hown.trans hcursor, ih houter hpath⟩

/-- No group comes to be around a hole. -/
@[simp] theorem path_push (p : Surroundings) (group : EntityGroup) :
    (p.push group).path = p.path := by
  obtain ⟨level, entities⟩ := group
  induction p generalizing level with
  | top => cases level <;> rfl
  | inside frame outer ih =>
    cases level with
    | zero => rfl
    | succ level => rw [push, path, path, ih]

/-- The same of many groups. -/
@[simp] theorem path_foldl_push (p : Surroundings) (groups : List EntityGroup) :
    (groups.foldl push p).path = p.path := by
  induction groups generalizing p with
  | nil => rfl
  | cons group rest ih => rw [List.foldl_cons, ih, path_push]

/-- The numbers of all entities are those around the hole and those in it. -/
theorem idsAll_plug (p : Surroundings) (e : Entity) : Entity.idsAll (p.plug e) = p.ids + e.ids := by
  induction p generalizing e with
  | top before landed lifted =>
    rw [plug, ids, Entity.idsAll_append, Entity.idsAll_cons]
    abel
  | inside frame outer ih =>
    rw [plug, ih, ids, Entity.ids_eq, Frame.close, Entity.idsAll_append, Entity.idsAll_cons,
      Entity.idsAll_append]
    abel

/-- The entities around a hole are not in it. -/
theorem mem_ids_of_mem_path (p : Surroundings) (h : id ∈ p.path) : id ∈ p.ids := by
  induction p with
  | top => cases h
  | inside frame outer ih =>
    rw [ids, Multiset.mem_add]
    rcases List.mem_cons.1 h with rfl | h
    · simp
    · exact .inr (ih h)

/-- A group brings no numbers but its own. -/
theorem ids_push_le (p : Surroundings) (group : EntityGroup) :
    (p.push group).ids ≤ p.ids + Entity.idsAll group.entities := by
  obtain ⟨level, entities⟩ := group
  induction p generalizing level with
  | top before landed lifted =>
    cases level with
    | zero =>
      rw [push, ids, ids, Entity.idsAll_append, add_assoc]
    | succ level => exact Multiset.le_add_right _ _
  | inside frame outer ih =>
    cases level with
    | zero =>
      refine le_of_eq ?_
      rw [push, ids, ids, Entity.idsAll_append]
      abel
    | succ level =>
      rw [push, ids, ids, add_assoc _ outer.ids]
      exact add_le_add_right (ih level) _

/-- An entity in the hole is found there. -/
theorem changeAll_plug {f : List Entity → Option (List Entity)} {changed : Entity}
    (hid : id ∉ p.ids) (h : e.change id f = some changed) :
    Entity.changeAll id f (p.plug e) = some (p.plug changed) := by
  induction p generalizing e changed with
  | top before landed lifted =>
    rw [ids, Multiset.mem_add, not_or] at hid
    rw [plug, Entity.changeAll_append hid.1, Entity.changeAll_cons_of_change h]
    rfl
  | inside frame outer ih =>
    simp only [ids, Multiset.mem_add, Multiset.mem_singleton, not_or] at hid
    obtain ⟨⟨⟨⟨howner, hbefore⟩, -⟩, -⟩, houter⟩ := hid
    refine ih houter ?_
    have hne : (frame.close e).id ≠ id := Ne.symm howner
    rw [Entity.change_of_ne hne, Frame.close, Entity.changeAll_append hbefore,
      Entity.changeAll_cons_of_change h]
    rfl

/-- Groups that are pushed behind a hole inside an entity land there, or are pushed further. -/
theorem foldl_push_inside (frame : Frame) (outer : Surroundings) (groups : List EntityGroup) :
    groups.foldl push (inside frame outer) =
      inside { frame with landed := frame.landed ++ EntityGroup.landed groups }
        ((EntityGroup.risen groups).foldl push outer) := by
  induction groups generalizing frame outer with
  | nil =>
    rw [EntityGroup.landed, EntityGroup.risen, List.filter_nil, List.filter_nil, List.flatMap_nil,
      List.append_nil]
    rfl
  | cons group rest ih =>
    obtain ⟨level, entities⟩ := group
    rw [List.foldl_cons]
    cases level with
    | zero => rw [push, ih]; simp [EntityGroup.landed, EntityGroup.risen]
    | succ level => rw [push, ih]; simp [EntityGroup.landed, EntityGroup.risen]

/-- Groups that are pushed behind a hole at the top land there, or go on. -/
theorem foldl_push_top (before landed : List Entity) (lifted : List Lifted)
    (groups : List EntityGroup) :
    groups.foldl push (top before landed lifted) =
      top before (landed ++ EntityGroup.landed groups)
        (lifted ++ (EntityGroup.risen groups).map EntityGroup.lifted) := by
  induction groups generalizing landed lifted with
  | nil => simp [EntityGroup.landed, EntityGroup.risen]
  | cons group rest ih =>
    obtain ⟨level, entities⟩ := group
    rw [List.foldl_cons]
    cases level with
    | zero => rw [push, ih]; simp [EntityGroup.landed, EntityGroup.risen]
    | succ level => rw [push, ih]; simp [EntityGroup.landed, EntityGroup.risen, EntityGroup.lifted]

end Surroundings

namespace Entity

variable {e : Entity} {id : Nat} {before landed : List Entity}

/-- Entities are put behind the first one that has the number. -/
theorem insertAfter?_append (hbefore : ∀ other ∈ before, other.id ≠ id) (he : e.id = id)
    (more after : List Entity) :
    insertAfter? id more (before ++ e :: after) = some (before ++ e :: (more ++ after)) := by
  induction before with
  | nil => rw [List.nil_append, insertAfter?, if_pos he, List.nil_append]
  | cons other rest ih =>
    obtain ⟨hother, hrest⟩ := List.forall_mem_cons.1 hbefore
    rw [List.cons_append, insertAfter?, if_neg hother, ih hrest]
    rfl

/-- In a row of entities with different numbers, none before some entity has the number of that. -/
theorem id_ne_of_nodup (h : (idsAll (before ++ [e])).Nodup) :
    ∀ other ∈ before, other.id ≠ e.id := by
  intro other hother heq
  rw [idsAll_append, idsAll_cons, idsAll_nil, add_zero, Multiset.nodup_add] at h
  refine (Multiset.disjoint_left.1 h.2.2) (id_mem_idsAll hother) ?_
  rw [heq]
  exact id_mem_ids e

/-- Entities are put behind the last one that has landed, or else behind the hole. -/
theorem insertAfter?_landed (h : (idsAll (before ++ e :: landed)).Nodup)
    (more after : List Entity) :
    insertAfter? ((landed.getLast?.map Entity.id).getD e.id) more
        (before ++ e :: (landed ++ after)) =
      some (before ++ e :: (landed ++ more ++ after)) := by
  rcases List.eq_nil_or_concat landed with rfl | ⟨earlier, last, rfl⟩
  · exact insertAfter?_append (id_ne_of_nodup h) rfl more after
  · rw [List.concat_eq_append] at h ⊢
    have hbefore : ∀ other ∈ before ++ e :: earlier, other.id ≠ last.id :=
      id_ne_of_nodup (by rwa [List.append_assoc, List.cons_append])
    have hinsert := insertAfter?_append hbefore rfl more after
    rw [List.getLast?_append, List.getLast?_singleton]
    simpa using hinsert

end Entity

/-! ## Deliveries -/

namespace Attaching

variable {s : Attaching} {p : Surroundings} {frame : Frame} {e : Entity} {pending : Multiset Nat}

/-- All that has been attached is an entity with what surrounds it; the cursors are those of its
surroundings; and no number is given twice, nor to a group that is not delivered yet. -/
structure Holds (s : Attaching) (p : Surroundings) (e : Entity) (pending : Multiset Nat) :
    Prop where
  nodes : s.nodes = p.plug e
  lifted : s.lifted = p.lifted
  cursors : p.Tracks s.cursors e.id
  nodup : (p.ids + e.ids + pending).Nodup
  bounded : ∀ id ∈ p.ids + e.ids + pending, id < s.next

/-- The surroundings of an entity may be seen as those of the entity around it. -/
theorem holds_inside :
    Holds s (.inside frame p) e pending ↔
      s.cursors.lookup e.id = frame.landed.getLast?.map Entity.id ∧
        Holds s p (frame.close e) pending := by
  have hids : (Surroundings.inside frame p).ids + e.ids = p.ids + (frame.close e).ids := by
    rw [Surroundings.ids, Entity.ids_eq (frame.close e), Frame.close, Entity.idsAll_append,
      Entity.idsAll_cons, Entity.idsAll_append]
    abel
  constructor
  · rintro ⟨hnodes, hlifted, hcursors, hnodup, hbounded⟩
    rw [hids] at hnodup hbounded
    exact ⟨hcursors.1, hnodes, hlifted, hcursors.2, hnodup, hbounded⟩
  · rintro ⟨hcursor, hnodes, hlifted, hcursors, hnodup, hbounded⟩
    rw [← hids] at hnodup hbounded
    exact ⟨hnodes, hlifted, ⟨hcursor, hcursors⟩, hnodup, hbounded⟩

/-- A group that goes on from the first entity of a path is delivered as one of the next. -/
theorem deliver_succ (id : Nat) (path : List Nat) (s : Attaching) (level : Nat)
    (entities : List Entity) :
    deliver (id :: path) s ⟨level + 1, entities⟩ = deliver path s ⟨level, entities⟩ := by
  unfold deliver
  rw [List.drop_succ_cons, List.length_cons, Nat.add_sub_add_right]

/-- Only the cursors of some entities have changed. -/
def SameCursors (ids : List Nat) (s s' : Attaching) : Prop :=
  ∀ id, id ∉ ids → s'.cursors.lookup id = s.cursors.lookup id

/-- A cursor that is moved points to the last entity, if there is any. -/
theorem lookup_moveCursor_self (anchor : Nat) (entities : List Entity)
    (cursors : List (Nat × Nat)) :
    (moveCursor anchor entities cursors).lookup anchor =
      (entities.getLast?.map Entity.id).or (cursors.lookup anchor) := by
  unfold moveCursor
  cases entities.getLast? with
  | none => rfl
  | some last => exact List.lookup_cons_self

/-- Other cursors stay where they are. -/
theorem lookup_moveCursor_of_ne {id anchor : Nat} (h : id ≠ anchor) (entities : List Entity)
    (cursors : List (Nat × Nat)) :
    (moveCursor anchor entities cursors).lookup id = cursors.lookup id := by
  unfold moveCursor
  cases entities.getLast? with
  | none => rfl
  | some last => rw [List.lookup_cons, beq_false_of_ne h]

/-- The number of an entity is not among those of its surroundings. -/
theorem Holds.id_notMem (h : Holds s p e pending) : e.id ∉ p.ids := by
  intro hmem
  have hnodup := Multiset.nodup_of_le (Multiset.le_add_right _ pending) h.nodup
  exact Multiset.disjoint_left.1 (Multiset.nodup_add.1 hnodup).2.2 hmem e.id_mem_ids

/-- The children of the innermost owner have different numbers. -/
theorem Holds.nodup_row (h : Holds s (.inside frame p) e pending) :
    (Entity.idsAll (frame.before ++ e :: frame.landed)).Nodup := by
  refine Multiset.nodup_of_le ?_ h.nodup
  rw [Entity.idsAll_append, Entity.idsAll_cons, Surroundings.ids]
  calc Entity.idsAll frame.before + (e.ids + Entity.idsAll frame.landed)
      ≤ Entity.idsAll frame.before + (e.ids + Entity.idsAll frame.landed) +
          ({frame.owner.id} + Entity.idsAll frame.after + p.ids + pending) :=
        Multiset.le_add_right _ _
    _ = {frame.owner.id} + Entity.idsAll frame.before + Entity.idsAll frame.landed +
          Entity.idsAll frame.after + p.ids + e.ids + pending := by abel

/-- A group that is delivered has no numbers but those that were given to it before. -/
theorem Holds.pushed {s' : Attaching} (group : EntityGroup)
    (h : Holds s p e (Entity.idsAll group.entities + pending))
    (hnodes : s'.nodes = (p.push group).plug e) (hlifted : s'.lifted = (p.push group).lifted)
    (hcursors : (p.push group).Tracks s'.cursors e.id) (hnext : s'.next = s.next) :
    Holds s' (p.push group) e pending := by
  have hle : (p.push group).ids + e.ids + pending ≤
      p.ids + e.ids + (Entity.idsAll group.entities + pending) := by
    calc (p.push group).ids + e.ids + pending
        ≤ p.ids + Entity.idsAll group.entities + e.ids + pending :=
          add_le_add_left (add_le_add_left (p.ids_push_le group) _) _
      _ = p.ids + e.ids + (Entity.idsAll group.entities + pending) := by abel
  refine ⟨hnodes, hlifted, hcursors, Multiset.nodup_of_le hle h.nodup, ?_⟩
  intro id hid
  rw [hnext]
  exact h.bounded id (Multiset.mem_of_le hle hid)

/-- A group that lands is put behind the hole, and the cursor of what is in the hole goes on to its
last entity. -/
theorem Holds.deliver_zero {entities : List Entity}
    (h : Holds s (.inside frame p) e (Entity.idsAll entities + pending)) :
    ∃ s', deliver (e.id :: frame.owner.id :: p.path) s ⟨0, entities⟩ = some s' ∧
      Holds s' ((Surroundings.inside frame p).push ⟨0, entities⟩) e pending ∧
      s'.next = s.next ∧ SameCursors [e.id] s s' := by
  obtain ⟨hcursor, hcursors⟩ := h.cursors
  have hclosed := (holds_inside.1 h).2
  -- The owner is found, and so is the one among its children that has been put in last.
  have hinsert := Entity.insertAfter?_landed h.nodup_row entities frame.after
  rw [← hcursor] at hinsert
  have hchange : (frame.close e).change frame.owner.id
      (Entity.insertAfter? ((s.cursors.lookup e.id).getD e.id) entities) =
        some (Frame.close { frame with landed := frame.landed ++ entities } e) :=
    (Entity.change_self (frame.close e) _).trans (congrArg (Option.map _) hinsert)
  have hnodes : Entity.changeAll frame.owner.id
      (Entity.insertAfter? ((s.cursors.lookup e.id).getD e.id) entities) s.nodes =
        some (p.plug (Frame.close { frame with landed := frame.landed ++ entities } e)) := by
    rw [hclosed.nodes]
    exact Surroundings.changeAll_plug hclosed.id_notMem hchange
  have hdeliver : deliver (e.id :: frame.owner.id :: p.path) s ⟨0, entities⟩ =
      some { s with
        nodes := p.plug (Frame.close { frame with landed := frame.landed ++ entities } e)
        cursors := moveCursor e.id entities s.cursors } := by
    unfold deliver
    rw [List.drop_zero]
    dsimp only
    rw [hnodes]
    rfl
  have hsame : SameCursors [e.id] s { s with
      nodes := p.plug (Frame.close { frame with landed := frame.landed ++ entities } e)
      cursors := moveCursor e.id entities s.cursors } := by
    intro id hid
    exact lookup_moveCursor_of_ne (mt List.mem_singleton.2 hid) entities s.cursors
  refine ⟨_, hdeliver, h.pushed ⟨0, entities⟩ rfl h.lifted ⟨?_, ?_⟩ rfl, rfl, hsame⟩
  · show (moveCursor e.id entities s.cursors).lookup e.id =
      (frame.landed ++ entities).getLast?.map Entity.id
    rw [lookup_moveCursor_self, hcursor, List.getLast?_append]
    cases entities.getLast? <;> rfl
  · refine hcursors.congr fun other hother => hsame other ?_
    intro hmem
    obtain rfl := List.mem_singleton.1 hmem
    exact h.id_notMem ((Surroundings.inside frame p).mem_ids_of_mem_path hother)

/-- A group is delivered by pushing it behind the hole. -/
theorem Holds.deliver {group : EntityGroup}
    (h : Holds s p e (Entity.idsAll group.entities + pending)) :
    ∃ s', Attaching.deliver (e.id :: p.path) s group = some s' ∧ Holds s' (p.push group) e pending ∧
      s'.next = s.next ∧ SameCursors (e.id :: p.path) s s' := by
  obtain ⟨level, entities⟩ := group
  induction p generalizing e level with
  | top before landed lifted =>
    cases level with
    | zero =>
      have hnodes : s.nodes ++ entities = before ++ e :: (landed ++ entities) := by
        rw [h.nodes, Surroundings.plug, List.append_assoc, List.cons_append]
      exact ⟨_, rfl, h.pushed ⟨0, entities⟩ hnodes h.lifted trivial rfl, rfl, fun _ _ => rfl⟩
    | succ level =>
      have hdeliver : Attaching.deliver [e.id] s ⟨level + 1, entities⟩ =
          some { s with lifted := s.lifted ++ [⟨level, Entity.nodes entities⟩] } := by
        unfold Attaching.deliver
        rw [List.drop_succ_cons, List.drop_nil]
        rfl
      have hlifted : s.lifted ++ [⟨level, Entity.nodes entities⟩] =
          lifted ++ [⟨level, Entity.nodes entities⟩] := by
        rw [h.lifted, Surroundings.lifted]
      refine ⟨_, hdeliver, ?_, rfl, fun _ _ => rfl⟩
      exact h.pushed ⟨level + 1, entities⟩ h.nodes hlifted trivial rfl
  | inside frame outer ih =>
    cases level with
    | zero =>
      obtain ⟨s', hdeliver, hholds, hnext, hsame⟩ := h.deliver_zero
      refine ⟨s', hdeliver, hholds, hnext, fun id hid => hsame id ?_⟩
      exact fun hmem => hid (List.mem_singleton.1 hmem ▸ List.mem_cons_self)
    | succ level =>
      obtain ⟨hcursor, hclosed⟩ := holds_inside.1 h
      obtain ⟨s', hdeliver, hholds, hnext, hsame⟩ := ih level hclosed
      -- The cursor of what is in the hole is not touched.
      have hown : s'.cursors.lookup e.id = s.cursors.lookup e.id :=
        hsame e.id fun hmem =>
          h.id_notMem ((Surroundings.inside frame outer).mem_ids_of_mem_path hmem)
      refine ⟨s', ?_, holds_inside.2 ⟨hown.trans hcursor, hholds⟩, hnext, ?_⟩
      · rw [Surroundings.path, deliver_succ]
        exact hdeliver
      · intro id hid
        exact hsame id fun hmem => hid (List.mem_cons_of_mem _ hmem)

/-- Groups are delivered by pushing them behind the hole. -/
theorem Holds.deliverAll {groups : List EntityGroup}
    (h : Holds s p e (EntityGroup.idsIn groups + pending)) :
    ∃ s', groups.foldlM (Attaching.deliver (e.id :: p.path)) s = some s' ∧
      Holds s' (groups.foldl Surroundings.push p) e pending ∧ s'.next = s.next ∧
      SameCursors (e.id :: p.path) s s' := by
  induction groups generalizing s p with
  | nil =>
    rw [EntityGroup.idsIn, List.map_nil, List.sum_nil, zero_add] at h
    exact ⟨s, rfl, h, rfl, fun _ _ => rfl⟩
  | cons group rest ih =>
    rw [EntityGroup.idsIn, List.map_cons, List.sum_cons, add_assoc] at h
    obtain ⟨s₁, hfirst, hholds, hnext, hsame⟩ := h.deliver
    obtain ⟨s₂, hrest, hholds', hnext', hsame'⟩ := ih hholds
    rw [Surroundings.path_push] at hrest hsame'
    refine ⟨s₂, ?_, hholds', hnext'.trans hnext, fun id hid => (hsame' id hid).trans (hsame id hid)⟩
    rw [List.foldlM_cons, hfirst]
    exact hrest

end Attaching

end Abbrev
