import Abbrev.Proofs.Expansion.Census

/-!
# Wrapped text goes to leaves

The nodes that have a part of a wrapped text have no children. A part that is expanded around a text
gives it to a childless node, and what comes later is not put into that: the left side of each
operator is expanded without a text, and it is the left side that is filled.

So the invariant is twofold (`Node.Takes`): without a text no node has a part of one, and with a
text no node with children has. It is shown of all nodes of a forest (`Node.Everywhere`), operator
by operator (`Abbreviation.everywhere_expansion`).
-/

namespace Abbrev

namespace Node

/-- Something holds of each node of a forest and of each node inside it. -/
inductive Everywhere (p : Node → Prop) : List Node → Prop
  | nil : Everywhere p []
  | cons {node : Node} {rest : List Node} (own : p node) (inside : Everywhere p node.children)
      (behind : Everywhere p rest) : Everywhere p (node :: rest)

variable {p q : Node → Prop} {forest more : List Node}

/-- What holds everywhere in a forest holds of its first node, inside it, and behind it. -/
theorem everywhere_cons {node : Node} {rest : List Node} :
    Everywhere p (node :: rest) ↔ p node ∧ Everywhere p node.children ∧ Everywhere p rest := by
  constructor
  · intro h
    cases h with
    | cons own inside behind => exact ⟨own, inside, behind⟩
  · rintro ⟨own, inside, behind⟩
    exact .cons own inside behind

/-- What holds everywhere in a forest holds of each of its nodes, and inside it. -/
theorem Everywhere.of_mem (h : Everywhere p forest) {node : Node} (hnode : node ∈ forest) :
    p node ∧ Everywhere p node.children := by
  induction forest with
  | nil => cases hnode
  | cons first rest ih =>
    obtain ⟨own, inside, behind⟩ := everywhere_cons.1 h
    rcases List.mem_cons.1 hnode with rfl | hnode
    · exact ⟨own, inside⟩
    · exact ih behind hnode

/-- What holds everywhere in two forests, holds everywhere in the two one after the other. -/
theorem Everywhere.append (h : Everywhere p forest) (hmore : Everywhere p more) :
    Everywhere p (forest ++ more) := by
  induction forest with
  | nil => exact hmore
  | cons node rest ih =>
    obtain ⟨own, inside, behind⟩ := everywhere_cons.1 h
    exact .cons own inside (ih behind)

/-- The same of many forests. -/
theorem everywhere_flatMap {α : Type} {items : List α} {f : α → List Node}
    (h : ∀ item ∈ items, Everywhere p (f item)) : Everywhere p (items.flatMap f) := by
  induction items with
  | nil => exact .nil
  | cons item rest ih =>
    obtain ⟨hitem, hrest⟩ := List.forall_mem_cons.1 h
    exact hitem.append (ih hrest)

/-- What follows from something that holds everywhere holds everywhere. -/
theorem Everywhere.imp (h : Everywhere p forest) (hpq : ∀ node, p node → q node) :
    Everywhere q forest := by
  induction h with
  | nil => exact .nil
  | cons own _ _ ihInside ihBehind => exact .cons (hpq _ own) ihInside ihBehind

/-- The node has no part of a wrapped text, unless there is a text and the node has no children. -/
def Takes (wrapped : Option Text) (node : Node) : Prop :=
  node.wrapped = none ∨ (wrapped.isSome = true ∧ node.children = [])

end Node

namespace Expansion

open Node (Everywhere Takes)

/-- Something holds of each node of an expansion, wherever it is put. -/
structure Everywhere (p : Node → Prop) (e : Expansion) : Prop where
  nodes : Node.Everywhere p e.nodes
  lifted : ∀ group ∈ e.lifted, Node.Everywhere p group.nodes

variable {p q : Node → Prop} {e f : Expansion}

/-- The expansion without nodes. -/
theorem everywhere_nothing : nothing.Everywhere p :=
  ⟨.nil, List.forall_mem_nil _⟩

/-- Two expansions one after the other. -/
theorem Everywhere.append (he : e.Everywhere p) (hf : f.Everywhere p) :
    (e.append f).Everywhere p :=
  ⟨he.nodes.append hf.nodes, List.forall_mem_append.2 ⟨he.lifted, hf.lifted⟩⟩

/-- Many expansions one after the other. -/
theorem everywhere_foldr_append {parts : List Expansion} (h : ∀ part ∈ parts, part.Everywhere p) :
    (parts.foldr append nothing).Everywhere p := by
  induction parts with
  | nil => exact everywhere_nothing
  | cons part rest ih =>
    obtain ⟨hpart, hrest⟩ := List.forall_mem_cons.1 h
    exact hpart.append (ih hrest)

/-- An expansion that is put together as a forest. -/
theorem Everywhere.flatten (h : e.Everywhere p) : Node.Everywhere p e.flatten :=
  h.nodes.append (Node.everywhere_flatMap h.lifted)

/-- An expansion that climbs. -/
theorem Everywhere.raised (h : e.Everywhere p) : (⟨[], e.raised⟩ : Expansion).Everywhere p := by
  refine ⟨.nil, List.forall_mem_cons.2 ⟨h.nodes, ?_⟩⟩
  intro group hgroup
  obtain ⟨before, hbefore, rfl⟩ := List.mem_map.1 hgroup
  exact h.lifted before hbefore

/-- What follows from something that holds everywhere holds everywhere. -/
theorem Everywhere.imp (h : e.Everywhere p) (hpq : ∀ node, p node → q node) : e.Everywhere q :=
  ⟨h.nodes.imp hpq, fun group hgroup => (h.lifted group hgroup).imp hpq⟩

/-- An expansion inside a node, where groups land behind the node or go on. -/
theorem Everywhere.inside {node : Node} (h : e.Everywhere p)
    (hnode : p { node with children := e.nodes }) :
    (⟨{ node with children := e.nodes } :: landed e.lifted, risen e.lifted⟩ :
      Expansion).Everywhere p := by
  refine ⟨.cons hnode h.nodes (Node.everywhere_flatMap ?_), ?_⟩
  · intro group hgroup
    exact h.lifted group (List.mem_filter.1 hgroup).1
  · intro group hgroup
    obtain ⟨before, hbefore, rfl⟩ := List.mem_map.1 hgroup
    exact h.lifted before (List.mem_filter.1 hbefore).1

/-- What takes a share of a text takes the text. -/
theorem Everywhere.of_share {share wrapped : Option Text} (h : e.Everywhere (Takes share))
    (hshare : share.isSome = true → wrapped.isSome = true) : e.Everywhere (Takes wrapped) :=
  h.imp fun _ htakes => htakes.imp_right fun hleaf => ⟨hshare hleaf.1, hleaf.2⟩

/-- Nodes that have nothing of a text may be filled with what gives a text to leaves. -/
theorem everywhere_fillAll {grow : Int → Option Text → Expansion}
    (hgrow : ∀ index wrapped, (grow index wrapped).Everywhere (Takes wrapped)) {forest : List Node}
    (hforest : Node.Everywhere (Takes none) forest) (wrapped : Option Text) :
    (fillAll grow wrapped forest).Everywhere (Takes wrapped) := by
  induction forest using Node.forest_induction generalizing wrapped with
  | nil => exact everywhere_nothing
  | cons node rest ihChildren ihRest =>
    obtain ⟨hown, hinside, hbehind⟩ := Node.everywhere_cons.1 hforest
    rw [fillAll_cons]
    refine .append ?_ (ihRest hbehind wrapped)
    generalize hshare : (if rest.isEmpty then wrapped else none) = share
    -- The node has nothing of a text before it is filled, and gets nothing itself.
    have hnone : node.wrapped = none := hown.resolve_right fun hleaf => nomatch hleaf.1
    have hfilled : Expansion.Everywhere (Takes share) (if node.children = [] then
        grow node.index share else fillAll grow share node.children) := by
      split
      · exact hgrow node.index share
      · exact ihChildren hinside share
    refine (hfilled.of_share ?_).inside (.inl hnone)
    rw [← hshare]
    split
    · exact id
    · exact nofun

end Expansion

namespace Abbreviation

open Node (Takes)
open Expansion

variable {setting : ExpansionSetting}

/-- A node without children takes a text. -/
theorem everywhere_single {node : Node} {wrapped : Option Text} (hchildren : node.children = [])
    (hwrapped : node.wrapped = wrapped) :
    (⟨[node], []⟩ : Expansion).Everywhere (Takes wrapped) := by
  refine ⟨.cons ?_ (hchildren ▸ .nil) .nil, List.forall_mem_nil _⟩
  cases wrapped with
  | none => exact .inl hwrapped
  | some t => exact .inr ⟨rfl, hchildren⟩

/-- There are shares of a text only if there is a text. -/
theorem isSome_of_mem_shares {atEnd : Bool} {wrapped share : Option Text} {count : Nat}
    (h : share ∈ shares atEnd wrapped count) (hshare : share.isSome = true) :
    wrapped.isSome = true := by
  cases wrapped with
  | some t => rfl
  | none =>
    rw [shares_none] at h
    rwa [List.eq_of_mem_replicate h] at hshare

/-- Where an abbreviation is expanded around a text, only nodes without children have a part of it,
and without a text, none has. -/
theorem everywhere_expansion (a : Abbreviation) (index : Int) (wrapped : Option Text) :
    (a.expansion setting index wrapped).Everywhere (Takes wrapped) := by
  induction a generalizing index wrapped with
  | element key attributes inline => exact everywhere_single rfl rfl
  | text value => exact everywhere_single rfl rfl
  | empty => exact everywhere_nothing
  | group inner ih => exact ⟨(ih index wrapped).flatten, List.forall_mem_nil _⟩
  | filtered inner suffix ih => exact ih index wrapped
  | sibling left right ihLeft ihRight =>
    exact ((ihLeft index none).of_share nofun).append (ihRight index wrapped)
  | climb left right ihLeft ihRight =>
    rw [expansion_climb]
    exact ((ihLeft index none).of_share nofun).append (ihRight index wrapped).raised
  | child left right ihLeft ihRight =>
    have hleft := ihLeft index none
    have hlifted : (⟨[], (left.expansion setting index none).lifted⟩ : Expansion).Everywhere
        (Takes none) := ⟨.nil, hleft.lifted⟩
    rw [expansion_child]
    exact (hlifted.of_share nofun).append (everywhere_fillAll ihRight hleft.nodes wrapped)
  | repeated inner count ih =>
    cases count with
    | perLine =>
      rw [expansion]
      split
      · exact ih 0 wrapped
      · next hlines =>
        -- There are lines only if there is a text.
        have hsome : wrapped.isSome = true := by
          cases wrapped with
          | none => exact absurd rfl hlines
          | some t => rfl
        refine everywhere_foldr_append (List.forall_mem_map.2 ?_)
        intro share _
        exact (ih share.2 (some share.1)).of_share fun _ => hsome
    | times count =>
      rw [expansion]
      refine everywhere_foldr_append (List.forall_mem_map.2 ?_)
      intro share hshare
      exact (ih share.2 share.1).of_share
        (isSome_of_mem_shares (List.fst_mem_of_mem_zipIdx hshare))

end Abbreviation

end Abbrev
