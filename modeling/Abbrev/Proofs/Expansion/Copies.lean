import Abbrev.Expansion
import Mathlib.Algebra.Group.Nat.Defs
import Mathlib.Tactic.SplitIfs

/-!
# How many copies there are

An expansion cannot be made if something is to be copied too often. What is copied, and how often,
is said here of the abbreviation (`Abbreviation.Copies`): each repetition counts that is carried
out, so not one inside of something that there are no copies of, nor one on the right side of `>`
where the left side has no node to put it into.

The search for the first repetition that is too large finds one exactly if there is one
(`Abbreviation.oversized?_eq_none_iff`). It asks whether an expansion has nodes without making it,
so that has to be compared with the expansion first (`Abbreviation.hasNodes_iff`).
-/

namespace Abbrev

/-! ## Which expansions have nodes -/

namespace Expansion

variable {e f : Expansion}

/-- One of two expansions has nodes if the two together have any. -/
theorem flatten_append_eq_nil :
    (e.append f).flatten = [] ↔ e.flatten = [] ∧ f.flatten = [] := by
  unfold flatten append
  simp only [List.flatMap_append, List.append_eq_nil_iff]
  exact and_and_and_comm

/-- Expansions one after the other have no nodes if none of them has any. -/
theorem flatten_foldr_append_eq_nil {parts : List Expansion} :
    (parts.foldr append nothing).flatten = [] ↔ ∀ part ∈ parts, part.flatten = [] := by
  induction parts with
  | nil => simp [flatten, nothing]
  | cons part rest ih => rw [List.foldr_cons, flatten_append_eq_nil, ih, List.forall_mem_cons]

/-- The same of the nodes at their own level. -/
theorem nodes_foldr_append_eq_nil {parts : List Expansion} :
    (parts.foldr append nothing).nodes = [] ↔ ∀ part ∈ parts, part.nodes = [] := by
  induction parts with
  | nil => simp [nothing]
  | cons part rest ih =>
    rw [List.foldr_cons, append, List.append_eq_nil_iff, ih, List.forall_mem_cons]

/-- Nodes are filled, and none comes from nowhere. -/
theorem nodes_fillAll_eq_nil {grow : Int → Option Text → Expansion} {wrapped : Option Text}
    {forest : List Node} : (fillAll grow wrapped forest).nodes = [] ↔ forest = [] := by
  cases forest with
  | nil => simp [fillAll, nothing]
  | cons node rest => simp [fillAll]

/-- There is a share for each copy. -/
theorem shares_eq_nil {atEnd : Bool} {wrapped : Option Text} {count : Nat} :
    shares atEnd wrapped count = [] ↔ count = 0 := by
  unfold shares
  split
  · simp
  · split
    · simp
    · split <;> simp

end Expansion

namespace Abbreviation

/-- Copies have nodes if what is copied has, and if there are any. -/
theorem hasNodes_copies {inner : Abbreviation} {setting : ExpansionSetting} {α : Type}
    (items : List α) (index : α → Int) (share : α → Option Text)
    (ih : ∀ index wrapped,
      (inner.hasNodes = false ↔ (inner.expansion setting index wrapped).flatten = []) ∧
        (inner.hasOwnNodes = false ↔ (inner.expansion setting index wrapped).nodes = [])) :
    let copies : Expansion :=
      (items.map fun item => inner.expansion setting (index item) (share item)).foldr
        .append .nothing
    (items = [] ∨ inner.hasNodes = false ↔ copies.flatten = []) ∧
      (items = [] ∨ inner.hasOwnNodes = false ↔ copies.nodes = []) := by
  have hall {p : α → Prop} {q : Prop} (h : ∀ item, q ↔ p item) :
      items = [] ∨ q ↔ ∀ item ∈ items, p item := by
    cases items with
    | nil => simp
    | cons item rest =>
      simp only [reduceCtorEq, false_or, ← h]
      exact ⟨fun hq _ _ => hq, fun hall => hall item List.mem_cons_self⟩
  dsimp only
  rw [Expansion.flatten_foldr_append_eq_nil, Expansion.nodes_foldr_append_eq_nil,
    List.forall_mem_map, List.forall_mem_map]
  exact ⟨hall fun item => (ih _ _).1, hall fun item => (ih _ _).2⟩

/-- Whether an expansion has nodes, at its own level or at all, depends on the abbreviation alone.
-/
theorem hasNodes_iff (a : Abbreviation) (setting : ExpansionSetting) (index : Int)
    (wrapped : Option Text) :
    (a.hasNodes = false ↔ (a.expansion setting index wrapped).flatten = []) ∧
      (a.hasOwnNodes = false ↔ (a.expansion setting index wrapped).nodes = []) := by
  induction a generalizing index wrapped with
  | element | text => simp [hasNodes, hasOwnNodes, expansion, Expansion.flatten]
  | empty => simp [hasNodes, hasOwnNodes, expansion, Expansion.flatten, Expansion.nothing]
  | group inner ih =>
    simp [hasNodes, hasOwnNodes, expansion, Expansion.flatten, (ih index wrapped).1]
  | filtered inner _ ih => simpa only [hasNodes, hasOwnNodes, expansion] using ih index wrapped
  | sibling left right ihLeft ihRight =>
    obtain ⟨hleft, hleftOwn⟩ := ihLeft index none
    obtain ⟨hright, hrightOwn⟩ := ihRight index wrapped
    rw [hasNodes, hasOwnNodes, expansion, Expansion.flatten_append_eq_nil, Bool.or_eq_false_iff,
      Bool.or_eq_false_iff, hleft, hright, hleftOwn, hrightOwn]
    exact ⟨Iff.rfl, List.append_eq_nil_iff.symm⟩
  | climb left right ihLeft ihRight =>
    obtain ⟨hleft, hleftOwn⟩ := ihLeft index none
    have hright := (ihRight index wrapped).1
    rw [hasNodes, hasOwnNodes, expansion, Bool.or_eq_false_iff, hleft, hright, hleftOwn]
    refine ⟨?_, Iff.rfl⟩
    simp [Expansion.flatten, List.flatMap_map, and_assoc]
  | child left right ihLeft _ =>
    obtain ⟨hleft, hleftOwn⟩ := ihLeft index none
    rw [hasNodes, hasOwnNodes, expansion, hleft, hleftOwn]
    refine ⟨?_, Expansion.nodes_fillAll_eq_nil.symm⟩
    -- Nothing is lifted out of nodes that are not there.
    cases hnodes : (left.expansion setting index none).nodes with
    | nil => simp [Expansion.flatten, hnodes, Expansion.fillAll, Expansion.nothing]
    | cons node rest => simp [Expansion.flatten, hnodes, Expansion.fillAll]
  | repeated inner count ih =>
    cases count with
    | perLine =>
      rw [hasNodes, hasOwnNodes, expansion]
      split
      · simpa using ih 0 wrapped
      · next lines hlines =>
        have hcopies := hasNodes_copies (Expansion.wrappedLines wrapped).zipIdx
          (fun item => item.2) (fun item => some item.1) ih
        have hne : Expansion.wrappedLines wrapped ≠ [] := hlines
        simpa [hne] using hcopies
    | times count =>
      have hcopies := hasNodes_copies (Expansion.shares setting.atEnd wrapped count).zipIdx
        (fun item => item.2) (fun item => item.1) ih
      have hnone : (Expansion.shares setting.atEnd wrapped count).zipIdx = [] ↔ count = 0 := by
        rw [List.zipIdx_eq_nil_iff, Expansion.shares_eq_nil]
      rw [hnone] at hcopies
      simpa [hasNodes, hasOwnNodes, expansion, Classical.or_iff_not_imp_left] using hcopies

/-! ## What is copied -/

/-- Expanding the abbreviation makes so many copies of a part of it. There are no copies inside of
what is not copied itself, nor on the right side of `>` if no node of the left side stands at the
level of that. -/
def Copies : Abbreviation → Nat → Prop
  | .element _ _ _, _ | .text _, _ | .empty, _ => False
  | .group inner, count | .filtered inner _, count | .repeated inner .perLine, count =>
    inner.Copies count
  | .sibling left right, count | .climb left right, count => left.Copies count ∨ right.Copies count
  | .child left right, count =>
    left.Copies count ∨
      (∃ setting index wrapped, (left.expansion setting index wrapped).nodes ≠ []) ∧
        right.Copies count
  | .repeated inner (.times times), count => count = times ∨ times ≠ 0 ∧ inner.Copies count

/-- There is a node to put something into if the abbreviation has nodes at its own level. -/
theorem hasOwnNodes_iff (a : Abbreviation) :
    a.hasOwnNodes = true ↔
      ∃ setting index wrapped, (a.expansion setting index wrapped).nodes ≠ [] := by
  constructor
  · intro h
    refine ⟨{}, 0, none, fun hnil => ?_⟩
    rw [← (a.hasNodes_iff {} 0 none).2, h] at hnil
    cases hnil
  · rintro ⟨setting, index, wrapped, hne⟩
    rwa [ne_eq, ← (a.hasNodes_iff setting index wrapped).2, Bool.not_eq_false] at hne

/-- There can be fewer than `2 ^ 60` copies. -/
theorem tooMany?_eq_none_iff {count : Nat} : Expansion.tooMany? count = none ↔ count < 2 ^ 60 := by
  unfold Expansion.tooMany? SizeError.ofCopies? SizeError.indexLimit
  split_ifs <;> simp <;> omega

/-- No repetition is found too large exactly if nothing is copied too often. -/
theorem oversized?_eq_none_iff (a : Abbreviation) :
    a.oversized? = none ↔ ∀ count, a.Copies count → count < 2 ^ 60 := by
  induction a with
  | element | text | empty => simp [oversized?, Copies]
  | group inner ih | filtered inner _ ih => exact ih
  | sibling left right ihLeft ihRight | climb left right ihLeft ihRight =>
    rw [oversized?, Option.or_eq_none_iff, ihLeft, ihRight]
    simp only [Copies, or_imp, forall_and]
  | child left right ihLeft ihRight =>
    simp only [oversized?, Copies, Option.or_eq_none_iff, ihLeft, ← hasOwnNodes_iff, or_imp,
      forall_and]
    cases left.hasOwnNodes <;> simp [ihRight]
  | repeated inner count ih =>
    cases count with
    | perLine => exact ih
    | times times =>
      simp only [oversized?, Copies, Option.or_eq_none_iff, tooMany?_eq_none_iff, or_imp,
        forall_and, forall_eq]
      by_cases htimes : times = 0 <;> simp [htimes, ih]

/-- Something is copied more often than there can be copies. -/
def Oversized (a : Abbreviation) : Prop :=
  ∃ count, a.Copies count ∧ 2 ^ 60 ≤ count

/-- The forest is given unless something is copied too often. -/
theorem expand?_outcome (a : Abbreviation) (setting : ExpansionSetting) (index : Int)
    (wrapped : Option Text) :
    (¬ a.Oversized ∧ a.expand? setting index wrapped = .ok (a.expand setting index wrapped)) ∨
      (a.Oversized ∧ ∃ e, a.expand? setting index wrapped = .error e) := by
  have hnot : a.oversized? = none ↔ ¬ a.Oversized := by
    rw [oversized?_eq_none_iff, Oversized]
    simp
  unfold expand?
  cases h : a.oversized? with
  | none => exact .inl ⟨hnot.1 h, rfl⟩
  | some e =>
    refine .inr ⟨Classical.not_not.1 fun hsize => ?_, e, rfl⟩
    exact Option.some_ne_none e (h.symm.trans (hnot.2 hsize))

/-- A forest that is given is the one that the abbreviation expands into. -/
theorem eq_expand_of_expand? {a : Abbreviation} {setting : ExpansionSetting} {index : Int}
    {wrapped : Option Text} {nodes : List Node}
    (h : a.expand? setting index wrapped = .ok nodes) : nodes = a.expand setting index wrapped := by
  obtain ⟨-, hexpand⟩ | ⟨-, e, hexpand⟩ := a.expand?_outcome setting index wrapped
  · exact Except.ok.inj (h.symm.trans hexpand)
  · exact nomatch h.symm.trans hexpand

end Abbreviation

end Abbrev
