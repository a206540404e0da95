import Mathlib.Algebra.BigOperators.Group.List.Basic
import Mathlib.Tactic.Abel
import Abbrev.Proofs.Expansion.WrappedText
import Abbrev.Proofs.Forest.Labels
import Abbrev.Proofs.Text.Counter

/-!
# How many nodes of which kind

What an abbreviation says can be counted without expanding it: a repetition multiplies, operators
add up, and `left>right` has the right side once for every childless node of the left one
(`Abbreviation.census`). This module shows that expansion conserves the count: each node of the
census is somewhere in the forest, and nothing else is.

Groups that climb are where nodes could get lost or appear twice. Each group that leaves a node
either lands behind it or goes on, so the two parts together have the labels of all groups
(`labels_landed_risen`), and filling a forest adds what grows once for each of its childless nodes
(`labels_fillAll`). How many of those there are depends on the nesting alone, which is the same for
all copies: that is why the census can speak of one expansion of the left side
(`Abbreviation.shape_expansion`).
-/

namespace Abbrev

namespace Expansion

variable {grow : Int → Option Text → Expansion}

/-! ## Labels of expansions -/

/-- The labels of all nodes in groups. -/
def labelsInGroups (groups : List Lifted) : Multiset (Option Text × Option Text) :=
  (groups.map fun group => Node.labels group.nodes).sum

/-- The labels of all nodes of an expansion, wherever they are put. -/
def labels (e : Expansion) : Multiset (Option Text × Option Text) :=
  Node.labels e.nodes + labelsInGroups e.lifted

/-- Put together as a forest, an expansion keeps its labels. -/
theorem labels_flatten (e : Expansion) : Node.labels e.flatten = e.labels := by
  rw [flatten, Node.labels_append, Node.labels_flatMap]
  rfl

/-- The expansion without nodes has no labels. -/
theorem labels_nothing : nothing.labels = 0 := by
  unfold labels nothing
  rw [Node.labels_nil]
  rfl

/-- A single node without children has one label. -/
theorem labels_node {node : Node} (h : node.children = []) :
    (⟨[node], []⟩ : Expansion).labels = {node.label} := by
  unfold labels
  rw [Node.labels_cons, h, Node.labels_nil]
  rfl

/-- Two expansions one after the other have the labels of both. -/
theorem labels_append (e f : Expansion) : (e.append f).labels = e.labels + f.labels := by
  unfold labels labelsInGroups append
  rw [Node.labels_append, List.map_append, List.sum_append]
  abel

/-- An expansion that climbs behind some nodes keeps its labels. -/
theorem labels_raised (nodes : List Node) (e : Expansion) :
    (⟨nodes, e.raised⟩ : Expansion).labels = Node.labels nodes + e.labels := by
  unfold labels labelsInGroups raised
  rw [List.map_cons, List.sum_cons, List.map_map]
  rfl

/-- Expansions one after the other have the labels of all. -/
theorem labels_foldr_append (parts : List Expansion) :
    (parts.foldr append nothing).labels = (parts.map labels).sum := by
  induction parts with
  | nil => exact labels_nothing
  | cons part rest ih => rw [List.foldr_cons, labels_append, ih, List.map_cons, List.sum_cons]

/-- Groups that leave a node land or go on, all of them and none twice. -/
theorem labels_landed_risen (groups : List Lifted) :
    Node.labels (landed groups) + labelsInGroups (risen groups) = labelsInGroups groups := by
  have hrisen : labelsInGroups (risen groups) =
      ((groups.filter fun group => group.level ≠ 0).map fun group =>
        Node.labels group.nodes).sum := by
    unfold labelsInGroups risen
    rw [List.map_map]
    rfl
  have hperm := List.filter_append_perm (fun group : Lifted => decide (group.level = 0)) groups
  have hsum := (hperm.map fun group => Node.labels group.nodes).sum_eq
  rw [List.map_append, List.sum_append] at hsum
  rw [landed, Node.labels_flatMap, hrisen, labelsInGroups, ← hsum]
  simp only [ne_eq, decide_not]

/-! ## Filling, node by node -/

/-- A node is filled with what grows for its copy if it has no children, and else by filling these;
all else about it stays. -/
theorem fill_eq (grow : Int → Option Text → Expansion) (wrapped : Option Text) (node : Node) :
    node.fill grow wrapped =
      let inside :=
        if node.children = [] then grow node.index wrapped else fillAll grow wrapped node.children
      ({ node with children := inside.nodes }, inside.lifted) := by
  obtain ⟨kind, index, text, own, _ | ⟨child, more⟩⟩ := node
  · rw [Node.fill, if_pos rfl]
  · rw [Node.fill, if_neg (List.cons_ne_nil _ _)]

/-- Filling a forest: the first node with what is inside it then, the groups that land behind it,
and the rest of the forest. Only the last node is given the text. -/
theorem fillAll_cons (grow : Int → Option Text → Expansion) (wrapped : Option Text) (node : Node)
    (rest : List Node) :
    fillAll grow wrapped (node :: rest) =
      let share := if rest.isEmpty then wrapped else none
      let inside :=
        if node.children = [] then grow node.index share else fillAll grow share node.children
      append ⟨{ node with children := inside.nodes } :: landed inside.lifted, risen inside.lifted⟩
        (fillAll grow wrapped rest) := by
  rw [fillAll, fill_eq]
  rfl

/-- Filling a forest without text. -/
theorem fillAll_cons_none (grow : Int → Option Text → Expansion) (node : Node) (rest : List Node) :
    fillAll grow none (node :: rest) =
      let inside :=
        if node.children = [] then grow node.index none else fillAll grow none node.children
      append ⟨{ node with children := inside.nodes } :: landed inside.lifted, risen inside.lifted⟩
        (fillAll grow none rest) := by
  rw [fillAll_cons, ite_self]

/-- A node with an expansion inside it, where the groups of that land or go on, has the labels of
the node and of the expansion. -/
theorem labels_inside (node : Node) (inside : Expansion) :
    (⟨{ node with children := inside.nodes } :: landed inside.lifted,
      risen inside.lifted⟩ : Expansion).labels = {node.label} + inside.labels := by
  have hnode : ({ node with children := inside.nodes } : Node).label = node.label := rfl
  calc _ = {node.label} + Node.labels inside.nodes +
          (Node.labels (landed inside.lifted) + labelsInGroups (risen inside.lifted)) := by
        rw [labels, Node.labels_cons, hnode, add_assoc]
    _ = {node.label} + inside.labels := by
        rw [labels_landed_risen, add_assoc, labels]

/-- A forest that is filled has its own labels, and those of what grows once for each of its
childless nodes. -/
theorem labels_fillAll {grown : Multiset (Option Text × Option Text)}
    (hgrow : ∀ index, (grow index none).labels = grown) (forest : List Node) :
    (fillAll grow none forest).labels =
      Node.labels forest + Node.leafCountAll forest • grown := by
  induction forest using Node.forest_induction with
  | nil => simp [fillAll, nothing, labels, labelsInGroups, Node.leafCountAll]
  | cons node rest ihChildren ihRest =>
    rw [fillAll_cons_none]
    dsimp only
    rw [labels_append, labels_inside, ihRest, Node.labels_cons, Node.leafCountAll_cons]
    by_cases hchildren : node.children = []
    · rw [if_pos hchildren, if_pos hchildren, hgrow, hchildren, Node.labels_nil, add_nsmul,
        one_nsmul]
      abel
    · rw [if_neg hchildren, if_neg hchildren, ihChildren, add_nsmul]
      abel

/-! ## Shapes of expansions -/

/-- An expansion of which nothing is left but the nesting of its nodes and the levels of its
groups. -/
def shape (e : Expansion) : Expansion :=
  ⟨e.nodes.map Node.shape, e.lifted.map fun group => ⟨group.level, group.nodes.map Node.shape⟩⟩

/-- Two expansions one after the other have the shapes of both. -/
theorem shape_append (e f : Expansion) : (e.append f).shape = e.shape.append f.shape := by
  unfold shape append
  rw [List.map_append, List.map_append]

/-- The shape of a forest that is put together from an expansion. -/
theorem map_shape_flatten (e : Expansion) : e.flatten.map Node.shape = e.shape.flatten := by
  unfold shape flatten
  rw [List.map_append, List.map_flatMap, List.flatMap_map]

/-- The shape of an expansion that climbs behind some nodes. -/
theorem shape_raised (nodes : List Node) (e : Expansion) :
    (⟨nodes, e.raised⟩ : Expansion).shape = ⟨nodes.map Node.shape, e.shape.raised⟩ := by
  unfold shape raised
  rw [List.map_cons, List.map_map, List.map_map]
  rfl

/-- The shapes of expansions one after the other are those of each. -/
theorem shape_foldr_append (parts : List Expansion) :
    (parts.foldr append nothing).shape = (parts.map shape).foldr append nothing := by
  induction parts with
  | nil => rfl
  | cons part rest ih => rw [List.foldr_cons, shape_append, ih, List.map_cons, List.foldr_cons]

/-- Which groups land, and which go on, can be told from the shape. -/
theorem shape_inside (node : Node) (inside : Expansion) :
    (⟨{ node with children := inside.nodes } :: landed inside.lifted,
      risen inside.lifted⟩ : Expansion).shape =
      ⟨{ node.shape with children := inside.shape.nodes } :: landed inside.shape.lifted,
        risen inside.shape.lifted⟩ := by
  obtain ⟨kind, index, text, own, children⟩ := node
  simp only [shape, landed, risen, Node.shape, Node.shapeAll_eq_map, List.map_cons,
    List.map_flatMap, List.filter_map, List.flatMap_map, List.map_map]
  rfl

/-- A forest is filled alike with expansions of one shape. -/
theorem shape_fillAll {grown : Expansion} (hgrow : ∀ index, (grow index none).shape = grown)
    (forest : List Node) :
    (fillAll grow none forest).shape =
      fillAll (fun _ _ => grown) none (forest.map Node.shape) := by
  induction forest using Node.forest_induction with
  | nil => simp only [List.map_nil, fillAll]; rfl
  | cons node rest ihChildren ihRest =>
    rw [List.map_cons, fillAll_cons_none, fillAll_cons_none]
    dsimp only
    rw [shape_append, shape_inside, ihRest, Node.children_shape]
    by_cases hchildren : node.children = []
    · rw [if_pos hchildren, hgrow, hchildren, List.map_nil, if_pos rfl]
    · rw [if_neg hchildren, ihChildren, if_neg (by rwa [List.map_eq_nil_iff])]

end Expansion

namespace Abbreviation

variable {a : Abbreviation} {g : Grammar} {ts : List Token}

/-! ## Copies without text -/

/-- Without wrapped text, no copy has a share of it. -/
theorem shares_none (atEnd : Bool) (count : Nat) :
    Expansion.shares atEnd none count = List.replicate count none := by
  cases count <;> rfl

/-- A fixed number of copies without text is one expansion for each number. -/
theorem expansion_times_none (setting : ExpansionSetting) (inner : Abbreviation) (count : Nat)
    (index : Int) :
    (repeated inner (.times count)).expansion setting index none =
      ((List.range count).map fun i : Nat => inner.expansion setting i none).foldr .append
        .nothing := by
  rw [expansion, shares_none]
  congr 1
  apply List.ext_getElem
  · simp
  · intro i _ _
    simp

/-- One copy for each line of no text is a single copy. -/
theorem expansion_perLine_none (setting : ExpansionSetting) (inner : Abbreviation) (index : Int) :
    (repeated inner .perLine).expansion setting index none = inner.expansion setting 0 none := rfl

/-- What climbs comes behind the left side, as groups without nodes before them. -/
theorem expansion_climb (setting : ExpansionSetting) (left right : Abbreviation) (index : Int)
    (wrapped : Option Text) :
    (climb left right).expansion setting index wrapped =
      (left.expansion setting index none).append
        ⟨[], (right.expansion setting index wrapped).raised⟩ := by
  rw [expansion, Expansion.append, List.append_nil]
  rfl

/-- What is lifted out of the left side of `>` comes before all that is lifted out of its nodes. -/
theorem expansion_child (setting : ExpansionSetting) (left right : Abbreviation) (index : Int)
    (wrapped : Option Text) :
    (child left right).expansion setting index wrapped =
      Expansion.append ⟨[], (left.expansion setting index none).lifted⟩
        (Expansion.fillAll (right.expansion setting) wrapped
          (left.expansion setting index none).nodes) := rfl

/-! ## The shape of an expansion -/

/-- Without wrapped text, the shape of an expansion depends on the abbreviation alone: not on the
number of the copy, and not on the setting. -/
theorem shape_expansion (a : Abbreviation) (setting other : ExpansionSetting) (index copy : Int) :
    (a.expansion setting index none).shape = (a.expansion other copy none).shape := by
  induction a generalizing index copy with
  | element key attributes inline => rfl
  | text value => rfl
  | empty => rfl
  | group inner ih =>
    rw [expansion, expansion, Expansion.shape, Expansion.shape, Expansion.map_shape_flatten,
      Expansion.map_shape_flatten, ih index copy]
  | filtered inner suffix ih => exact ih index copy
  | sibling left right ihLeft ihRight =>
    rw [expansion, expansion, Expansion.shape_append, Expansion.shape_append, ihLeft index copy,
      ihRight index copy]
  | climb left right ihLeft ihRight =>
    rw [expansion_climb, expansion_climb, Expansion.shape_append, Expansion.shape_append,
      Expansion.shape_raised, Expansion.shape_raised, ihLeft index copy, ihRight index copy]
  | child left right ihLeft ihRight =>
    -- Whatever the copies are, the right side grows in one shape.
    have hgrow (i : Int) := ihRight i copy
    have hother (i : Int) := (ihRight copy i).symm.trans (ihRight copy copy)
    have hnodes := congrArg Expansion.nodes (ihLeft index copy)
    have hlifted := congrArg (fun e => Expansion.mk [] e.lifted) (ihLeft index copy)
    rw [expansion_child, expansion_child, Expansion.shape_append, Expansion.shape_append,
      Expansion.shape_fillAll hgrow, Expansion.shape_fillAll hother]
    exact congrArg₂ (fun groups nodes => Expansion.append groups (Expansion.fillAll _ none nodes))
      hlifted hnodes
  | repeated inner count ih =>
    cases count with
    | perLine => exact ih 0 0
    | times count =>
      rw [expansion_times_none, expansion_times_none, Expansion.shape_foldr_append,
        Expansion.shape_foldr_append, List.map_map, List.map_map]
      congr 2
      funext i
      exact ih i i

/-! ## The census -/

/-- The labels that an abbreviation gives to nodes, each as often as it does. -/
@[simp]
def census : Abbreviation → Multiset (Option Text × Option Text)
  | .element key _ inline => {(some key, inline)}
  | .text value => {(none, some value)}
  | .empty => 0
  | .group inner => inner.census
  | .child left right =>
    left.census + Node.leafCountAll (left.expand {} 0 none) • right.census
  | .sibling left right => left.census + right.census
  | .climb left right => left.census + right.census
  | .repeated inner (.times count) => count • inner.census
  | .repeated inner .perLine => inner.census
  | .filtered inner _ => inner.census

/-- No key and no text has a dollar in it. -/
def WithoutCounters : Abbreviation → Prop
  | .element key _ inline => '$' ∉ key ∧ ∀ value ∈ inline, '$' ∉ value
  | .text value => '$' ∉ value
  | .empty => True
  | .group inner => inner.WithoutCounters
  | .child left right => left.WithoutCounters ∧ right.WithoutCounters
  | .sibling left right => left.WithoutCounters ∧ right.WithoutCounters
  | .climb left right => left.WithoutCounters ∧ right.WithoutCounters
  | .repeated inner _ => inner.WithoutCounters
  | .filtered inner _ => inner.WithoutCounters

/-- Where something is repeated, it has the counters that it has elsewhere. -/
theorem withoutCounters_of_repeats {b : Abbreviation} (h : Grammar.Repeats a b) :
    b.WithoutCounters ↔ a.WithoutCounters := by
  cases h <;> rfl

/-! ## Expansions have what the census counts -/

variable {setting : ExpansionSetting}

/-- Copies of what lifts no group lift none. -/
theorem Settled.lifted_copies (h : Settled setting a) {α : Type} (items : List α)
    (index : α → Int) (share : α → Option Text) :
    ((items.map fun item => a.expansion setting (index item) (share item)).foldr
      Expansion.append .nothing).lifted = [] := by
  rw [Expansion.foldr_append fun item _ => h (index item) (share item)]

/-- Every phrase but an expression lifts no group, even if it has no copies. -/
theorem settled_of_derives {p : Grammar.Phrase} (h : Grammar.Derives g p ts a)
    (hp : p ≠ .expression) : Settled setting a := by
  have hcopied {inner copied : Abbreviation} (hinner : Settled setting inner)
      (hrepeats : Grammar.Repeats inner copied) : Settled setting copied := by
    cases hrepeats with
    | text => exact fun _ _ => rfl
    | other => exact hinner
  induction h with
  | group => exact fun _ _ => rfl
  | text => exact fun _ _ => rfl
  | element hform => cases hform <;> exact fun _ _ => rfl
  | once _ ih => exact ih (by simp)
  | perLine _ hrepeats ih =>
    have hinner := hcopied (ih (by simp)) hrepeats
    intro index wrapped
    rw [expansion]
    split
    · exact hinner 0 wrapped
    · exact hinner.lifted_copies _ (fun item : Text × Nat => (item.2 : Int))
        fun item => some item.1
  | times _ hrepeats _ ih =>
    have hinner := hcopied (ih (by simp)) hrepeats
    intro index wrapped
    rw [expansion]
    exact hinner.lifted_copies _ (fun item : Option Text × Nat => (item.2 : Int)) Prod.fst
  | _ => exact absurd rfl hp

/-- Every expansion without wrapped text has the labels of the census. -/
def Counted (setting : ExpansionSetting) (a : Abbreviation) : Prop :=
  ∀ index, (a.expansion setting index none).labels = a.census

/-- A text is counted as it is. -/
theorem counted_text {value : Text} (h : '$' ∉ value) : Counted setting (.text value) := by
  intro index
  rw [expansion, Text.replaceCounter_of_not_mem h, Expansion.labels_node rfl, census]
  rfl

/-- An element is counted with its key and its text. -/
theorem counted_element (h : Grammar.ElementForm g ts a) (hplain : a.WithoutCounters) :
    Counted setting a := by
  intro index
  have hsingle (key : Text) (attributes : List Attribute) (inline : Option Text)
      (hplain : (element key attributes inline).WithoutCounters) :
      ((element key attributes inline).expansion setting index none).labels =
        {(some key, inline)} := by
    have hinline : inline.map (Text.replaceCounter (index + 1)) = inline := by
      cases inline with
      | none => rfl
      | some value =>
        rw [Option.map_some, Text.replaceCounter_of_not_mem (hplain.2 value rfl)]
    rw [expansion, Expansion.labels_node rfl]
    simp only [Expansion.ofElement, Node.label, NodeKind.key?, hinline,
      Text.replaceCounter_of_not_mem hplain.1]
  cases h with
  | named => exact hsingle _ _ _ hplain
  | unnamed => exact hsingle _ _ _ hplain

/-- A group has what is counted inside it. -/
theorem Counted.group (h : Counted setting a) : Counted setting (.group a) := by
  intro index
  rw [expansion, Expansion.labels, Expansion.labels_flatten, h index, census]
  exact add_zero _

/-- Where something is repeated, it has what is counted in it. -/
theorem Counted.repeats {b : Abbreviation} (h : Counted setting a)
    (hrepeats : Grammar.Repeats a b) : Counted setting b := by
  cases hrepeats with
  | text => exact h.group
  | other => exact h

/-- A fixed number of copies has what is counted in one, that many times. -/
theorem Counted.times (h : Counted setting a) (count : Nat) :
    Counted setting (.repeated a (.times count)) := by
  intro index
  rw [expansion_times_none, Expansion.labels_foldr_append, List.map_map, census]
  have hcopies : (List.range count).map
      (Expansion.labels ∘ fun i : Nat => a.expansion setting i none) =
        List.replicate count a.census := by
    rw [List.eq_replicate_iff]
    refine ⟨by rw [List.length_map, List.length_range], ?_⟩
    intro labels hlabels
    obtain ⟨i, -, rfl⟩ := List.mem_map.1 hlabels
    exact h i
  rw [hcopies, List.sum_replicate]

/-- Two parts side by side have what is counted in both. -/
theorem Counted.sibling {b : Abbreviation} (ha : Counted setting a) (hb : Counted setting b) :
    Counted setting (.sibling a b) := by
  intro index
  rw [expansion, Expansion.labels_append, ha index, hb index, census]

/-- What climbs is counted where it comes from. -/
theorem Counted.climb {b : Abbreviation} (ha : Counted setting a) (hb : Counted setting b) :
    Counted setting (.climb a b) := by
  intro index
  rw [expansion_climb, Expansion.labels_append, Expansion.labels_raised, ha index, hb index,
    Node.labels_nil, zero_add, census]

/-- The right side of `>` is counted for every childless node of the left one, if no group is lifted
out of that. -/
theorem Counted.child {b : Abbreviation} (ha : Counted setting a) (hb : Counted setting b)
    (hsettled : ∀ setting, Settled setting a) : Counted setting (.child a b) := by
  intro index
  have hnodes (setting : ExpansionSetting) (index : Int) :
      a.expand setting index none = (a.expansion setting index none).nodes := by
    rw [expand, Expansion.flatten, hsettled setting index none, List.flatMap_nil, List.append_nil]
  -- The nodes that are filled have as many childless ones as those that the census looks at.
  have hleaves : Node.leafCountAll (a.expansion setting index none).nodes =
      Node.leafCountAll (a.expand {} 0 none) := by
    have hshape := congrArg Expansion.nodes (shape_expansion a setting {} index 0)
    rw [hnodes, ← Node.leafCountAll_map_shape, ← Node.leafCountAll_map_shape
      (a.expansion {} 0 none).nodes]
    exact congrArg Node.leafCountAll hshape
  have hleft : Node.labels (a.expansion setting index none).nodes = a.census := by
    rw [← ha index, ← Expansion.labels_flatten, ← hnodes]
    rfl
  calc ((Abbreviation.child a b).expansion setting index none).labels
      = (Expansion.fillAll (b.expansion setting) none
          (a.expansion setting index none).nodes).labels := by
        rw [expansion_child, hsettled setting index none]
        rfl
    _ = (Abbreviation.child a b).census := by
        rw [Expansion.labels_fillAll hb, hleft, hleaves, census]

/-- What is derived has what is counted in it. -/
theorem counted_of_derives {p : Grammar.Phrase} (h : Grammar.Derives g p ts a)
    (hplain : a.WithoutCounters) : Counted setting a := by
  have hsettled {ts : List Token} {a : Abbreviation} (h : Grammar.Derives g .term ts a)
      (setting : ExpansionSetting) : Settled setting a := settled_of_derives h (by simp)
  induction h with
  | group _ ih => exact (ih hplain).group
  | text => exact counted_text hplain
  | element hform => exact counted_element hform hplain
  | once _ ih => exact ih hplain
  | perLine _ hrepeats ih =>
    intro index
    rw [expansion_perLine_none, census]
    exact (ih ((withoutCounters_of_repeats hrepeats).1 hplain)).repeats hrepeats 0
  | times _ hrepeats _ ih =>
    exact ((ih ((withoutCounters_of_repeats hrepeats).1 hplain)).repeats hrepeats).times _
  | leadingClimb _ ih => exact Counted.climb (fun _ => Expansion.labels_nothing) (ih hplain.2)
  | single _ ih => exact ih hplain
  | sibling _ _ iha ihb => exact (iha hplain.1).sibling (ihb hplain.2)
  | child hterm _ iha ihb => exact (iha hplain.1).child (ihb hplain.2) (hsettled hterm)
  | climb _ _ iha ihb => exact (iha hplain.1).climb (ihb hplain.2)

/-- What is derived with suffixes behind it has what is counted in it. -/
theorem counted_of_suffixedForm (h : Grammar.SuffixedForm g ts a) (hplain : a.WithoutCounters) :
    Counted setting a := by
  induction h with
  | bare hderives => exact counted_of_derives hderives hplain
  | suffix _ _ ih => exact ih hplain

/-- Expanding an abbreviation that has been read, without counters and without wrapped text, gives a
forest with exactly the labels of the census. -/
theorem labels_expand (h : g.parseTokens ts = .ok a) (hplain : a.WithoutCounters)
    (setting : ExpansionSetting) (index : Int) :
    Node.labels (a.expand setting index none) = a.census := by
  have hcounted : Counted setting a :=
    counted_of_suffixedForm (Grammar.parseTokens_sound h).1 hplain
  rw [expand, Expansion.labels_flatten, hcounted index]

/-- What is read from `ul*2>li^{p}`. -/
def sampleClimb : Abbreviation :=
  .child (.repeated (.element "ul".toList [] none) (.times 2))
    (.climb (.element "li".toList [] none) (.text "p".toList))

/-- The tokens of `ul*2>li^{p}`. -/
def sampleClimbTokens : List Token :=
  [⟨.name "ul".toList, 0⟩, ⟨.operator .times, 2⟩, ⟨.number "2".toList, 3⟩, ⟨.operator .child, 4⟩,
    ⟨.name "li".toList, 5⟩, ⟨.operator .climb, 7⟩, ⟨.braced "p".toList, 8⟩]

/-- Two lists with an entry each, and behind each of them the text that climbs out of it. -/
theorem labels_expand_sampleClimb :
    Grammar.parseTokens {} sampleClimbTokens = .ok sampleClimb ∧
      sampleClimb.WithoutCounters ∧
      Node.labels (sampleClimb.expand {} 0 none) =
        2 • {(some "ul".toList, none)} +
          2 • ({(some "li".toList, none)} + {(none, some "p".toList)}) := by
  have hderives : Grammar.Derives {} .expression sampleClimbTokens sampleClimb :=
    .child (.times (.key (by decide)) (.other (by simp)) (by decide))
      (.climb (.once (.key (by decide))) (.single (.once .text)))
  have hread : Grammar.parseTokens {} sampleClimbTokens = .ok sampleClimb :=
    Grammar.parseTokens_complete (.bare hderives) (by rintro generator ⟨⟩) (by rintro value ⟨⟩)
  have htext : '$' ∉ "p".toList := by decide
  have hplain : sampleClimb.WithoutCounters := by
    refine ⟨⟨by decide, ?_⟩, ⟨by decide, ?_⟩, htext⟩ <;> rintro value ⟨⟩
  refine ⟨hread, hplain, ?_⟩
  rw [labels_expand hread hplain]
  rfl

end Abbreviation

end Abbrev
