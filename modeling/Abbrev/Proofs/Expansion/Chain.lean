import Mathlib.Data.List.Forall2
import Abbrev.Proofs.Expansion.Classes
import Abbrev.Proofs.Expansion.Levels
import Abbrev.Proofs.Grammar.Exactness
import Abbrev.Proofs.Text.CounterRuns

/-!
# Chains as walks of a cursor

A chain is an abbreviation without parentheses, repetitions and suffixes: elements and texts with
operators between them. A reader may take it as a walk. The cursor stands on the first leaf at depth
zero, `>` takes it one level down, `^` one level up unless it is at the top, and each leaf is
written where the cursor has come to.

The abbreviation that is read from a chain nests to the right and knows no cursor, and its expansion
carries lifted groups from the inside to the outside. `Link.exists_derives_spells` ties the two
together, by induction on the links: at *every* depth the outline of the expansion is the walk from
there. What each leaf is written as is said by itself (`Leaf.Written`), and the forest of a whole
chain is the one that has the leaves of the walk from depth zero written in its outline
(`Chain.expand_eq_iff_walk`).
-/

namespace Abbrev

/-- A part of a chain. -/
inductive Leaf where
  | element (key : Text) (attributes : List Attribute) (text : Option Text)
  | literal (value : Text)

namespace Leaf

/-- The leaf as an abbreviation. -/
def abbreviation : Leaf → Abbreviation
  | .element key attributes text => .element key attributes text
  | .literal value => .text value

/-- The node that a leaf is written as in copy number `index`, counted from zero. All its names,
values and texts are those of the copy. An element has its classes as one and the snippet under its
key; nothing is wrapped, and nothing is inside. -/
inductive Written (setting : ExpansionSetting) (index : Int) : Leaf → Node → Prop where
  | element {key key' : Text} {attributes attributes' : List Attribute} {text text' : Option Text} :
      Text.Numbered (index + 1) key key' →
      List.Forall₂ (fun a a' => Text.Numbered (index + 1) a.name a'.name ∧
        Text.Numbered (index + 1) a.value a'.value) attributes attributes' →
      Option.Rel (Text.Numbered (index + 1)) text text' →
      Written setting index (.element key attributes text)
        ⟨.element key' (Attribute.gathered attributes') (setting.catalog.entries.lookup key'),
          index, text', none, []⟩
  | literal {value value' : Text} :
      Text.Numbered (index + 1) value value' →
      Written setting index (.literal value) ⟨.literal, index, some value', none, []⟩

/-- What the tokens of a leaf are: those of an element, or a text in braces. -/
inductive Form (g : Grammar) : List Token → Leaf → Prop where
  | element {ts : List Token} {key : Text} {attributes : List Attribute} {text : Option Text} :
      Grammar.ElementForm g ts (.element key attributes text) →
      Form g ts (.element key attributes text)
  | literal {c : Nat} {body : Text} : Form g [⟨.braced body, c⟩] (.literal body)

variable {g : Grammar} {ts : List Token} {leaf : Leaf}

/-- A leaf is a term. -/
theorem Form.derives (h : Form g ts leaf) : Grammar.Derives g .term ts leaf.abbreviation := by
  cases h with
  | element hform => exact .once (.element hform)
  | literal => exact .once .text

/-- The node that a leaf expands into. -/
def node (setting : ExpansionSetting) (index : Int) : Leaf → Node
  | .element key attributes text => Expansion.ofElement setting key attributes text index none
  | .literal value => ⟨.literal, index, some (Text.replaceCounter (index + 1) value), none, []⟩

/-- Attributes of a copy are those with the counters replaced in their names and values. -/
theorem forall₂_numbered_iff {number : Int} {attributes attributes' : List Attribute} :
    List.Forall₂ (fun a a' => Text.Numbered number a.name a'.name ∧
        Text.Numbered number a.value a'.value) attributes attributes' ↔
      attributes' = attributes.map fun a =>
        ⟨Text.replaceCounter number a.name, Text.replaceCounter number a.value⟩ := by
  have hcopy (a a' : Attribute) :
      Text.Numbered number a.name a'.name ∧ Text.Numbered number a.value a'.value ↔
        ⟨Text.replaceCounter number a.name, Text.replaceCounter number a.value⟩ = a' := by
    obtain ⟨name, value⟩ := a'
    simp only [Text.numbered_iff, Attribute.mk.injEq, eq_comm]
  simp only [hcopy]
  rw [← List.forall₂_map_left_iff (R := (· = ·)), List.forall₂_eq_eq_eq, eq_comm]

/-- The text of a copy is the one with the counters replaced, if there is a text. -/
theorem rel_numbered_iff {number : Int} {text text' : Option Text} :
    Option.Rel (Text.Numbered number) text text' ↔
      text' = text.map (Text.replaceCounter number) := by
  cases text <;> cases text' <;> simp [Text.numbered_iff]

/-- A leaf is written as the node that it expands into, and as no other. -/
theorem written_iff {setting : ExpansionSetting} {index : Int} {leaf : Leaf} {node : Node} :
    leaf.Written setting index node ↔ node = leaf.node setting index := by
  constructor
  · rintro (⟨hkey, hattributes, htext⟩ | hvalue)
    · obtain rfl := Text.numbered_iff.1 hkey
      obtain rfl := forall₂_numbered_iff.1 hattributes
      obtain rfl := rel_numbered_iff.1 htext
      rw [← Attribute.merge_eq_gathered]
      rfl
    · obtain rfl := Text.numbered_iff.1 hvalue
      rfl
  · rintro rfl
    cases leaf with
    | element key attributes text =>
      rw [Leaf.node, Expansion.ofElement, Attribute.merge_eq_gathered]
      exact .element (Text.numbered_iff.2 rfl) (forall₂_numbered_iff.2 rfl)
        (rel_numbered_iff.2 rfl)
    | literal value => exact .literal (Text.numbered_iff.2 rfl)

/-- A leaf expands into its node. -/
theorem expansion_abbreviation (leaf : Leaf) (setting : ExpansionSetting) (index : Int) :
    leaf.abbreviation.expansion setting index none = ⟨[leaf.node setting index], []⟩ := by
  cases leaf <;> rfl

/-- Nothing is inside the node of a leaf. -/
@[simp] theorem children_node (leaf : Leaf) (setting : ExpansionSetting) (index : Int) :
    (leaf.node setting index).children = [] := by
  cases leaf <;> rfl

/-- The node of a leaf has the number of the copy. -/
@[simp] theorem index_node (leaf : Leaf) (setting : ExpansionSetting) (index : Int) :
    (leaf.node setting index).index = index := by
  cases leaf <;> rfl

end Leaf

/-- The operators before a leaf, and the leaf: `+` or `>` with any number of `^`, or at least one
`^` alone. -/
structure Link (g : Grammar) where
  /-- The first of the operators. -/
  op : Operator
  /-- The number of `^` behind it. -/
  climbs : Nat
  leaf : Leaf
  /-- The tokens of the operators. -/
  signs : List Token
  /-- The tokens of the leaf. -/
  tokens : List Token
  joins : op ≠ .times
  spelled : signs.map Token.lexeme = .operator op :: List.replicate climbs (.operator .climb)
  form : leaf.Form g tokens

namespace Link

variable {g : Grammar}

/-- The operators of a link. -/
def operators (link : Link g) : List Operator :=
  link.op :: List.replicate link.climbs .climb

/-- The depth to which a link takes the cursor: down for `>`, and up for each `^` as far as there is
a level to go to. -/
def next (link : Link g) (depth : Nat) : Nat :=
  depth + (if .child ∈ link.operators then 1 else 0) - link.operators.count .climb

/-- The leaves of a chain from `leaf` on, each with the depth of the cursor. -/
def walk (depth : Nat) (leaf : Leaf) : List (Link g) → List (Nat × Leaf)
  | [] => [(depth, leaf)]
  | link :: rest => (depth, leaf) :: walk (link.next depth) link.leaf rest

/-- The tokens of links one after the other. -/
def allTokens (links : List (Link g)) : List Token :=
  links.flatMap fun link => link.signs ++ link.tokens

/-! ## What a link does -/

/-- The depth after a link with `>`. -/
theorem next_child {link : Link g} (h : link.op = .child) (depth : Nat) :
    link.next depth = depth + 1 - link.climbs := by
  simp [next, operators, h]

/-- The depth after a link with `+`. -/
theorem next_sibling {link : Link g} (h : link.op = .sibling) (depth : Nat) :
    link.next depth = depth - link.climbs := by
  simp [next, operators, h]

/-- The depth after a link with `^` alone. -/
theorem next_climb {link : Link g} (h : link.op = .climb) (depth : Nat) :
    link.next depth = depth - 1 - link.climbs := by
  simp [next, operators, h]
  omega

end Link

/-! ## Outlines of the operators -/

namespace Abbreviation

variable {setting : ExpansionSetting} {index : Int} {entries : Nat → List (Nat × Node)}
  {a b : Abbreviation} {node : Node}

/-- As copy number `index`, an abbreviation expands into groups in the order of their levels and
has, at every depth, the outline `entries`. -/
structure Spells (setting : ExpansionSetting) (index : Int) (a : Abbreviation)
    (entries : Nat → List (Nat × Node)) : Prop where
  sorted : (a.expansion setting index none).Sorted
  outline (depth : Nat) : (a.expansion setting index none).outline depth = entries depth

/-- An abbreviation expands into one node without children, which has the number of the copy. -/
structure Single (setting : ExpansionSetting) (index : Int) (a : Abbreviation) (node : Node) :
    Prop where
  expansion : a.expansion setting index none = ⟨[node], []⟩
  children : node.children = []
  index : node.index = index

/-- The outline of a node without children is the node. -/
theorem Single.outlineAll (h : Single setting index a node) (depth : Nat) :
    Node.outlineAll depth [node] = [(depth, node)] := by
  obtain ⟨kind, index, text, wrapped, children⟩ := node
  obtain rfl : children = [] := h.children
  rw [Node.outlineAll_cons, Node.outlineAll, Node.outlineAll, List.append_nil]

/-- A single node spells itself. -/
theorem Single.spells (h : Single setting index a node) :
    Spells setting index a fun depth => [(depth, node)] := by
  refine ⟨?_, ?_⟩ <;> rw [h.expansion]
  · exact List.Pairwise.nil
  · intro depth
    rw [Expansion.outline, h.outlineAll, List.flatMap_nil, List.append_nil]

/-- A leading `^` takes what follows one level up. -/
theorem Spells.leadingClimb (h : Spells setting index a entries) :
    Spells setting index (.climb .empty a) fun depth => entries (depth - 1) := by
  refine ⟨Expansion.sorted_raised h.sorted _, ?_⟩
  intro depth
  rw [← h.outline]
  exact Expansion.outline_raised _ [] depth

/-- After `^`, what follows stands one level above the node before it. -/
theorem Spells.climb (hleft : Single setting index a node) (h : Spells setting index b entries) :
    Spells setting index (.climb a b) fun depth => (depth, node) :: entries (depth - 1) := by
  refine ⟨?_, ?_⟩ <;> rw [expansion, hleft.expansion]
  · exact Expansion.sorted_raised h.sorted _
  · intro depth
    have houtline := Expansion.outline_raised (b.expansion setting index none) [node] depth
    rw [hleft.outlineAll, h.outline] at houtline
    exact houtline

/-- After `+`, what follows stays at the depth of the node before it. -/
theorem Spells.sibling (hleft : Single setting index a node) (h : Spells setting index b entries) :
    Spells setting index (.sibling a b) fun depth => (depth, node) :: entries depth := by
  refine ⟨?_, ?_⟩ <;> rw [expansion, hleft.expansion]
  · exact h.sorted
  · intro depth
    have houtline := Expansion.outline_behind [node] (b.expansion setting index none) depth
    rw [hleft.outlineAll, h.outline] at houtline
    exact houtline

/-- After `>`, what follows stands one level below the node before it. -/
theorem Spells.child (hleft : Single setting index a node) (h : Spells setting index b entries) :
    Spells setting index (.child a b) fun depth => (depth, node) :: entries (depth + 1) := by
  have hsorted : (b.expansion setting node.index none).Sorted := hleft.index ▸ h.sorted
  refine ⟨?_, ?_⟩ <;> rw [expansion, hleft.expansion]
  · rw [Expansion.fillAll_singleton hleft.children]
    exact Expansion.sorted_risen hsorted _
  · intro depth
    rw [← h.outline, ← hleft.index]
    exact Expansion.outline_fillAll_singleton hleft.children hsorted depth

/-- An abbreviation behind some number of leading `^`. -/
def climbing (a : Abbreviation) : Nat → Abbreviation
  | 0 => a
  | n + 1 => .climb .empty (climbing a n)

/-- Leading `^` take what follows up, one level each. -/
theorem Spells.climbing (h : Spells setting index a entries) (n : Nat) :
    Spells setting index (a.climbing n) fun depth => entries (depth - n) := by
  induction n with
  | zero => exact h
  | succ n ih =>
    have hclimb := ih.leadingClimb
    simp only [Nat.sub_sub, Nat.add_comm 1] at hclimb
    exact hclimb

/-- Leading `^` copy nothing. -/
theorem oversized?_climbing (a : Abbreviation) (n : Nat) :
    (a.climbing n).oversized? = a.oversized? := by
  induction n with
  | zero => rfl
  | succ n ih => rw [Abbreviation.climbing, oversized?, oversized?, ih, Option.none_or]

/-- Any number of `^` and an expression are an expression. -/
theorem derives_climbing {g : Grammar} {ts us : List Token} {n : Nat}
    (h : Grammar.Derives g .expression us a)
    (hts : ts.map Token.lexeme = List.replicate n (.operator .climb)) :
    Grammar.Derives g .expression (ts ++ us) (a.climbing n) := by
  induction n generalizing ts with
  | zero =>
    obtain rfl : ts = [] := List.map_eq_nil_iff.1 hts
    exact h
  | succ n ih =>
    cases ts with
    | nil => cases hts
    | cons t ts =>
      obtain ⟨lexeme, c⟩ := t
      rw [List.map_cons, List.replicate_succ] at hts
      injection hts with hlexeme hrest
      obtain rfl : lexeme = .operator .climb := hlexeme
      exact .leadingClimb (ih hrest)

end Abbreviation

/-! ## Walking along the links -/

namespace Link

variable {g : Grammar} {setting : ExpansionSetting} {index : Int}

/-- The nodes of leaves at their depths. -/
def entries (setting : ExpansionSetting) (index : Int) (leaves : List (Nat × Leaf)) :
    List (Nat × Node) :=
  leaves.map fun entry => (entry.1, entry.2.node setting index)

/-- A leaf expands into a single node. -/
theorem single_leaf (leaf : Leaf) :
    leaf.abbreviation.Single setting index (leaf.node setting index) :=
  ⟨leaf.expansion_abbreviation setting index, leaf.children_node setting index,
    leaf.index_node setting index⟩

/-- The signs of a link are its first operator and as many `^` as it climbs. -/
theorem signs_eq (link : Link g) : ∃ c signs, link.signs = ⟨.operator link.op, c⟩ :: signs ∧
    signs.map Token.lexeme = List.replicate link.climbs (.operator .climb) := by
  have hspelled := link.spelled
  cases hsigns : link.signs with
  | nil =>
    rw [hsigns] at hspelled
    cases hspelled
  | cons t signs =>
    obtain ⟨lexeme, c⟩ := t
    rw [hsigns, List.map_cons] at hspelled
    injection hspelled with hlexeme hrest
    obtain rfl : lexeme = .operator link.op := hlexeme
    exact ⟨c, signs, rfl, hrest⟩

/-- The first operator of a link joins two abbreviations. -/
theorem exists_join (link : Link g) : ∃ join, Grammar.join? link.op = some join := by
  have hjoins := link.joins
  cases hop : link.op with
  | times => exact absurd hop hjoins
  | _ => exact ⟨_, rfl⟩

/-- What a link joins to a node spells the node, and then what it spells itself from the depth to
which the link leads. -/
theorem spells_join (link : Link g) {join : Abbreviation → Abbreviation → Abbreviation}
    (hjoin : Grammar.join? link.op = some join) {a b : Abbreviation} {node : Node}
    {further : Nat → List (Nat × Node)} (ha : a.Single setting index node)
    (hb : b.Spells setting index further) :
    (join a (b.climbing link.climbs)).Spells setting index fun depth =>
      (depth, node) :: further (link.next depth) := by
  have hclimbing := hb.climbing link.climbs
  cases hop : link.op with
  | sibling =>
    rw [hop] at hjoin
    cases hjoin
    simp only [next_sibling hop]
    exact hclimbing.sibling ha
  | child =>
    rw [hop] at hjoin
    cases hjoin
    simp only [next_child hop]
    exact hclimbing.child ha
  | climb =>
    rw [hop] at hjoin
    cases hjoin
    simp only [next_climb hop]
    exact hclimbing.climb ha
  | times => exact absurd hop link.joins

/-- A link that joins something to a leaf copies nothing. -/
theorem oversized?_join (link : Link g) {join : Abbreviation → Abbreviation → Abbreviation}
    (hjoin : Grammar.join? link.op = some join) (leaf : Leaf) {b : Abbreviation}
    (hb : b.oversized? = none) :
    (join leaf.abbreviation (b.climbing link.climbs)).oversized? = none := by
  have hleaf : leaf.abbreviation.oversized? = none := by cases leaf <;> rfl
  have hclimbing := (Abbreviation.oversized?_climbing b link.climbs).trans hb
  cases hop : link.op <;> rw [hop] at hjoin <;> cases hjoin <;>
    simp [Abbreviation.oversized?, hleaf, hclimbing]

/-- A leaf and the links behind it are an expression, which copies nothing and at every depth spells
the walk from there. -/
theorem exists_derives_spells {ts : List Token} {leaf : Leaf} (hleaf : leaf.Form g ts)
    (links : List (Link g)) :
    ∃ a, Grammar.Derives g .expression (ts ++ allTokens links) a ∧ a.oversized? = none ∧
      ∀ setting index, a.Spells setting index fun depth =>
        entries setting index (walk depth leaf links) := by
  -- On the links: what stands behind the first one is a shorter chain that begins at its leaf.
  induction links generalizing ts leaf with
  | nil =>
    refine ⟨leaf.abbreviation, ?_, ?_, ?_⟩
    · rw [allTokens, List.flatMap_nil, List.append_nil]
      exact .single hleaf.derives
    · cases leaf <;> rfl
    · intro setting index
      exact (single_leaf leaf).spells
  | cons link links ih =>
    obtain ⟨b, hderives, hsize, hspells⟩ := ih link.form
    obtain ⟨join, hjoin⟩ := link.exists_join
    obtain ⟨c, signs, hsigns, hclimbs⟩ := link.signs_eq
    -- The first operator joins, and the `^` after it are leading ones of the right side.
    refine ⟨join leaf.abbreviation (b.climbing link.climbs), ?_,
      link.oversized?_join hjoin leaf hsize, ?_⟩
    · have hall := hleaf.derives.join hjoin (c := c)
        (Abbreviation.derives_climbing hderives hclimbs)
      rw [allTokens, List.flatMap_cons, hsigns]
      simpa [allTokens] using hall
    · intro setting index
      exact link.spells_join hjoin (single_leaf leaf) (hspells setting index)

end Link

/-! ## Whole chains -/

/-- A chain: any number of leading `^`, a leaf, and links. -/
structure Chain (g : Grammar) where
  /-- The number of leading `^`. -/
  climbs : Nat
  leaf : Leaf
  links : List (Link g)
  /-- The tokens of the leading `^`. -/
  signs : List Token
  /-- The tokens of the first leaf. -/
  tokens : List Token
  spelled : signs.map Token.lexeme = List.replicate climbs (.operator .climb)
  form : leaf.Form g tokens

namespace Chain

variable {g : Grammar}

/-- All tokens of a chain. -/
def allTokens (chain : Chain g) : List Token :=
  chain.signs ++ (chain.tokens ++ Link.allTokens chain.links)

/-- The leaves of a chain in the order of the source, each with the depth of the cursor, which
begins at depth zero. -/
def walk (chain : Chain g) : List (Nat × Leaf) :=
  Link.walk 0 chain.leaf chain.links

/-- A chain is an abbreviation that copies nothing, and its forest has the walk along the chain as
its outline. -/
theorem exists_form_outline (chain : Chain g) :
    ∃ a, Grammar.SuffixedForm g chain.allTokens a ∧ a.oversized? = none ∧ ∀ setting index,
      Node.outlineAll 0 (a.expand setting index none) = Link.entries setting index chain.walk := by
  obtain ⟨a, hderives, hsize, hspells⟩ := Link.exists_derives_spells chain.form chain.links
  refine ⟨a.climbing chain.climbs, .bare (Abbreviation.derives_climbing hderives chain.spelled),
    (Abbreviation.oversized?_climbing a chain.climbs).trans hsize, ?_⟩
  intro setting index
  -- Leading `^` leave the cursor at depth zero, where it begins.
  have houtline := ((hspells setting index).climbing chain.climbs).outline 0
  rw [Expansion.outline_zero, Nat.zero_sub] at houtline
  exact houtline

/-- The leaves of a walk are written at their depths: the node of each has the depth of the leaf. -/
def WrittenAlong (setting : ExpansionSetting) (index : Int) (walk : List (Nat × Leaf))
    (nodes : List (Nat × Node)) : Prop :=
  List.Forall₂ (fun entry placed => placed.1 = entry.1 ∧ entry.2.Written setting index placed.2)
    walk nodes

/-- The nodes that are written along a walk are those that its leaves expand into. -/
theorem writtenAlong_iff {setting : ExpansionSetting} {index : Int} {walk : List (Nat × Leaf)}
    {nodes : List (Nat × Node)} :
    WrittenAlong setting index walk nodes ↔ nodes = Link.entries setting index walk := by
  have hentry (entry : Nat × Leaf) (placed : Nat × Node) :
      placed.1 = entry.1 ∧ entry.2.Written setting index placed.2 ↔
        (entry.1, entry.2.node setting index) = placed := by
    obtain ⟨depth, node⟩ := placed
    simp only [Leaf.written_iff, Prod.mk.injEq, eq_comm]
  unfold WrittenAlong Link.entries
  simp only [hentry]
  rw [← List.forall₂_map_left_iff (R := (· = ·)), List.forall₂_eq_eq_eq, eq_comm]

/-- A chain that is read as an abbreviation expands into the one forest in which the leaves of the
chain are written one after the other in document order, each at the depth to which the operators
before it lead: one level down for `>`, and one level up for each `^` but never above depth zero. -/
theorem expand_eq_iff_walk (chain : Chain g) {a : Abbreviation}
    (h : g.parseTokens chain.allTokens = .ok a) (setting : ExpansionSetting) (index : Int)
    (forest : List Node) :
    a.expand? setting index none = .ok forest ↔
      WrittenAlong setting index chain.walk (Node.outlineAll 0 forest) := by
  obtain ⟨b, hform, hsize, houtline⟩ := chain.exists_form_outline
  obtain rfl := (Grammar.parseTokens_sound h).1.unique hform
  rw [writtenAlong_iff, ← houtline setting index, Abbreviation.expand?, hsize, Except.ok.injEq]
  -- An outline belongs to one forest only.
  exact ⟨fun hforest => hforest ▸ rfl, fun houtlines => Node.outlineAll_injective 0 houtlines.symm⟩

/-- The chain `^ul.a#i.b>li$+{t$$}^^c{x}`. -/
def sample : Chain {} where
  climbs := 1
  signs := [⟨.operator .climb, 0⟩]
  leaf := .element "ul".toList
    [⟨"class".toList, "a".toList⟩, ⟨"id".toList, "i".toList⟩, ⟨"class".toList, "b".toList⟩] none
  tokens := [⟨.name "ul".toList, 1⟩, ⟨.punctuation .dot, 3⟩, ⟨.name "a".toList, 4⟩,
    ⟨.punctuation .hash, 5⟩, ⟨.name "i".toList, 6⟩, ⟨.punctuation .dot, 7⟩, ⟨.name "b".toList, 8⟩]
  links := [
    { op := .child, climbs := 0, leaf := .element "li$".toList [] none
      signs := [⟨.operator .child, 9⟩], tokens := [⟨.name "li$".toList, 10⟩]
      joins := by decide, spelled := rfl
      form := .element (.named (by decide) .nil .absent) },
    { op := .sibling, climbs := 0, leaf := .literal "t$$".toList
      signs := [⟨.operator .sibling, 13⟩], tokens := [⟨.braced "t$$".toList, 14⟩]
      joins := by decide, spelled := rfl, form := .literal },
    { op := .climb, climbs := 1, leaf := .element "c".toList [] (some "x".toList)
      signs := [⟨.operator .climb, 19⟩, ⟨.operator .climb, 20⟩]
      tokens := [⟨.name "c".toList, 21⟩, ⟨.braced "x".toList, 22⟩]
      joins := by decide, spelled := rfl
      form := .element (.named (by decide) .nil .braced) }]
  spelled := rfl
  form := .element (.named (by decide)
    (.cons .className (.cons .identifier (.cons .className .nil))) .absent)

/-- What is read from the chain. -/
def sampleAbbreviation : Abbreviation :=
  .climb .empty
    (.child
      (.element "ul".toList [⟨"class".toList, "a".toList⟩, ⟨"id".toList, "i".toList⟩,
        ⟨"class".toList, "b".toList⟩] none)
      (.sibling (.element "li$".toList [] none)
        (.climb (.text "t$$".toList)
          (.climb .empty (.element "c".toList [] (some "x".toList))))))

/-- A catalog with a snippet for the first copy of `li$`. -/
def sampleSetting : ExpansionSetting where
  catalog := ⟨[("li1".toList, "<li></li>".toList)]⟩

/-- The forest of the chain: a list with its classes as one, in it an entry with a snippet and a
text, and an element with a text behind it. -/
def sampleForest : List Node :=
  [⟨.element "ul".toList [⟨"class".toList, "a b".toList⟩, ⟨"id".toList, "i".toList⟩] none, 0, none,
      none,
      [⟨.element "li1".toList [] (some "<li></li>".toList), 0, none, none, []⟩,
        ⟨.literal, 0, some "t01".toList, none, []⟩]⟩,
    ⟨.element "c".toList [] none, 0, some "x".toList, none, []⟩]

/-- The leaves of the chain are written along its walk in the forest, so it is what the chain
expands into. -/
theorem expand_eq_iff_walk_sample :
    Grammar.parseTokens {} sample.allTokens = .ok sampleAbbreviation ∧
      sampleAbbreviation.expand? sampleSetting 0 none = .ok sampleForest := by
  have hlast : Leaf.Form {} [⟨.name "c".toList, 21⟩, ⟨.braced "x".toList, 22⟩]
      (.element "c".toList [] (some "x".toList)) := .element (.named (by decide) .nil .braced)
  have hderives : Grammar.Derives {} .expression sample.allTokens sampleAbbreviation :=
    .leadingClimb (.child sample.form.derives (.sibling (.once (.key (by decide)))
      (.climb (.once .text) (.leadingClimb (.single hlast.derives)))))
  have hread : Grammar.parseTokens {} sample.allTokens = .ok sampleAbbreviation :=
    Grammar.parseTokens_complete (.bare hderives) (by rintro generator ⟨⟩) (by rintro value ⟨⟩)
  have hwritten : WrittenAlong sampleSetting 0 sample.walk (Node.outlineAll 0 sampleForest) :=
    writtenAlong_iff.2 rfl
  exact ⟨hread, (expand_eq_iff_walk sample hread sampleSetting 0 sampleForest).2 hwritten⟩

end Chain

end Abbrev
