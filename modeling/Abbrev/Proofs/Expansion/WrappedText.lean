import Abbrev.Proofs.Expansion.Levels
import Abbrev.Proofs.Grammar.Exactness
import Abbrev.Proofs.Text.Lines

/-!
# Wrapped text arrives whole

An abbreviation that is expanded around a text puts the lines of that text into its nodes. Each line
arrives once, and in document order the lines are in the order of the text.

The invariant is `Carries`: what an expansion has in its nodes and then in its groups is the whole
text, and the groups are in an order in which landing does not change that. Every operator keeps it.
The left side is expanded without text, so nothing in it can come between the lines; `>` leaves the
text to the last of the nodes that it fills (`carries_fillAll`); and the shares of a repetition are
the text again, if there is a copy at all (`flatMap_shares`).
-/

namespace Abbrev

/-- The lines of wrapped text in a forest, in document order. -/
def Node.linesIn (forest : List Node) : List Text :=
  (Node.preorder forest).flatMap fun node => Expansion.wrappedLines node.wrapped

namespace Node

/-- The lines of two forests one after the other. -/
@[simp] theorem linesIn_append (forest more : List Node) :
    linesIn (forest ++ more) = linesIn forest ++ linesIn more := by
  unfold linesIn
  rw [preorder_append, List.flatMap_append]

/-- The lines of a forest: those of its first node, of what is inside it, and of the others. -/
theorem linesIn_cons (node : Node) (rest : List Node) :
    linesIn (node :: rest) =
      Expansion.wrappedLines node.wrapped ++ (linesIn node.children ++ linesIn rest) := by
  unfold linesIn
  rw [preorder_cons, List.flatMap_cons, List.flatMap_append]

/-- No nodes, no lines. -/
@[simp] theorem linesIn_nil : linesIn [] = [] := by
  unfold linesIn preorder
  rw [outlineAll, List.map_nil, List.flatMap_nil]

/-- The lines of forests that are put one after the other. -/
theorem linesIn_flatMap {α : Type} (items : List α) (f : α → List Node) :
    linesIn (items.flatMap f) = items.flatMap fun item => linesIn (f item) := by
  induction items with
  | nil => rw [List.flatMap_nil, linesIn_nil, List.flatMap_nil]
  | cons item rest ih => rw [List.flatMap_cons, linesIn_append, ih, List.flatMap_cons]

end Node

namespace Expansion

/-! ## The lines of a text -/

/-- The lines by which a text is spread are tidy. -/
theorem tidy_of_mem_wrappedLines {wrapped : Option Text} {line : Text}
    (h : line ∈ wrappedLines wrapped) : Text.Tidy line := by
  cases wrapped with
  | none => cases h
  | some text =>
    obtain ⟨whole, hwhole, rfl⟩ := List.mem_map.1 h
    exact Text.tidy_trim hwhole

/-- Tidy lines are spread as they are when they have been joined. -/
theorem wrappedLines_join {lines : List Text} (h : ∀ line ∈ lines, Text.Tidy line) :
    wrappedLines (some (Text.join ['\n'] lines)) = lines := by
  have hfilter : Text.nonBlankLines (Text.join ['\n'] lines) = lines := by
    rw [Text.nonBlankLines, Text.lines_join h, List.filter_eq_self]
    intro line hline
    rw [(h line hline).isAllBlank_eq_false]
    rfl
  rw [wrappedLines, hfilter]
  exact (List.map_congr_left fun line hline => (h line hline).trim_eq).trans (List.map_id _)

/-- A tidy line is spread as one line. -/
theorem wrappedLines_line {line : Text} (h : Text.Tidy line) :
    wrappedLines (some line) = [line] := by
  have hjoin := @wrappedLines_join [line] (by simpa using h)
  rwa [Text.join_singleton] at hjoin

/-! ## Shares -/

/-- The first lines, one for each of a number of copies. -/
theorem flatMap_range_wrappedLines {lines : List Text} (h : ∀ line ∈ lines, Text.Tidy line)
    (count : Nat) :
    ((List.range count).map fun i => lines[i]?).flatMap wrappedLines = lines.take count := by
  induction count with
  | zero => rfl
  | succ count ih =>
    rw [List.range_succ, List.map_append, List.flatMap_append, ih, List.take_add_one]
    cases hline : lines[count]? with
    | none => simp [hline, wrappedLines]
    | some line => simp [hline, wrappedLines_line (h line (List.mem_of_getElem? hline))]

/-- There are as many shares as copies. -/
theorem length_shares (atEnd : Bool) (wrapped : Option Text) (count : Nat) :
    (shares atEnd wrapped count).length = count := by
  unfold shares
  split
  · rfl
  · split
    · rw [List.length_replicate]
    · split <;> simp

/-- The shares of one copy or more have the lines of the text. -/
theorem flatMap_shares (atEnd : Bool) (wrapped : Option Text) {count : Nat} (h : 0 < count) :
    (shares atEnd wrapped count).flatMap wrappedLines = wrappedLines wrapped := by
  obtain ⟨others, rfl⟩ : ∃ others, count = others + 1 := ⟨count - 1, by omega⟩
  have hnone (n : Nat) : (List.replicate n (none : Option Text)).flatMap wrappedLines = [] := by
    simp [List.flatMap_replicate, wrappedLines]
  unfold shares
  cases wrapped with
  | none => exact hnone _
  | some text =>
    dsimp only
    split
    · rw [List.flatMap_append, hnone, List.nil_append, List.flatMap_singleton]
    · -- A line for each copy but the last, and all others joined for the last one.
      have htidy : ∀ line ∈ wrappedLines (some text), Text.Tidy line :=
        fun line hline => tidy_of_mem_wrappedLines hline
      have hrest : wrappedLines (if ((wrappedLines (some text)).drop others).isEmpty then none
          else some (Text.join ['\n'] ((wrappedLines (some text)).drop others))) =
            (wrappedLines (some text)).drop others := by
        split
        · next hempty => rw [List.isEmpty_iff.1 hempty, wrappedLines]
        · exact wrappedLines_join fun line hline => htidy line (List.mem_of_mem_drop hline)
      rw [List.flatMap_append, flatMap_range_wrappedLines htidy, List.flatMap_singleton, hrest,
        List.take_append_drop]

/-! ## Expansions that carry lines -/

/-- The lines in groups, one group after the other. -/
def linesInGroups (groups : List Lifted) : List Text :=
  groups.flatMap fun group => Node.linesIn group.nodes

/-- The lines of an expansion's nodes and then of its groups are `lines`, and they stay in this
order when groups land. -/
structure Carries (e : Expansion) (lines : List Text) : Prop where
  lines_eq : Node.linesIn e.nodes ++ linesInGroups e.lifted = lines
  ascending : Ascending (fun _ nodes => Node.linesIn nodes) e.lifted

variable {e f : Expansion} {lines more : List Text} {nodes : List Node} {groups : List Lifted}

/-- Nodes without groups carry what is in them. -/
theorem carries_nodes (nodes : List Node) : Carries ⟨nodes, []⟩ (Node.linesIn nodes) :=
  ⟨List.append_nil _, List.Pairwise.nil⟩

/-- Put together as a forest, an expansion has the lines that it carries. -/
theorem Carries.linesIn_flatten (h : Carries e lines) : Node.linesIn e.flatten = lines := by
  rw [flatten, Node.linesIn_append, Node.linesIn_flatMap]
  exact h.lines_eq

/-- Groups without lines may stand before ascending groups in any order. -/
theorem ascending_of_linesInGroups_eq_nil (h : linesInGroups groups = [])
    {others : List Lifted} (hothers : Ascending (fun _ => Node.linesIn) others) :
    Ascending (fun _ => Node.linesIn) (groups ++ others) := by
  have hnone : ∀ group ∈ groups, Node.linesIn group.nodes = [] := List.flatMap_eq_nil_iff.1 h
  refine List.pairwise_append.2 ⟨?_, hothers, ?_⟩
  · exact List.pairwise_of_forall_mem_list fun first hfirst _ _ => .inr (.inl (hnone first hfirst))
  · intro first hfirst second _
    exact .inr (.inl (hnone first hfirst))

/-- One expansion after another carries the lines of both, if no line of the first one is lifted. -/
theorem Carries.append (he : Carries e lines) (hlifted : linesInGroups e.lifted = [])
    (hf : Carries f more) : Carries (e.append f) (lines ++ more) := by
  refine ⟨?_, ascending_of_linesInGroups_eq_nil hlifted hf.ascending⟩
  have hnodes : Node.linesIn e.nodes = lines := by
    have hlines := he.lines_eq
    rwa [hlifted, List.append_nil] at hlines
  have hgroups : linesInGroups (e.lifted ++ f.lifted) = linesInGroups f.lifted := by
    unfold linesInGroups at hlifted ⊢
    rw [List.flatMap_append, hlifted, List.nil_append]
  calc Node.linesIn (e.append f).nodes ++ linesInGroups (e.append f).lifted
      = Node.linesIn e.nodes ++ Node.linesIn f.nodes ++ linesInGroups (e.lifted ++ f.lifted) := by
        rw [Expansion.append, Node.linesIn_append]
    _ = lines ++ (Node.linesIn f.nodes ++ linesInGroups f.lifted) := by
        rw [hgroups, hnodes, List.append_assoc]
    _ = lines ++ more := by rw [hf.lines_eq]

/-- An expansion without lines has none in its groups. -/
theorem Carries.linesInGroups_eq_nil (h : Carries e []) : linesInGroups e.lifted = [] :=
  (List.append_eq_nil_iff.1 h.lines_eq).2

/-- An expansion that climbs behind nodes without lines carries the same lines. -/
theorem Carries.raised (h : Carries e lines) (hnodes : Node.linesIn nodes = []) :
    Carries ⟨nodes, e.raised⟩ lines := by
  refine ⟨?_, h.ascending.raised⟩
  rw [hnodes, List.nil_append, ← h.lines_eq]
  unfold linesInGroups Expansion.raised
  rw [List.flatMap_cons, List.flatMap_map]

/-- A node carries the same lines when what was lifted out of it lands or goes on. -/
theorem Carries.landed_risen {node : Node} (h : Carries ⟨[node], groups⟩ lines) :
    Carries ⟨node :: landed groups, risen groups⟩ lines := by
  refine ⟨?_, h.ascending.risen⟩
  have hgroups : Node.linesIn (landed groups) ++ linesInGroups (risen groups) =
      linesInGroups groups := by
    rw [landed, Node.linesIn_flatMap]
    exact flatMap_landed_risen h.ascending
  calc Node.linesIn (node :: landed groups) ++ linesInGroups (risen groups)
      = Node.linesIn [node] ++ (Node.linesIn (landed groups) ++ linesInGroups (risen groups)) := by
        rw [← List.singleton_append, Node.linesIn_append, List.append_assoc]
    _ = Node.linesIn [node] ++ linesInGroups groups := by rw [hgroups]
    _ = lines := h.lines_eq

/-! ## Filling -/

/-- A node without text of its own carries what is put into it. -/
theorem Carries.inside (h : Carries e lines) (node : Node)
    (hown : wrappedLines node.wrapped = []) :
    Carries ⟨[{ node with children := e.nodes }], e.lifted⟩ lines := by
  refine ⟨?_, h.ascending⟩
  rw [Node.linesIn_cons, Node.linesIn_nil, List.append_nil, hown]
  exact h.lines_eq

mutual

/-- A node without lines carries, when it is filled, the lines of the text it is filled with. -/
theorem carries_fill {grow : Int → Option Text → Expansion}
    (hgrow : ∀ index wrapped, Carries (grow index wrapped) (wrappedLines wrapped))
    (wrapped : Option Text) : ∀ node : Node, Node.linesIn [node] = [] →
      Carries ⟨[(node.fill grow wrapped).1], (node.fill grow wrapped).2⟩ (wrappedLines wrapped)
  | ⟨kind, index, text, own, []⟩, hnode => by
    rw [Node.linesIn_cons, List.append_eq_nil_iff] at hnode
    rw [Node.fill]
    -- A node without children is filled with what grows for its copy.
    exact (hgrow index wrapped).inside ⟨kind, index, text, own, []⟩ hnode.1
  | ⟨kind, index, text, own, child :: more⟩, hnode => by
    rw [Node.linesIn_cons, Node.linesIn_nil, List.append_nil, List.append_eq_nil_iff] at hnode
    have hchildren := carries_fillAll hgrow wrapped (child :: more) hnode.2 (List.cons_ne_nil _ _)
    rw [Node.fill]
    -- Other nodes pass the filling on to their children.
    exact hchildren.inside ⟨kind, index, text, own, child :: more⟩ hnode.1

/-- A forest without lines carries, when it is filled, the lines of the text that it is filled with,
all of them in what grows in its last node. -/
theorem carries_fillAll {grow : Int → Option Text → Expansion}
    (hgrow : ∀ index wrapped, Carries (grow index wrapped) (wrappedLines wrapped))
    (wrapped : Option Text) : ∀ forest : List Node, Node.linesIn forest = [] → forest ≠ [] →
      Carries (fillAll grow wrapped forest) (wrappedLines wrapped)
  | [], _, hne => absurd rfl hne
  | [node], hforest, _ => by
    have hnode := (carries_fill hgrow wrapped node hforest).landed_risen
    simpa [fillAll, nothing] using hnode
  | node :: next :: rest, hforest, _ => by
    rw [← List.singleton_append, Node.linesIn_append, List.append_eq_nil_iff] at hforest
    -- The node is filled without text, so the groups that rise out of it are empty.
    have hnode := (carries_fill hgrow none node hforest.1).landed_risen
    have hrest := carries_fillAll hgrow wrapped (next :: rest) hforest.2 (List.cons_ne_nil _ _)
    rw [fillAll]
    exact hnode.append hnode.linesInGroups_eq_nil hrest

end

/-! ## Copies -/

variable {α : Type} {items : List α} {expand : α → Expansion}

/-- Expansions without groups, one after the other: all nodes, and no groups. -/
theorem foldr_append (h : ∀ item ∈ items, (expand item).lifted = []) :
    (items.map expand).foldr append nothing =
      ⟨items.flatMap fun item => (expand item).nodes, []⟩ := by
  induction items with
  | nil => rfl
  | cons item rest ih =>
    obtain ⟨hitem, hrest⟩ := List.forall_mem_cons.1 h
    rw [List.map_cons, List.foldr_cons, ih hrest, append, hitem]
    rfl

/-- Expansions without groups, one after the other, carry the lines of all. -/
theorem carries_foldr (h : ∀ item ∈ items, (expand item).lifted = []) {spread : α → List Text}
    (hspread : ∀ item ∈ items, Node.linesIn (expand item).nodes = spread item) :
    Carries ((items.map expand).foldr append nothing) (items.flatMap spread) := by
  rw [foldr_append h, ← List.flatMap_congr hspread, ← Node.linesIn_flatMap]
  exact carries_nodes _

end Expansion

namespace Abbreviation

/-- Every fixed number of copies is at least one. -/
def CountsPositive : Abbreviation → Prop
  | .element _ _ _ => True
  | .text _ => True
  | .empty => True
  | .group inner => inner.CountsPositive
  | .child left right => left.CountsPositive ∧ right.CountsPositive
  | .sibling left right => left.CountsPositive ∧ right.CountsPositive
  | .climb left right => left.CountsPositive ∧ right.CountsPositive
  | .repeated inner (.times count) => 0 < count ∧ inner.CountsPositive
  | .repeated inner .perLine => inner.CountsPositive
  | .filtered inner _ => inner.CountsPositive

/-- What every expansion of an abbreviation has: the lines of the text, and a node at least. -/
structure Keeps (setting : ExpansionSetting) (a : Abbreviation) : Prop where
  carries (index : Int) (wrapped : Option Text) :
    (a.expansion setting index wrapped).Carries (Expansion.wrappedLines wrapped)
  nonempty (index : Int) (wrapped : Option Text) :
    (a.expansion setting index wrapped).flatten ≠ []

/-- No expansion of an abbreviation lifts a group. -/
def Settled (setting : ExpansionSetting) (a : Abbreviation) : Prop :=
  ∀ index wrapped, (a.expansion setting index wrapped).lifted = []

variable {setting : ExpansionSetting} {a b : Abbreviation}

/-- Without groups, what is put together is the nodes. -/
theorem Keeps.nodes_ne_nil (ha : Keeps setting a) (hsettled : Settled setting a) (index : Int)
    (wrapped : Option Text) : (a.expansion setting index wrapped).nodes ≠ [] := by
  have h := ha.nonempty index wrapped
  rwa [Expansion.flatten, hsettled, List.flatMap_nil, List.append_nil] at h

/-- Without groups, the nodes have the lines of the text. -/
theorem Keeps.linesIn_nodes (ha : Keeps setting a) (hsettled : Settled setting a) (index : Int)
    (wrapped : Option Text) :
    Node.linesIn (a.expansion setting index wrapped).nodes = Expansion.wrappedLines wrapped := by
  have h := (ha.carries index wrapped).linesIn_flatten
  rwa [Expansion.flatten, hsettled, List.flatMap_nil, List.append_nil] at h

/-- A group keeps what is inside it, and no group climbs out. -/
theorem Keeps.group (ha : Keeps setting a) :
    Keeps setting (.group a) ∧ Settled setting (.group a) := by
  refine ⟨⟨?_, ?_⟩, fun _ _ => rfl⟩
  · intro index wrapped
    rw [← (ha.carries index wrapped).linesIn_flatten]
    exact Expansion.carries_nodes _
  · intro index wrapped
    rw [expansion, Expansion.flatten, List.flatMap_nil, List.append_nil]
    exact ha.nonempty index wrapped

/-- Copies that are given the shares of a text keep the text, if there is a copy. -/
theorem Keeps.copies (ha : Keeps setting a) (hsettled : Settled setting a) {α : Type}
    (items : List α) (hitems : items ≠ []) (index : α → Int) (share : α → Option Text) :
    let copies := (items.map fun item => a.expansion setting (index item) (share item)).foldr
      Expansion.append .nothing
    copies.Carries (items.flatMap fun item => Expansion.wrappedLines (share item)) ∧
      copies.flatten ≠ [] ∧ copies.lifted = [] := by
  have hlifted : ∀ item ∈ items, (a.expansion setting (index item) (share item)).lifted = [] :=
    fun item _ => hsettled (index item) (share item)
  refine ⟨?_, ?_, ?_⟩
  · exact Expansion.carries_foldr hlifted fun item _ =>
      ha.linesIn_nodes hsettled (index item) (share item)
  · cases items with
    | nil => exact absurd rfl hitems
    | cons item rest =>
      have h := ha.nodes_ne_nil hsettled (index item) (share item)
      rw [Expansion.foldr_append hlifted, Expansion.flatten]
      simp [h]
  · rw [Expansion.foldr_append hlifted]

/-- A fixed number of copies keeps the text, if there is a copy. -/
theorem Keeps.times (ha : Keeps setting a) (hsettled : Settled setting a) {count : Nat}
    (hcount : 0 < count) :
    Keeps setting (.repeated a (.times count)) ∧ Settled setting (.repeated a (.times count)) := by
  have hne (wrapped : Option Text) :
      (Expansion.shares setting.atEnd wrapped count).zipIdx ≠ [] := by
    rw [← List.length_pos_iff, List.length_zipIdx, Expansion.length_shares]
    exact hcount
  have h (wrapped : Option Text) :=
    ha.copies hsettled _ (hne wrapped) (fun item => item.2) Prod.fst
  refine ⟨⟨?_, ?_⟩, ?_⟩ <;> intro index wrapped
  · have hcarries := (h wrapped).1
    rw [← List.flatMap_map Prod.fst, List.zipIdx_map_fst, Expansion.flatMap_shares _ _ hcount]
      at hcarries
    exact hcarries
  · exact (h wrapped).2.1
  · exact (h wrapped).2.2

/-- The lines of copies that are given a line each. -/
theorem flatMap_zipIdx_line (wrapped : Option Text) :
    ((Expansion.wrappedLines wrapped).zipIdx.flatMap fun item =>
      Expansion.wrappedLines (some item.1)) = Expansion.wrappedLines wrapped := by
  have hlines : ∀ line ∈ Expansion.wrappedLines wrapped,
      Expansion.wrappedLines (some line) = [line] :=
    fun line hline => Expansion.wrappedLines_line (Expansion.tidy_of_mem_wrappedLines hline)
  calc _ = ((Expansion.wrappedLines wrapped).zipIdx.map Prod.fst).flatMap
          fun line => Expansion.wrappedLines (some line) := (List.flatMap_map _ _ _).symm
    _ = (Expansion.wrappedLines wrapped).flatMap fun line => [line] := by
        rw [List.zipIdx_map_fst, List.flatMap_congr hlines]
    _ = Expansion.wrappedLines wrapped := List.flatMap_singleton' _

/-- A copy for each line, or one copy if there are no lines, keeps the text. -/
theorem Keeps.perLine (ha : Keeps setting a) (hsettled : Settled setting a) :
    Keeps setting (.repeated a .perLine) ∧ Settled setting (.repeated a .perLine) := by
  have h (wrapped : Option Text) (hne : Expansion.wrappedLines wrapped ≠ []) :=
    ha.copies hsettled (Expansion.wrappedLines wrapped).zipIdx (by simpa using hne)
      (fun item => item.2) (fun item => some item.1)
  refine ⟨⟨?_, ?_⟩, ?_⟩ <;> intro index wrapped <;> rw [expansion] <;> split
  · exact ha.carries 0 wrapped
  · next hne =>
    have hcarries := (h wrapped hne).1
    rw [flatMap_zipIdx_line] at hcarries
    exact hcarries
  · exact ha.nonempty 0 wrapped
  · next hne => exact (h wrapped hne).2.1
  · exact hsettled 0 wrapped
  · next hne => exact (h wrapped hne).2.2

/-- The right side keeps the text behind a left side that has none. -/
theorem Keeps.sibling (ha : Keeps setting a) (hsettled : Settled setting a)
    (hb : Keeps setting b) : Keeps setting (.sibling a b) := by
  refine ⟨?_, ?_⟩
  · intro index wrapped
    -- The left side is expanded without text, so it carries no lines.
    have h := (ha.carries index none).append (ha.carries index none).linesInGroups_eq_nil
      (hb.carries index wrapped)
    exact h
  · intro index wrapped
    have h := ha.nodes_ne_nil hsettled index none
    rw [expansion, Expansion.flatten, Expansion.append]
    simp [h]

/-- The right side keeps the text when it climbs out behind a left side that has none. -/
theorem Keeps.climb (ha : Keeps setting a) (hsettled : Settled setting a)
    (hb : Keeps setting b) : Keeps setting (.climb a b) := by
  refine ⟨?_, ?_⟩
  · intro index wrapped
    rw [expansion, hsettled, List.nil_append]
    exact (hb.carries index wrapped).raised (ha.linesIn_nodes hsettled index none)
  · intro index wrapped
    have h := ha.nodes_ne_nil hsettled index none
    rw [expansion, Expansion.flatten]
    simp [h]

/-- What follows a leading `^` keeps the text. -/
theorem Keeps.leadingClimb (ha : Keeps setting a) : Keeps setting (.climb .empty a) := by
  refine ⟨?_, ?_⟩
  · intro index wrapped
    exact (ha.carries index wrapped).raised Node.linesIn_nil
  · intro index wrapped
    have h := ha.nonempty index wrapped
    rw [Expansion.flatten] at h
    rw [expansion, Expansion.flatten]
    simpa [expansion, Expansion.nothing, List.flatMap_map] using h

/-- The nodes of the left side keep the text when they are filled with the right side. -/
theorem Keeps.child (ha : Keeps setting a) (hsettled : Settled setting a)
    (hb : Keeps setting b) : Keeps setting (.child a b) := by
  refine ⟨?_, ?_⟩
  · intro index wrapped
    rw [expansion, hsettled, List.nil_append]
    exact Expansion.carries_fillAll hb.carries wrapped _ (ha.linesIn_nodes hsettled index none)
      (ha.nodes_ne_nil hsettled index none)
  · intro index wrapped
    have h := ha.nodes_ne_nil hsettled index none
    rw [expansion, Expansion.flatten]
    cases hnodes : (a.expansion setting index none).nodes with
    | nil => exact absurd hnodes h
    | cons node rest => simp [Expansion.fillAll]

/-! ## Abbreviations that are read -/

/-- A single node keeps the text that it is given. -/
theorem keeps_single (h : ∀ index wrapped, ∃ node : Node,
      a.expansion setting index wrapped = ⟨[node], []⟩ ∧ node.children = [] ∧
        node.wrapped = wrapped) :
    Keeps setting a ∧ Settled setting a := by
  refine ⟨⟨?_, ?_⟩, ?_⟩ <;> intro index wrapped <;>
    obtain ⟨node, hexpansion, hchildren, hwrapped⟩ := h index wrapped <;> rw [hexpansion]
  · have hnode := Expansion.carries_nodes [node]
    rw [Node.linesIn_cons, hchildren, hwrapped, Node.linesIn_nil, List.append_nil,
      List.append_nil] at hnode
    exact hnode
  · simp [Expansion.flatten]

/-- A text keeps the text that it is given. -/
theorem keeps_text (value : Text) : Keeps setting (.text value) ∧ Settled setting (.text value) :=
  keeps_single fun _ _ => ⟨_, rfl, rfl, rfl⟩

/-- An element keeps the text that it is given. -/
theorem keeps_element {g : Grammar} {ts : List Token} (h : Grammar.ElementForm g ts a) :
    Keeps setting a ∧ Settled setting a := by
  cases h <;> exact keeps_single fun _ _ => ⟨_, rfl, rfl, rfl⟩

/-- What keeps the text still does where it is repeated. -/
theorem Keeps.repeats (ha : Keeps setting a) (hsettled : Settled setting a)
    (hrepeats : Grammar.Repeats a b) : Keeps setting b ∧ Settled setting b := by
  cases hrepeats with
  | text => exact ha.group
  | other => exact ⟨ha, hsettled⟩

/-- Where something is repeated, it has the numbers of copies that it has elsewhere. -/
theorem countsPositive_of_repeats (hrepeats : Grammar.Repeats a b) :
    b.CountsPositive ↔ a.CountsPositive := by
  cases hrepeats <;> rfl

/-- What is derived keeps the text if every fixed number of copies is positive, and only expressions
lift groups. -/
theorem keeps_of_derives {g : Grammar} {p : Grammar.Phrase} {ts : List Token}
    (h : Grammar.Derives g p ts a) (hcounts : a.CountsPositive) :
    Keeps setting a ∧ (p ≠ .expression → Settled setting a) := by
  -- Operators need a left side that lifts nothing; it is a term, so the second half provides it.
  induction h with
  | group _ ih =>
    obtain ⟨hgroup, hsettled⟩ := (ih hcounts).1.group
    exact ⟨hgroup, fun _ => hsettled⟩
  | text =>
    obtain ⟨htext, hsettled⟩ := keeps_text _
    exact ⟨htext, fun _ => hsettled⟩
  | element hform =>
    obtain ⟨helement, hsettled⟩ := keeps_element hform
    exact ⟨helement, fun _ => hsettled⟩
  | once _ ih =>
    obtain ⟨ha, hsettled⟩ := ih hcounts
    exact ⟨ha, fun _ => hsettled (by simp)⟩
  | perLine _ hrepeats ih =>
    obtain ⟨ha, hsettled⟩ := ih ((countsPositive_of_repeats hrepeats).1 hcounts)
    obtain ⟨hinner, hinnerSettled⟩ := ha.repeats (hsettled (by simp)) hrepeats
    obtain ⟨hcopies, hcopiesSettled⟩ := hinner.perLine hinnerSettled
    exact ⟨hcopies, fun _ => hcopiesSettled⟩
  | times _ hrepeats _ ih =>
    obtain ⟨hpositive, hcounts⟩ := hcounts
    obtain ⟨ha, hsettled⟩ := ih ((countsPositive_of_repeats hrepeats).1 hcounts)
    obtain ⟨hinner, hinnerSettled⟩ := ha.repeats (hsettled (by simp)) hrepeats
    obtain ⟨hcopies, hcopiesSettled⟩ := hinner.times hinnerSettled hpositive
    exact ⟨hcopies, fun _ => hcopiesSettled⟩
  | leadingClimb _ ih => exact ⟨(ih hcounts.2).1.leadingClimb, fun hp => absurd rfl hp⟩
  | single _ ih => exact ⟨(ih hcounts).1, fun hp => absurd rfl hp⟩
  | sibling _ _ iha ihb =>
    obtain ⟨ha, hsettled⟩ := iha hcounts.1
    exact ⟨ha.sibling (hsettled (by simp)) (ihb hcounts.2).1, fun hp => absurd rfl hp⟩
  | child _ _ iha ihb =>
    obtain ⟨ha, hsettled⟩ := iha hcounts.1
    exact ⟨ha.child (hsettled (by simp)) (ihb hcounts.2).1, fun hp => absurd rfl hp⟩
  | climb _ _ iha ihb =>
    obtain ⟨ha, hsettled⟩ := iha hcounts.1
    exact ⟨ha.climb (hsettled (by simp)) (ihb hcounts.2).1, fun hp => absurd rfl hp⟩

/-- What is derived with suffixes behind it keeps the text. -/
theorem keeps_of_suffixedForm {g : Grammar} {ts : List Token} (h : Grammar.SuffixedForm g ts a)
    (hcounts : a.CountsPositive) : Keeps setting a := by
  induction h with
  | bare hderives => exact (keeps_of_derives hderives hcounts).1
  | suffix _ _ ih => exact ⟨(ih hcounts).carries, (ih hcounts).nonempty⟩

/-- Expanding an abbreviation that has been read, in which every fixed number of copies is positive,
puts every line of the wrapped text into one node, and in document order the lines are in the order
of the text. -/
theorem linesIn_expand {g : Grammar} {ts : List Token} (h : g.parseTokens ts = .ok a)
    (hcounts : a.CountsPositive) (setting : ExpansionSetting) (index : Int)
    (wrapped : Option Text) :
    Node.linesIn (a.expand setting index wrapped) = Expansion.wrappedLines wrapped :=
  ((keeps_of_suffixedForm (Grammar.parseTokens_sound h).1 hcounts).carries index
    wrapped).linesIn_flatten

/-- What is read from `ul>li*2`. -/
def sampleList : Abbreviation :=
  .child (.element "ul".toList [] none) (.repeated (.element "li".toList [] none) (.times 2))

/-- The tokens of the list. -/
def sampleListTokens : List Token :=
  [⟨.name "ul".toList, 0⟩, ⟨.operator .child, 2⟩, ⟨.name "li".toList, 3⟩, ⟨.operator .times, 5⟩,
    ⟨.number "2".toList, 6⟩]

/-- Three lines in the two entries of a list, where each entry takes a line and the last one takes
what is left. -/
theorem linesIn_expand_sampleList :
    Grammar.parseTokens {} sampleListTokens = .ok sampleList ∧
      sampleList.CountsPositive ∧
      Node.linesIn (sampleList.expand { atEnd := false } 0 (some "a\n \n b\nc".toList)) =
        ["a".toList, "b".toList, "c".toList] := by
  have hderives : Grammar.Derives {} .expression sampleListTokens sampleList :=
    .child (.once (.key (by decide)))
      (.single (.times (.key (by decide)) (.other (by simp)) (by decide)))
  have hread : Grammar.parseTokens {} sampleListTokens = .ok sampleList :=
    Grammar.parseTokens_complete (.bare hderives) (by rintro generator ⟨⟩) (by rintro value ⟨⟩)
  have hcounts : sampleList.CountsPositive := ⟨trivial, by decide, trivial⟩
  refine ⟨hread, hcounts, ?_⟩
  rw [linesIn_expand hread hcounts]
  decide

end Abbreviation

end Abbrev
