import Abbrev.Proofs.Fragment.Indent
import Abbrev.Proofs.Registry.Members
import Abbrev.Proofs.Rendering.Markup

/-!
# HAML has a line for each node

In HAML a node is a line, and what is inside it are the lines behind it that are indented further.
What is written for a node is lines with a break at the end of each (`Text.ofLines`). The lines of
the children are appended to that of the node with two blanks before each of them
(`Fragment.text_indent_ofLines`), again and again on the way up; so in the end a line has as many
pairs of blanks before it as there are nodes around its own (`Generator.splitAt_assemble_haml`).

For that the line of a node must be one line, and it must not be empty, or else it would come to be
a line of blanks. It begins with the name of an element, or with an id or a class that stands in for
the name, or with the sign of a text (`Generator.ownFragment_haml`).
-/

namespace Abbrev

open Fragment

/-! ## Nodes with their depths -/

namespace Node

mutual

/-- A node and those inside it in document order, each with the number of nodes around it and with
all that is inside it. -/
def walk (depth : Nat) : Node → List (Nat × Node)
  | ⟨kind, index, text, wrapped, children⟩ =>
    (depth, ⟨kind, index, text, wrapped, children⟩) :: walkAll (depth + 1) children

/-- The nodes of a forest in document order. -/
def walkAll (depth : Nat) : List Node → List (Nat × Node)
  | [] => []
  | node :: rest => node.walk depth ++ walkAll depth rest

end

variable {forest : List Node}

/-- No nodes, no entries. -/
theorem walkAll_nil (depth : Nat) : walkAll depth [] = [] := by
  rw [walkAll]

/-- The first node of a forest comes first, then those inside it, and then the others. -/
theorem walkAll_cons (depth : Nat) (node : Node) (rest : List Node) :
    walkAll depth (node :: rest) =
      (depth, node) :: (walkAll (depth + 1) node.children ++ walkAll depth rest) := by
  obtain ⟨kind, index, text, wrapped, children⟩ := node
  rw [walkAll, walk, List.cons_append]

/-- Without what is inside them, the nodes are the outline of the forest. -/
theorem map_walkAll (depth : Nat) (forest : List Node) :
    (walkAll depth forest).map (fun entry => (entry.1, { entry.2 with children := [] })) =
      outlineAll depth forest := by
  induction forest using forest_induction generalizing depth with
  | nil => rw [walkAll_nil, outlineAll, List.map_nil]
  | cons node rest ihChildren ihRest =>
    rw [walkAll_cons, outlineAll_cons, List.map_cons, List.map_append, ihChildren, ihRest]

/-- A forest that is put into a node is one level deeper. -/
theorem walkAll_succ (depth : Nat) (forest : List Node) :
    walkAll (depth + 1) forest =
      (walkAll depth forest).map fun entry => (entry.1 + 1, entry.2) := by
  induction forest using forest_induction generalizing depth with
  | nil => rw [walkAll_nil, walkAll_nil, List.map_nil]
  | cons node rest ihChildren ihRest =>
    rw [walkAll_cons, walkAll_cons, List.map_cons, List.map_append, ihChildren, ihRest]

/-- What holds everywhere in a forest holds of all its nodes. -/
theorem Everywhere.of_mem_walkAll {p : Node → Prop} (h : Everywhere p forest) {depth : Nat}
    {entry : Nat × Node} (hentry : entry ∈ walkAll depth forest) : p entry.2 := by
  induction forest using forest_induction generalizing depth with
  | nil =>
    rw [walkAll_nil] at hentry
    cases hentry
  | cons node rest ihChildren ihRest =>
    obtain ⟨hown, hinside, hbehind⟩ := everywhere_cons.1 h
    rw [walkAll_cons] at hentry
    rcases List.mem_cons.1 hentry with rfl | hentry
    · exact hown
    · rcases List.mem_append.1 hentry with hentry | hentry
      · exact ihChildren hinside hentry
      · exact ihRest hbehind hentry

/-- There are no line breaks in a node, as far as HAML shows it: in the tag of an element, or in a
literal text. -/
structure OneLine (node : Node) : Prop where
  kind : node.kind.OneLine
  literal : node.kind.isLiteral = true → '\n' ∉ node.text.getD []

end Node

/-! ## Parts of a line -/

namespace Fragment

variable {f g : Fragment}

/-- There is no line break in the text of a fragment. -/
def Unbroken (f : Fragment) : Prop :=
  '\n' ∉ f.text

/-- Two parts of a line are a part of it. -/
theorem Unbroken.concat (hf : Unbroken f) (hg : Unbroken g) : Unbroken (f.concat g) :=
  List.not_mem_append hf hg

/-- A marker has no text. -/
theorem unbroken_startMarker (name : Text) : Unbroken (startMarker name) :=
  List.not_mem_nil

/-- A tab stop with a quote after it, or what was written for it. -/
theorem unbroken_tabStopFragment (name : Text) (quote : Quote) :
    Unbroken (tabStopFragment (tabStopName name) quote.sign) := by
  have hsign : '\n' ∉ [quote.sign] := by cases quote <;> decide
  unfold tabStopFragment
  split
  · exact (unbroken_startMarker _).concat hsign
  · have hname : '\n' ∉ tabStopName name :=
      notMem_tabStopName (by decide) (by decide) name
    have hsource : '\n' ∉ markerSource (tabStopName name) := by simp [markerSource, hname]
    exact List.not_mem_append hsource hsign

end Fragment

namespace Generator

variable {attributes : List Attribute}

/-- Ids and classes are part of a line, if the attributes are. -/
theorem unbroken_hamlSelectorsFragment (h : ∀ a ∈ attributes, '\n' ∉ a.value) :
    Unbroken (hamlSelectorsFragment attributes) := by
  induction attributes with
  | nil => exact List.not_mem_nil
  | cons a rest ih =>
    obtain ⟨hvalue, hrest⟩ := List.forall_mem_cons.1 h
    have hdots : '\n' ∉ Text.replaceChar ' ' ['.'] a.value :=
      Text.notMem_replaceChar (by decide) (.inr hvalue)
    have hsign (sign : Char) (hsign : sign ≠ '\n') : Unbroken (plain [sign]) :=
      fun hmem => hsign (List.mem_singleton.1 hmem).symm
    refine Unbroken.concat ?_ (ih hrest)
    unfold hamlSelectorFragment
    split_ifs
    · exact (hsign '#' (by decide)).concat (unbroken_startMarker _)
    · exact (hsign '#' (by decide)).concat hvalue
    · exact (hsign '.' (by decide)).concat (unbroken_startMarker _)
    · exact (hsign '.' (by decide)).concat hdots
    · exact List.not_mem_nil

/-- Other attributes are part of a line, if the attributes are. -/
theorem unbroken_hamlOthersFragment (quote : Quote)
    (h : ∀ a ∈ attributes, '\n' ∉ a.name ∧ '\n' ∉ a.value) :
    Unbroken (hamlOthersFragment quote attributes) := by
  have hsign : '\n' ∉ [quote.sign] := by cases quote <;> decide
  have hone (a : Attribute) (ha : '\n' ∉ a.name ∧ '\n' ∉ a.value) :
      Unbroken (hamlOtherFragment quote a) := by
    have hname : '\n' ∉ Text.lower a.name :=
      mt (Text.mem_of_mem_lower (by decide) (by decide)) ha.1
    refine Unbroken.concat ?_ ?_
    · simpa [Unbroken, plain, hname] using hsign
    · split
      · exact unbroken_tabStopFragment a.name quote
      · exact List.not_mem_append ha.2 hsign
  fun_induction hamlOthersFragment quote attributes with
  | case1 => exact List.not_mem_nil
  | case2 a => exact hone a (h a List.mem_cons_self)
  | case3 a b rest ih =>
    obtain ⟨ha, hrest⟩ := List.forall_mem_cons.1 h
    have hcomma : Unbroken (plain ", ".toList) := by simp [Unbroken, plain]
    exact (hone a ha).concat (hcomma.concat (ih hrest))

/-- Ids and classes begin with their sign, if there are any. -/
theorem exists_sign_hamlSelectors (h : hamlSelectors attributes ≠ []) :
    ∃ c ∈ ['#', '.'], ∃ rest, (hamlSelectorsFragment attributes).text = c :: rest := by
  induction attributes with
  | nil => exact absurd rfl h
  | cons a rest ih =>
    have htext : (hamlSelectorsFragment (a :: rest)).text =
        (hamlSelectorFragment a).text ++ (hamlSelectorsFragment rest).text := rfl
    rw [htext]
    unfold hamlSelectorFragment
    by_cases hid : Text.lower a.name = "id".toList
    · rw [if_pos hid]
      exact ⟨'#', by decide, _, rfl⟩
    rw [if_neg hid]
    by_cases hclass : Text.lower a.name = "class".toList
    · rw [if_pos hclass]
      exact ⟨'.', by decide, _, rfl⟩
    · rw [if_neg hclass]
      refine ih fun hrest => h ?_
      rw [hamlSelectors, List.flatMap_cons, if_neg hid, if_neg hclass]
      exact hrest

variable {g : Generator} {node : Node} {forest : List Node}

/-! ## The line of a node -/

/-- What is written for a node itself, without the line break at its end. -/
def ownLine (g : Generator) (node : Node) : Text :=
  (g.ownFragment node).value.text.dropLast

/-- A line begins with the sign of a name, an id, a class or a text, and it has no line break. -/
structure IsHamlLine (line : Text) : Prop where
  sign : ∃ c ∈ ['%', '#', '.', '|'], ∃ rest, line = c :: rest
  unbroken : '\n' ∉ line

/-- What an element is read as is a line with its break. -/
theorem exists_text_hamlFragment (g : Generator) {key : Text} (hkey : '\n' ∉ key)
    (hattributes : ∀ a ∈ attributes, '\n' ∉ a.name ∧ '\n' ∉ a.value) (node : Node) :
    ∃ line, IsHamlLine line ∧ (g.hamlFragment key attributes node).text = line ++ ['\n'] := by
  have hlower : '\n' ∉ Text.lower key := mt (Text.mem_of_mem_lower (by decide) (by decide)) hkey
  have hname : '\n' ∉ g.hamlName key attributes := by
    unfold hamlName
    split
    · exact List.not_mem_nil
    · simpa using hlower
  have hselectors := unbroken_hamlSelectorsFragment fun a ha => (hattributes a ha).2
  have hothers : Unbroken (hamlOthersFragment g.profile.quote (attributes.filter isHamlOther)) :=
    unbroken_hamlOthersFragment _ fun a ha => hattributes a (List.mem_of_mem_filter ha)
  unfold hamlFragment
  dsimp only
  generalize hbraces : (if (hamlOthers g.profile.quote attributes).isEmpty then empty
    else ((plain ['{']).concat
      (hamlOthersFragment g.profile.quote (attributes.filter isHamlOther))).concat
        (plain ['}'])) = braces
  generalize hslash : (if voidElements.contains (Text.lower key) && node.children.isEmpty
    then ['/'] else []) = slash
  have hbraces : '\n' ∉ braces.text := by
    rw [← hbraces]
    split
    · exact List.not_mem_nil
    · have hopen : Unbroken (plain ['{']) := by simp [Unbroken, plain]
      have hclose : Unbroken (plain ['}']) := by simp [Unbroken, plain]
      exact (hopen.concat hothers).concat hclose
  have hslash : '\n' ∉ slash := by
    rw [← hslash]
    split
    · decide
    · exact List.not_mem_nil
  refine ⟨g.hamlName key attributes ++ (hamlSelectorsFragment attributes).text ++ braces.text ++
    slash, ⟨?_, ?_⟩, ?_⟩
  · -- Only an element with an id or a class is written without its name.
    unfold hamlName
    split
    · next hunnamed =>
      have hsome : hamlSelectors attributes ≠ [] := by
        intro hnil
        simp [hnil] at hunnamed
      obtain ⟨c, hc, rest, hrest⟩ := exists_sign_hamlSelectors hsome
      rw [hrest]
      refine ⟨c, ?_, _, rfl⟩
      simp only [List.mem_cons, List.not_mem_nil, or_false] at hc ⊢
      tauto
    · exact ⟨'%', by decide, _, rfl⟩
  · exact List.not_mem_append (List.not_mem_append (List.not_mem_append hname hselectors) hbraces)
      hslash
  · show g.hamlName key attributes ++ _ ++ _ ++ _ ++ [] ++ ['\n'] = _
    rw [List.append_nil]
    rfl

/-- What is written for a node itself is a line with its break. -/
theorem ownFragment_haml (hdialect : g.dialect = .haml) (hsnippets : g.usesSnippets = false)
    (h : node.OneLine) :
    IsHamlLine (g.ownLine node) ∧ (g.ownFragment node).value.text = g.ownLine node ++ ['\n'] := by
  have hline : ∃ line, IsHamlLine line ∧ (g.ownFragment node).value.text = line ++ ['\n'] := by
    have hkind := h.kind
    unfold ownFragment
    split
    · next hliteral =>
      have htext : '\n' ∉ node.text.getD [] := h.literal (by rw [hliteral]; rfl)
      refine ⟨'|' :: ' ' :: node.text.getD [], ⟨⟨'|', by decide, _, rfl⟩, by simpa using htext⟩, ?_⟩
      show (literalFragment g _).text = _
      unfold literalFragment
      rw [hdialect]
    · next key attributes snippet helement =>
      rw [helement] at hkind
      rw [hsnippets]
      show ∃ line, IsHamlLine line ∧ (elementFragment g key attributes node).text = line ++ ['\n']
      unfold elementFragment
      rw [hdialect]
      dsimp only
      rw [ofSource_hamlSource]
      exact exists_text_hamlFragment g (hkind.key key rfl) hkind.attributes node
  obtain ⟨line, hline, htext⟩ := hline
  have hown : g.ownLine node = line := by rw [ownLine, htext, List.dropLast_concat]
  rw [hown]
  exact ⟨hline, htext⟩

/-! ## The lines of a forest -/

/-- The lines of a forest: two blanks for each node around a node, and then its own line. -/
def hamlLines (g : Generator) (depth : Nat) (forest : List Node) : List Text :=
  (Node.walkAll depth forest).map fun entry =>
    List.replicate (2 * entry.1) ' ' ++ g.ownLine entry.2

/-- The line of the first node, those of the nodes inside it, and the others. -/
theorem hamlLines_cons (g : Generator) (depth : Nat) (node : Node) (rest : List Node) :
    g.hamlLines depth (node :: rest) =
      (List.replicate (2 * depth) ' ' ++ g.ownLine node) ::
        (g.hamlLines (depth + 1) node.children ++ g.hamlLines depth rest) := by
  unfold hamlLines
  rw [Node.walkAll_cons, List.map_cons, List.map_append]

/-- One level deeper, lines have one more pair of blanks before them. -/
theorem hamlLines_succ (g : Generator) (depth : Nat) (forest : List Node) :
    g.hamlLines (depth + 1) forest =
      (g.hamlLines depth forest).map fun line => hamlIndent ++ line := by
  unfold hamlLines
  rw [Node.walkAll_succ, List.map_map, List.map_map]
  refine List.map_congr_left fun entry _ => ?_
  show List.replicate (2 * entry.1 + 2) ' ' ++ _ = hamlIndent ++ (_ ++ _)
  rw [Nat.add_comm, List.replicate_add, List.append_assoc]
  rfl

/-- No line of a forest has a line break in it. -/
theorem newline_notMem_hamlLines (hdialect : g.dialect = .haml) (hsnippets : g.usesSnippets = false)
    (h : Node.Everywhere Node.OneLine forest) (depth : Nat) :
    ∀ line ∈ g.hamlLines depth forest, '\n' ∉ line := by
  intro line hline
  obtain ⟨entry, hentry, rfl⟩ := List.mem_map.1 hline
  obtain ⟨hown, -⟩ := ownFragment_haml hdialect hsnippets (h.of_mem_walkAll hentry)
  refine List.not_mem_append ?_ hown.unbroken
  intro hmem
  exact absurd (List.eq_of_mem_replicate hmem) (by decide)

/-- The lines of the first node come before those of the others. -/
theorem hamlLines_cons_append (g : Generator) (depth : Nat) (node : Node) (rest : List Node) :
    g.hamlLines depth (node :: rest) =
      g.hamlLines depth [node] ++ g.hamlLines depth rest := by
  have hnil : g.hamlLines depth [] = [] := by rw [hamlLines, Node.walkAll_nil, List.map_nil]
  rw [hamlLines_cons, hamlLines_cons g depth node [], hnil, List.append_nil, List.cons_append]

/-- Texts that are the lines of one node each are the lines of a forest one after the other. -/
theorem flatMap_hamlLines {depth : Nat} {written : List (Bool × Fragment)}
    {text : Bool × Fragment → Text}
    (h : List.Forall₂ (fun node child => text child = Text.ofLines (g.hamlLines depth [node]))
      forest written) :
    written.flatMap text = Text.ofLines (g.hamlLines depth forest) := by
  induction h with
  | nil =>
    rw [hamlLines, Node.walkAll_nil]
    rfl
  | @cons node child rest more hchild _ ih =>
    rw [List.flatMap_cons, hchild, ih, hamlLines_cons_append g depth node rest]
    exact (List.flatMap_append ..).symm

/-- A fragment is the lines of a node. -/
structure IsLinesOf (g : Generator) (node : Node) (f : Fragment) : Prop where
  inRange : InRange f
  text : f.text = Text.ofLines (g.hamlLines 0 [node])
  unbroken : ∀ line ∈ g.hamlLines 0 [node], '\n' ∉ line

/-- The lines of a node are indented to be one level deeper. -/
theorem IsLinesOf.text_indent {f : Fragment} (h : g.IsLinesOf node f) :
    (f.indent hamlIndent true).text = Text.ofLines (g.hamlLines 1 [node]) := by
  have hne : g.hamlLines 0 [node] ≠ [] := by
    rw [hamlLines_cons]
    exact List.cons_ne_nil _ _
  rw [text_indent_ofLines h.inRange hne h.unbroken h.text, ← hamlLines_succ]

/-- What is written for a node with its contents is its line and those of what is inside it, if its
children are written so. -/
theorem text_filled_haml (hdialect : g.dialect = .haml) (hsnippets : g.usesSnippets = false)
    (hown : node.OneLine) {written : List (Bool × Fragment)}
    (hwritten : List.Forall₂ (fun node child => g.IsLinesOf node child.2) node.children written) :
    (g.filled (g.finished [] node) node written).text = Text.ofLines (g.hamlLines 0 [node]) := by
  have hfilled : g.filled (g.finished [] node) node written =
      (written.map fun child => child.2.indent hamlIndent true).foldl append
        (g.ownFragment node).value := by
    unfold filled
    rw [hdialect, List.foldl_map]
    rfl
  have hinside := flatMap_hamlLines (hwritten.imp fun node child hchild => hchild.text_indent)
  obtain ⟨-, htext⟩ := ownFragment_haml hdialect hsnippets hown
  rw [hfilled, text_foldl_append, List.flatMap_map, hinside, htext, hamlLines_cons]
  simp [hamlLines, Node.walkAll_nil]

/-- What is written for each node of a forest are its line and those of what is inside it. -/
theorem forall₂_writtenAll_haml (hdialect : g.dialect = .haml) (hsnippets : g.usesSnippets = false)
    (h : Node.Everywhere Node.OneLine forest) :
    List.Forall₂ (fun node child => g.IsLinesOf node child.2) forest
      (Node.writtenAll g [] forest) := by
  induction forest using Node.forest_induction with
  | nil => exact .nil
  | cons node rest ihChildren ihRest =>
    obtain ⟨hown, hinside, hbehind⟩ := Node.everywhere_cons.1 h
    have hranges := Node.inRange_writtenAll g [] (node :: rest)
    rw [Node.writtenAll_cons] at hranges ⊢
    have hnode : g.IsLinesOf node
        (g.filled (g.finished [] node) node (Node.writtenAll g [] node.children)) :=
      { inRange := hranges _ List.mem_cons_self
        text := text_filled_haml hdialect hsnippets hown (ihChildren hinside)
        unbroken := newline_notMem_hamlLines hdialect hsnippets (.cons hown hinside .nil) 0 }
    exact .cons hnode (ihRest hbehind)

/-- What is written for a forest are its lines. -/
theorem text_assemble_haml (hdialect : g.dialect = .haml) (hsnippets : g.usesSnippets = false)
    (h : Node.Everywhere Node.OneLine forest) :
    (g.assemble [] forest).value.text = Text.ofLines (g.hamlLines 0 forest) := by
  have hwritten := forall₂_writtenAll_haml hdialect hsnippets h
  rw [value_assemble, Template.toFragment_foldl_add, text_foldl_append, List.flatMap_map]
  exact flatMap_hamlLines (hwritten.imp fun node child hchild => hchild.text)

/-- Without filters, a forest is written in HAML with a line for each node, if there are no line
breaks in its tags and literal texts. Nothing is refused and nothing has no place. The template is
cut at its line breaks into the lines of the nodes in document order, with nothing behind the last
break; and before the line of a node stand two blanks for each node around it. That line is what is
written for the node itself, apart from a line break behind it, and it begins with no blank. -/
theorem splitAt_assemble_haml (profile : Profile) {forest : List Node}
    (h : Node.Everywhere Node.OneLine forest) :
    let g := ofDialect profile .haml
    g.fault? [] forest = none ∧ Node.misplacedIn? g [] forest = none ∧
      Text.splitAt '\n' (g.assemble [] forest).value.text =
        ((Node.walkAll 0 forest).map fun entry =>
          List.replicate (2 * entry.1) ' ' ++ g.ownLine entry.2) ++ [[]] ∧
      (∀ entry ∈ Node.walkAll 0 forest, IsHamlLine (g.ownLine entry.2) ∧
        (g.ownFragment entry.2).value.text = g.ownLine entry.2 ++ ['\n']) ∧
      (Node.walkAll 0 forest).map (fun entry => (entry.1, { entry.2 with children := [] })) =
        Node.outlineAll 0 forest := by
  intro g
  have hdialect : g.dialect = .haml := rfl
  have hsnippets : g.usesSnippets = false := rfl
  have hlines := newline_notMem_hamlLines hdialect hsnippets h 0
  refine ⟨?_, Node.misplacedIn?_eq_none g [] forest, ?_, ?_, Node.map_walkAll 0 forest⟩
  · refine fault?_eq_none ?_ (List.forall_mem_nil _) forest
    rw [hdialect]
    decide
  · rw [text_assemble_haml hdialect hsnippets h, Text.splitAt_ofLines hlines]
    rfl
  · intro entry hentry
    exact ownFragment_haml hdialect hsnippets (h.of_mem_walkAll hentry)

/-- A list with a text in it, a lone tag, and a box that needs no name. -/
def sampleOutline : List Node :=
  [⟨.element "ul".toList [] none, 0, none, none,
      [⟨.element "li".toList [⟨"title".toList, []⟩] none, 0, none, none,
        [⟨.literal, 0, some "a".toList, none, []⟩]⟩]⟩,
    ⟨.element "div".toList [⟨"id".toList, "b".toList⟩] none, 0, none, none,
      [⟨.element "br".toList [] none, 0, none, none, []⟩]⟩]

/-- The lines of the sample. -/
theorem splitAt_assemble_haml_sampleOutline :
    Node.Everywhere Node.OneLine sampleOutline ∧
      Text.splitAt '\n' ((ofDialect {} .haml).assemble [] sampleOutline).value.text =
        ["%ul".toList, "  %li\x7b:title => \"\"\x7d".toList, "    | a".toList, "#b".toList,
          "  %br/".toList, []] := by
  have hsimple {key : Text} (hkey : '\n' ∉ key) (children : List Node) :
      Node.OneLine ⟨.element key [] none, 0, none, none, children⟩ :=
    ⟨⟨by rintro _ ⟨⟩; exact hkey, List.forall_mem_nil _⟩, nofun⟩
  have hattribute {key name value : Text} (hkey : '\n' ∉ key) (hname : '\n' ∉ name)
      (hvalue : '\n' ∉ value) (children : List Node) :
      Node.OneLine ⟨.element key [⟨name, value⟩] none, 0, none, none, children⟩ := by
    refine ⟨⟨by rintro _ ⟨⟩; exact hkey, fun a ha => ?_⟩, nofun⟩
    obtain rfl := List.mem_singleton.1 ha
    exact ⟨hname, hvalue⟩
  have htext : Node.OneLine ⟨.literal, 0, some "a".toList, none, []⟩ :=
    ⟨⟨by rintro _ ⟨⟩, List.forall_mem_nil _⟩, fun _ => by simp⟩
  have hline : Node.Everywhere Node.OneLine sampleOutline :=
    .cons (hsimple (by simp) _)
      (.cons (hattribute (by simp) (by simp) (by simp) _) (.cons htext .nil .nil) .nil)
      (.cons (hattribute (by simp) (by simp) (by simp) _)
        (.cons (hsimple (by simp) _) .nil .nil) .nil)
  obtain ⟨-, -, hsplit, -⟩ := splitAt_assemble_haml {} hline
  refine ⟨hline, hsplit.trans ?_⟩
  decide +kernel

end Generator

end Abbrev
