import Abbrev.Proofs.Expansion.Leaves
import Abbrev.Proofs.Fragment.Indent
import Abbrev.Proofs.Rendering.Templates

/-!
# Wrapped text is shown

The lines of wrapped text that are in the nodes of a forest are all shown by its template, in
document order (`Generator.shows_assemble`), if no filter changes wrapped text.

Each step of the writing keeps what a fragment shows (`Fragment.ShowsLines`). Fragments are appended
in their order, and put in as a whole; and indenting pads lines only behind line breaks, which are
never inside of a line that is shown. The one place where a text could be torn apart is a node whose
wrapped text goes to the marker `SELECTION` and that gets further contents at `END`. But the marker
`END` stands before the text or behind it (`Fragment.apart_of_place?`), as does the end of the node.
Nothing else is put into a node that has wrapped text, since such a node has no children.
-/

namespace Abbrev

open Text (Shows Tidy)

/-! ## Fragments -/

namespace Fragment

variable {f host piece : Fragment} {lines more : List Text}

/-- A fragment in range whose text shows tidy lines. -/
structure ShowsLines (lines : List Text) (f : Fragment) : Prop where
  inRange : InRange f
  tidy : ∀ line ∈ lines, Tidy line
  shows : Shows lines f.text

/-- Every fragment in range shows no lines at least. -/
theorem InRange.showsLines_nil (h : InRange f) : ShowsLines [] f :=
  ⟨h, List.forall_mem_nil _, trivial⟩

/-- A text shows its tidy lines. -/
theorem showsLines_plain (t : Text) : ShowsLines t.tidyLines (plain t) :=
  ⟨inRange_plain t, fun _ => Text.tidy_of_mem_tidyLines, Text.shows_tidyLines t⟩

/-- Lines may be left out. -/
theorem ShowsLines.sublist (h : ShowsLines lines f) (hsub : more.Sublist lines) :
    ShowsLines more f :=
  ⟨h.inRange, fun line hline => h.tidy line (hsub.subset hline), h.shows.sublist hsub⟩

/-- A fragment in range shows what a part of its text shows. -/
theorem ShowsLines.of_isInfix (h : ShowsLines lines piece) (hhost : InRange host)
    (hwithin : piece.text <:+: host.text) : ShowsLines lines host :=
  ⟨hhost, h.tidy, h.shows.of_isInfix hwithin⟩

/-- Two fragments one after the other show what each of them shows. -/
theorem ShowsLines.append (hhost : ShowsLines lines host) (hpiece : ShowsLines more piece) :
    ShowsLines (lines ++ more) (host.append piece) := by
  refine ⟨hhost.inRange.append hpiece.inRange,
    List.forall_mem_append.2 ⟨hhost.tidy, hpiece.tidy⟩, ?_⟩
  rw [text_append]
  exact hhost.shows.append hpiece.shows

/-- A piece is put in as a whole. -/
theorem ShowsLines.insert (hpiece : ShowsLines lines piece) (hhost : InRange host) {offset : Nat}
    (hoffset : offset ≤ host.text.length) : ShowsLines lines (host.insert offset piece) :=
  hpiece.of_isInfix (hhost.insert hpiece.inRange hoffset) (List.infix_append _ _ _)

/-- Indenting a fragment leaves its tidy lines whole. -/
theorem ShowsLines.indent (h : ShowsLines lines f) (pad : Text) (firstLine : Bool) :
    ShowsLines lines (f.indent pad firstLine) := by
  refine ⟨h.inRange.indent pad firstLine, h.tidy, ?_⟩
  by_cases hend : ∃ u, f.text = u ++ ['\n']
  · obtain ⟨u, hu⟩ := hend
    have hshows := h.shows
    rw [hu] at hshows
    rw [text_indent_concat h.inRange hu]
    exact ((hshows.of_concat_break h.tidy).padded h.tidy pad).of_isInfix (List.infix_append _ _ _)
  · rw [text_indent h.inRange (not_exists.1 hend)]
    exact (h.shows.padded h.tidy pad).of_isInfix (List.suffix_append _ _).isInfix

/-- Items are written one after the other, each by appending some fragments. All that each item adds
is shown. -/
theorem showsLines_foldl_append {α : Type} {items : List α} {parts : List (List Text)}
    {f : α → List Fragment}
    (h : List.Forall₂ (fun part item => ∀ lines start, ShowsLines lines start →
      ShowsLines (lines ++ part) ((f item).foldl append start)) parts items)
    {start : Fragment} (hstart : ShowsLines lines start) :
    ShowsLines (lines ++ parts.flatten) ((items.flatMap f).foldl append start) := by
  induction h generalizing lines start with
  | nil =>
    rw [List.flatten_nil, List.append_nil]
    exact hstart
  | cons hitem _ ih =>
    rw [List.flatten_cons, ← List.append_assoc, List.flatMap_cons, List.foldl_append]
    exact ih (hitem lines start hstart)

/-! ## A text that is not torn apart -/

/-- What is put into a text outside of some part of it leaves that part whole. -/
theorem infix_insert_of_apart {before middle after : Text} {n : Nat} (piece : Text)
    (h : n ≤ before.length ∨ before.length + middle.length ≤ n) :
    middle <:+: (before ++ middle ++ after).take n ++ piece ++
      (before ++ middle ++ after).drop n := by
  rcases h with h | h
  · refine List.IsInfix.trans ?_ (List.suffix_append _ _).isInfix
    rw [List.append_assoc, List.drop_append_of_le_length h, ← List.append_assoc]
    exact List.infix_append _ _ _
  · refine List.IsInfix.trans ?_ (List.prefix_append _ _).isInfix
    refine List.IsInfix.trans ?_ (List.prefix_append _ _).isInfix
    rw [List.take_append, List.take_of_length_le (by simpa using h)]
    exact List.infix_append _ _ _

/-- No marker stands inside of a text that has been put in. -/
theorem apart_of_place? {offset n : Nat} {t name : Text}
    (h : (host.insert offset (plain t)).place? name = some n) :
    n ≤ offset ∨ offset + t.length ≤ n := by
  obtain ⟨m, hm, -, hn⟩ := exists_mem_of_place? h
  rcases List.mem_append.1 hm with hm | hm
  · rcases List.mem_append.1 hm with hm | hm
    · -- The marker has stayed before the text.
      have hstays := (List.mem_filter.1 hm).2
      simp only [Bool.not_eq_true', decide_eq_false_iff_not] at hstays
      omega
    · cases hm
  · -- The marker has moved behind it.
    obtain ⟨old, hold, rfl⟩ := List.mem_map.1 hm
    have hmoves := (List.mem_filter.1 hold).2
    simp only [decide_eq_true_eq] at hmoves
    simp only [Marker.shift, plain] at hn
    omega

end Fragment

namespace Generator

open Fragment
open Expansion (wrappedLines)

variable {g : Generator} {own base : Fragment} {node : Node} {parts : List (List Text)}
  {pieces : List Piece} {children : List (Bool × Fragment)}

/-! ## Contents -/

/-- Parts that are laid out are all shown. -/
theorem showsLines_laidOut
    (h : List.Forall₂ (fun lines p => ShowsLines lines p.fragment) parts pieces) :
    ShowsLines parts.flatten (g.laidOut pieces) := by
  have hempty : ShowsLines [] .empty := inRange_empty.showsLines_nil
  have hbreak : ShowsLines [] (.plain g.profile.newline) := (inRange_plain _).showsLines_nil
  unfold laidOut layoutSteps
  dsimp only
  split
  · -- Each part is appended behind a line break, indented, and a line break comes last.
    have hparts := showsLines_foldl_append
      (f := fun p : Piece =>
        [.plain g.profile.newline, p.fragment.indent g.profile.indent true])
      (h.imp fun part p hp lines start hstart => by
        have happended := (hstart.append hbreak).append (hp.indent g.profile.indent true)
        rwa [List.append_nil] at happended) hempty
    have hall := hparts.append hbreak
    rw [List.append_nil, List.nil_append] at hall
    rw [List.foldl_append]
    exact hall
  · have hparts := showsLines_foldl_append (f := fun p : Piece => [p.fragment])
      (h.imp fun part p hp lines start hstart => hstart.append hp) hempty
    rwa [← List.map_eq_flatMap] at hparts

/-- The texts of a node that are laid out show their lines. -/
theorem showsLines_texts (own : Fragment) (node : Node) :
    List.Forall₂ (fun lines p => ShowsLines lines p.fragment)
      ((placeTexts own node).2.map fun p => p.fragment.text.tidyLines) (placeTexts own node).2 := by
  have htext (t : Option Text) :
      ∀ p ∈ Piece.ofText? t, ShowsLines p.fragment.text.tidyLines p.fragment := by
    intro p hp
    cases t with
    | none => cases hp
    | some t =>
      obtain rfl := List.mem_singleton.1 hp
      exact showsLines_plain t
  rw [List.forall₂_map_left_iff, List.forall₂_same]
  intro p hp
  rcases List.mem_append.1 hp with hp | hp
  · exact htext _ p hp
  · exact htext _ p hp

/-- A node with its contents shows the texts that are laid out and what the children show. -/
theorem showsLines_pieces (hdialect : g.dialect ≠ .haml) (hown : InRange own) (node : Node)
    (h : List.Forall₂ (fun lines child => ShowsLines lines child.2) parts children) :
    ShowsLines (((placeTexts own node).2.map fun p => p.fragment.text.tidyLines).flatten ++
      parts.flatten) (g.filled own node children) := by
  have hbase := inRange_placeTexts hown node
  have hchildren : List.Forall₂ (fun lines p => ShowsLines lines p.fragment) parts
      (children.map childPiece) := List.forall₂_map_right_iff.2 h
  have hpieces : List.Forall₂ (fun lines p => ShowsLines lines p.fragment)
      (((placeTexts own node).2.map fun p => p.fragment.text.tidyLines) ++ parts)
      ((placeTexts own node).2 ++ children.map childPiece) :=
    List.rel_append (showsLines_texts own node) hchildren
  rw [filled_eq hdialect, ← List.flatten_append]
  dsimp only
  split
  · next hnil =>
    rw [hnil, List.forall₂_nil_right_iff] at hpieces
    rw [hpieces]
    exact hbase.showsLines_nil
  · exact (showsLines_laidOut hpieces).insert hbase (contentPlace_le hbase)

/-- Wrapped text at its marker is shown, whatever contents are put into the node. -/
theorem showsLines_selection (hdialect : g.dialect ≠ .haml) (hown : InRange own) {text : Text}
    (hwrapped : node.wrapped = some text) {offset : Nat}
    (hplace : own.place? Marker.selectionName = some offset)
    (hchildren : ∀ child ∈ children, InRange child.2) :
    ShowsLines text.tidyLines (g.filled own node children) := by
  have hrest := hown.without Marker.selectionName
  have hoffset : offset ≤ (own.without Marker.selectionName).text.length := hown.place?_le hplace
  have hbase : (placeTexts own node).1 =
      (own.without Marker.selectionName).insert offset (.plain text) := by
    unfold placeTexts placeSelection
    rw [hplace, hwrapped]
  have hshown := (showsLines_plain text).insert hrest hoffset
  have hpieces := inRange_pieces own node hchildren
  rw [filled_eq hdialect, hbase]
  dsimp only
  split
  · exact hshown
  · refine (showsLines_plain text).of_isInfix
      (hshown.inRange.insert (inRange_laidOut g hpieces) (contentPlace_le hshown.inRange)) ?_
    -- The other contents go to a marker, or to the end: before the text or behind it.
    refine infix_insert_of_apart _ ?_
    rw [List.length_take_of_le hoffset]
    unfold contentPlace
    cases hend : ((own.without Marker.selectionName).insert offset (.plain text)).place?
        Marker.endName with
    | some n => exact apart_of_place? hend
    | none =>
      right
      simp only [Option.getD_none, Fragment.insert, splice, List.length_append, List.length_take,
        plain]
      omega

/-- A node shows its wrapped text and what its children show, if it does not have both. -/
theorem showsLines_filled (hdialect : g.dialect ≠ .haml) (hown : InRange own)
    (hleaf : node.wrapped = none ∨ children = [])
    (h : List.Forall₂ (fun lines child => ShowsLines lines child.2) parts children) :
    ShowsLines (wrappedLines node.wrapped ++ parts.flatten) (g.filled own node children) := by
  have hcontents := showsLines_pieces hdialect hown node h
  cases hwrapped : node.wrapped with
  | none => exact hcontents.sublist (List.sublist_append_right _ _)
  | some text =>
    obtain rfl : children = [] := hleaf.resolve_left (by rw [hwrapped]; exact nofun)
    obtain rfl := List.forall₂_nil_right_iff.1 h
    rw [List.flatten_nil, List.append_nil]
    change ShowsLines text.tidyLines _
    cases hplace : own.place? Marker.selectionName with
    | some offset =>
      exact showsLines_selection hdialect hown hwrapped hplace (List.forall_mem_nil _)
    | none =>
      -- Without its marker, the text is one of those that are laid out, unless it is empty.
      by_cases hempty : text = []
      · rw [hempty]
        exact hcontents.sublist (List.nil_sublist _)
      · refine hcontents.sublist ?_
        have htexts : (placeTexts own node).2 =
            Piece.ofText? (if node.kind.isLiteral then none else node.text) ++
              [Piece.ofText text] := by
          unfold placeTexts placeSelection
          rw [hplace, hwrapped]
          simp [Option.filter, hempty, Piece.ofText?]
        rw [htexts, List.map_append, List.flatten_append, List.flatten_nil, List.append_nil]
        exact List.sublist_append_of_sublist_right (by simp [Piece.ofText, plain])

end Generator

/-! ## Forests -/

/-- Filters that change no wrapped text do not do so one after the other. -/
theorem Filter.wrapped_prepareAll {filters : List Filter}
    (h : ∀ f ∈ filters, ∀ node, (f.prepare node).wrapped = node.wrapped) (node : Node) :
    (prepareAll filters node).wrapped = node.wrapped := by
  unfold prepareAll
  induction filters generalizing node with
  | nil => rfl
  | cons f rest ih =>
    obtain ⟨hf, hrest⟩ := List.forall_mem_cons.1 h
    rw [List.foldl_cons, ih hrest, hf]

variable {g : Generator} {filters : List Filter}

/-- The lines of a forest are those of its nodes. -/
theorem Node.flatten_map_linesIn (forest : List Node) :
    (forest.map fun node => Node.linesIn [node]).flatten = Node.linesIn forest := by
  rw [← List.flatMap_def, ← Node.linesIn_flatMap, List.flatMap_singleton']

/-- If only nodes without children have wrapped text, what is written for each node of a forest
shows the lines of wrapped text in the node. -/
theorem Node.showsLines_writtenAll (hdialect : g.dialect ≠ .haml)
    (hfilters : ∀ f ∈ filters, ∀ node, (f.prepare node).wrapped = node.wrapped)
    {forest : List Node}
    (hleaves : Node.Everywhere (fun node => node.wrapped = none ∨ node.children = []) forest) :
    List.Forall₂ (fun lines child => Fragment.ShowsLines lines child.2)
      (forest.map fun node => Node.linesIn [node]) (Node.writtenAll g filters forest) := by
  induction forest using Node.forest_induction with
  | nil => exact .nil
  | cons node rest ihChildren ihRest =>
    obtain ⟨hown, hinside, hbehind⟩ := Node.everywhere_cons.1 hleaves
    have hwrapped := Filter.wrapped_prepareAll hfilters node
    have hfinished : Fragment.InRange (g.finished filters node) :=
      Filter.inRange_finishAll filters _ (g.inRange_ownFragment _)
    have hleaf : (Filter.prepareAll filters node).wrapped = none ∨
        Node.writtenAll g filters node.children = [] := by
      rw [hwrapped]
      refine hown.imp_right fun hnone => ?_
      rw [hnone]
      rfl
    have hnode := Generator.showsLines_filled hdialect hfinished hleaf (ihChildren hinside)
    rw [hwrapped, Node.flatten_map_linesIn] at hnode
    rw [Node.writtenAll_cons, List.map_cons, Node.linesIn_cons, Node.linesIn_nil, List.append_nil]
    exact .cons hnode (ihRest hbehind)

/-- If only nodes without children have wrapped text, the template of a forest shows the lines of
wrapped text in the forest, in document order. -/
theorem Generator.shows_assemble (hdialect : g.dialect ≠ .haml)
    (hfilters : ∀ f ∈ filters, ∀ node, (f.prepare node).wrapped = node.wrapped)
    {forest : List Node}
    (hleaves : Node.Everywhere (fun node => node.wrapped = none ∨ node.children = []) forest) :
    Shows (Node.linesIn forest) (g.assemble filters forest).value.text := by
  have hall := Fragment.showsLines_foldl_append (f := fun child : Bool × Fragment => [child.2])
    ((Node.showsLines_writtenAll hdialect hfilters hleaves).imp
      fun part child hchild lines start hstart => hstart.append hchild)
    Fragment.inRange_empty.showsLines_nil
  rw [value_assemble, Template.toFragment_foldl_add, List.map_eq_flatMap,
    ← Node.flatten_map_linesIn]
  exact hall.shows

end Abbrev
