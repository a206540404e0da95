import Abbrev.Rendering

/-!
# What is written, without the record

Writing a forest records which tab stops are renamed. What is written does not depend on that, and
here it is said on its own: parts are laid out by appending them (`Generator.laidOut`), contents are
put into what is written for their node (`Generator.filled`), a forest is written node by node
(`Node.writtenAll`), and the nodes are appended to a template (`Template.add`). That these are what
the writing gives is `Generator.value_fill`, `Node.writtenAll_cons` and `Generator.value_assemble`.
-/

namespace Abbrev

namespace Filter

/-- Filters get a node from those before them. -/
theorem prepareAll_append (filters more : List Filter) (node : Node) :
    prepareAll (filters ++ more) node = prepareAll more (prepareAll filters node) :=
  List.foldl_append

/-- Filters get a fragment from those before them. -/
theorem finishAll_append (filters more : List Filter) (node : Node) (own : Fragment) :
    finishAll (filters ++ more) node own = finishAll more node (finishAll filters node own) :=
  List.foldl_append

end Filter

namespace Generator

/-- What `Generator.layout` appends, part by part. -/
def layoutSteps (g : Generator) (pieces : List Piece) : List Fragment :=
  let newline := Fragment.plain g.profile.newline
  if g.profile.format && pieces.any Piece.isBlock then
    pieces.flatMap (fun p => [newline, p.fragment.indent g.profile.indent true]) ++ [newline]
  else pieces.map Piece.fragment

/-- The parts one after the other. -/
def laidOut (g : Generator) (pieces : List Piece) : Fragment :=
  (g.layoutSteps pieces).foldl Fragment.append .empty

/-- Nothing is laid out for no parts. -/
@[simp] theorem laidOut_nil (g : Generator) : g.laidOut [] = .empty := by
  unfold laidOut layoutSteps
  rw [List.any_nil, Bool.and_false]
  rfl

/-- What is laid out. -/
theorem value_layout (g : Generator) (pieces : List Piece) :
    (g.layout pieces).value = g.laidOut pieces := by
  unfold layout laidOut
  rw [Logged.value_foldlM]
  rfl

/-- What is appended is a line break, a part, or a part that is indented. -/
theorem of_mem_layoutSteps {g : Generator} {pieces : List Piece} {step : Fragment}
    (h : step ∈ g.layoutSteps pieces) :
    step = .plain g.profile.newline ∨ ∃ p ∈ pieces,
      step = p.fragment ∨ step = p.fragment.indent g.profile.indent true := by
  unfold layoutSteps at h
  dsimp only at h
  split at h
  · rcases List.mem_append.1 h with h | h
    · obtain ⟨p, hp, h⟩ := List.mem_flatMap.1 h
      simp only [List.mem_cons, List.not_mem_nil, or_false] at h
      rcases h with h | h
      · exact .inl h
      · exact .inr ⟨p, hp, .inr h⟩
    · exact .inl (List.mem_singleton.1 h)
  · obtain ⟨p, hp, rfl⟩ := List.mem_map.1 h
    exact .inr ⟨p, hp, .inl rfl⟩

/-- A child as a part of the contents. -/
def childPiece (child : Bool × Fragment) : Piece :=
  ⟨child.2, child.1 || child.2.text.contains '\n'⟩

/-- What is written for a node with its contents, as `Generator.fill` puts them in. -/
def filled (g : Generator) (own : Fragment) (node : Node) (children : List (Bool × Fragment)) :
    Fragment :=
  match g.dialect with
  | .haml => children.foldl (fun host child => host.append (child.2.indent hamlIndent true)) own
  | _ =>
    let (base, texts) := placeTexts own node
    match texts ++ children.map childPiece with
    | [] => base
    | pieces => base.insert (contentPlace base) (g.laidOut pieces)

/-- What is written for a node with its contents depends on what is written for them. -/
theorem value_fill (g : Generator) (own : Fragment) (node : Node)
    (children : List (Bool × Logged Fragment)) :
    (g.fill own node children).value =
      g.filled own node (children.map fun child => (child.1, child.2.value)) := by
  unfold fill filled
  cases g.dialect with
  | haml =>
    dsimp only
    rw [Logged.value_foldlM, List.foldl_map]
    rfl
  | _ =>
    dsimp only
    rw [Logged.value_bind, Logged.value_mapM, List.map_map]
    have hchildren : (children.map fun child => (do
          let fragment ← child.2
          return ⟨fragment, child.1 || fragment.text.contains '\n'⟩ : Logged Piece).value) =
        children.map (childPiece ∘ fun child => (child.1, child.2.value)) := rfl
    rw [hchildren]
    generalize (placeTexts own node).2 ++ _ = pieces
    cases pieces with
    | nil => rfl
    | cons piece rest =>
      dsimp only
      rw [Logged.value_bind, value_layout]
      rfl

/-- A node is written around its contents, if it has any. -/
theorem filled_eq {g : Generator} (hdialect : g.dialect ≠ .haml) (own : Fragment) (node : Node)
    (children : List (Bool × Fragment)) :
    g.filled own node children =
      let base := (placeTexts own node).1
      let pieces := (placeTexts own node).2 ++ children.map childPiece
      if pieces = [] then base else base.insert (contentPlace base) (g.laidOut pieces) := by
  unfold filled
  split
  · next hhaml => exact absurd hhaml hdialect
  · dsimp only
    generalize (placeTexts own node).2 ++ children.map childPiece = pieces
    cases pieces <;> rfl

/-- What is written for a node itself, as filters leave it. -/
def finished (g : Generator) (filters : List Filter) (node : Node) : Fragment :=
  Filter.finishAll filters (Filter.prepareAll filters node)
    (g.ownFragment (Filter.prepareAll filters node)).value

end Generator

/-- What is written for each node of a forest, and whether the node is a block. -/
def Node.writtenAll (g : Generator) (filters : List Filter) (forest : List Node) :
    List (Bool × Fragment) :=
  (Node.renderAll g filters forest).map fun child => (child.1, child.2.value)

/-- A node is written with its children in it, and the others behind it. -/
theorem Node.writtenAll_cons (g : Generator) (filters : List Filter) (node : Node)
    (rest : List Node) :
    Node.writtenAll g filters (node :: rest) =
      (g.isBlock node.kind,
        g.filled (g.finished filters node) (Filter.prepareAll filters node)
          (Node.writtenAll g filters node.children)) :: Node.writtenAll g filters rest := by
  obtain ⟨kind, index, text, wrapped, children⟩ := node
  unfold Node.writtenAll
  rw [Node.renderAll, List.map_cons, Node.render]
  dsimp only
  rw [Logged.value_bind, Generator.value_fill]
  rfl

/-- The template with one more fragment at its end. -/
def Template.add (t : Template) (f : Fragment) : Template :=
  ⟨t.toFragment.append f,
    t.endOffset <|> (Fragment.insertedEnd? t.text.length f).map Int.ofNat⟩

/-- Fragments are added to a template by appending them to what it is without its caret. -/
theorem Template.toFragment_foldl_add (written : List (Bool × Fragment)) (t : Template) :
    (written.foldl (fun t child => t.add child.2) t).toFragment =
      (written.map Prod.snd).foldl Fragment.append t.toFragment := by
  induction written generalizing t with
  | nil => rfl
  | cons child rest ih => exact ih (t.add child.2)

/-- What is written for a forest: what is written for its nodes, one after the other. -/
theorem Generator.value_assemble (g : Generator) (filters : List Filter) (forest : List Node) :
    (g.assemble filters forest).value =
      (Node.writtenAll g filters forest).foldl (fun t child => t.add child.2) ⟨.empty, none⟩ := by
  unfold assemble Node.writtenAll
  rw [Logged.value_bind, Logged.value_bind, Logged.value_pure, Logged.value_foldlM, List.foldl_map]
  rfl

end Abbrev
