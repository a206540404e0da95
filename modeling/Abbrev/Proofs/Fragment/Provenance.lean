import Abbrev.Proofs.Fragment.Renaming

/-!
# Where markers come from

A fragment is put together in steps: pieces are put at its end, or at an offset of it. Tab stops of
one name are one tab stop, so a name has to tell which piece a marker belongs to. This module shows
that it does, however many steps there are and in whatever order (`Assembly.linked_run`).

To say where a marker comes from, the steps are followed on markers that carry their origin: the
piece that brought them and their name there. An `Assembly` is a fragment with such markers. Without
the origins it is what the steps build (`Assembly.fragment_run`), so what is shown of origins is
about the fragment itself. One step keeps the invariant `Linked` (`Linked.splice`), and so does a
run. A step that fails changes nothing.
-/

namespace Abbrev

open Fragment (OffsetError)

/-! ## Steps -/

/-- A step of putting a fragment together. -/
inductive BuildStep where
  /-- Puts a piece at the end. -/
  | append (piece : Fragment)
  /-- Puts a piece at an offset, which has to lie in the text. -/
  | insert (offset : Int) (piece : Fragment)

namespace BuildStep

/-- The piece that a step puts in. -/
def piece : BuildStep → Fragment
  | append piece => piece
  | insert _ piece => piece

/-- What a step makes of a fragment. -/
def run (host : Fragment) : BuildStep → Except OffsetError Fragment
  | append piece => .ok (host.append piece)
  | insert offset piece => host.insertChecked offset piece

/-- The fragment after a step; a step that fails leaves it as it was. -/
def apply (host : Fragment) (step : BuildStep) : Fragment :=
  match step.run host with
  | .ok built => built
  | .error _ => host

/-- Something can be put in at an offset of the text, and nowhere else. -/
theorem run_insert (host : Fragment) (offset : Int) (piece : Fragment) :
    (insert offset piece).run host =
      if 0 ≤ offset ∧ offset ≤ host.text.length then .ok (host.insert offset.toNat piece)
      else .error ⟨offset, host.text.length⟩ := by
  rw [run, Fragment.insertChecked, Fragment.outside?]
  by_cases h : 0 ≤ offset ∧ offset ≤ host.text.length
  · rw [if_pos h, if_pos h]
  · rw [if_neg h, if_neg h]

end BuildStep

/-- What steps make of a fragment. -/
def Fragment.build (start : Fragment) (steps : List BuildStep) : Fragment :=
  steps.foldl BuildStep.apply start

/-! ## Markers with their origins -/

/-- Where a marker comes from. -/
structure Origin where
  /-- The number of the fragment that brought the marker. -/
  part : Nat
  /-- The name of the marker in that fragment. -/
  name : Text
  deriving DecidableEq, Repr

/-- A fragment that is put together, where markers know where they come from. -/
structure Assembly where
  text : Text
  markers : List (Marker × Origin)
  /-- The fragments put in so far; the first one is the start. -/
  parts : List Fragment

namespace Assembly

/-- The fragment without the origins. -/
def fragment (a : Assembly) : Fragment :=
  ⟨a.text, a.markers.map Prod.fst⟩

/-- The assembly that has only a start. -/
def start (f : Fragment) : Assembly :=
  ⟨f.text, f.markers.map fun m => (m, ⟨0, m.name⟩), [f]⟩

/-- `Fragment.remaining` with origins. -/
def remaining (a : Assembly) (piece : Fragment) : List (Marker × Origin) :=
  if piece.has Marker.endName then a.markers.filter fun m => m.1.name ≠ Marker.endName
  else a.markers

/-- `Fragment.splice` with origins: markers of the host keep theirs, and those of the piece get it
as theirs. -/
def splice (a : Assembly) (offset : Nat) (piece : Fragment) (moves : Marker → Bool) : Assembly :=
  let kept := a.remaining piece
  let inserted := piece.markers.map fun m =>
    ((Fragment.rename (a.fragment.renames piece) m).shift offset, Origin.mk a.parts.length m.name)
  ⟨(a.fragment.splice offset piece moves).text,
    kept.filter (fun m => !moves m.1) ++ inserted ++
      (kept.filter fun m => moves m.1).map fun m => (m.1.shift piece.text.length, m.2),
    a.parts ++ [piece]⟩

/-- The assembly after a step. -/
def step (a : Assembly) : BuildStep → Assembly
  | .append piece => a.splice a.text.length piece fun m => (a.text.length : Int) < m.offset
  | .insert offset piece =>
    if 0 ≤ offset ∧ offset ≤ a.text.length then
      a.splice offset.toNat piece fun m => (offset.toNat : Int) ≤ m.offset
    else a

/-- The assembly that steps make of a start. -/
def run (f : Fragment) (steps : List BuildStep) : Assembly :=
  steps.foldl step (start f)

/-! ## Without the origins -/

/-- Without origins, the markers that stay are those of the fragment. -/
theorem map_fst_remaining (a : Assembly) (piece : Fragment) :
    (a.remaining piece).map Prod.fst = a.fragment.remaining piece := by
  unfold remaining Fragment.remaining
  split
  · rw [fragment, List.filter_map]
    rfl
  · rfl

/-- Without origins, a splice is that of fragments. -/
theorem fragment_splice (a : Assembly) (offset : Nat) (piece : Fragment) (moves : Marker → Bool) :
    (a.splice offset piece moves).fragment = a.fragment.splice offset piece moves := by
  unfold Fragment.splice
  dsimp only
  rw [← map_fst_remaining, List.filter_map, List.filter_map, List.map_map]
  unfold fragment splice
  simp only [List.map_append, List.map_map]
  rfl

/-- Without origins, a step is that of fragments. -/
theorem fragment_step (a : Assembly) (step : BuildStep) :
    (a.step step).fragment = step.apply a.fragment := by
  cases step with
  | append piece => exact fragment_splice a a.text.length piece _
  | insert offset piece =>
    have hlength : a.fragment.text.length = a.text.length := rfl
    unfold Assembly.step BuildStep.apply
    rw [BuildStep.run_insert, hlength]
    dsimp only
    by_cases h : 0 ≤ offset ∧ offset ≤ a.text.length
    · rw [if_pos h, if_pos h]
      exact fragment_splice a offset.toNat piece _
    · rw [if_neg h, if_neg h]

/-- Without origins, a run is that of fragments. -/
theorem fragment_run (f : Fragment) (steps : List BuildStep) :
    (run f steps).fragment = f.build steps := by
  have hfold (a : Assembly) : (steps.foldl step a).fragment = a.fragment.build steps := by
    unfold Fragment.build
    induction steps generalizing a with
    | nil => rfl
    | cons step rest ih => rw [List.foldl_cons, List.foldl_cons, ih, fragment_step]
  have hstart : (start f).fragment = f := by
    unfold start fragment
    rw [List.map_map]
    exact congrArg (Fragment.mk f.text) (List.map_id _)
  rw [run, hfold, hstart]

/-! ## The invariant -/

/-- The fragment with number `part` is the last one with an `END`. -/
def IsLastWithEnd (parts : List Fragment) (part : Nat) : Prop :=
  (∃ f ∈ parts[part]?, Marker.endName ∈ f.names) ∧
    ∀ later, part < later → ∀ f ∈ parts[later]?, Marker.endName ∉ f.names

/-- Names tell where markers come from. -/
structure Linked (a : Assembly) : Prop where
  /-- Every marker comes from a marker of a part. -/
  known : ∀ m ∈ a.markers, ∃ f ∈ a.parts[m.2.part]?, m.2.name ∈ f.names
  /-- Markers for attributes have never been renamed, and nothing else has become one. -/
  attributes : ∀ m ∈ a.markers, m.1.name = Marker.attributesName ↔ m.2.name = Marker.attributesName
  /-- Apart from markers for attributes, two markers have the same name exactly if they come from
  the same part and had the same name there. -/
  same : ∀ m ∈ a.markers, ∀ n ∈ a.markers, m.1.name ≠ Marker.attributesName →
    n.1.name ≠ Marker.attributesName → (m.1.name = n.1.name ↔ m.2 = n.2)
  /-- There is one `END` at most. -/
  oneEnd : a.fragment.endCount ≤ 1
  /-- An `END` is that of the last part with one. -/
  lastEnd : ∀ m ∈ a.markers, m.1.name = Marker.endName →
    m.2.name = Marker.endName ∧ IsLastWithEnd a.parts m.2.part
  /-- There is an `END` if there has been one. -/
  someEnd : (∃ f ∈ a.parts, Marker.endName ∈ f.names) →
    ∃ m ∈ a.markers, m.1.name = Marker.endName

variable {a : Assembly} {piece : Fragment} {offset : Nat} {moves : Marker → Bool}
  {m : Marker × Origin} {name : Text} {f : Fragment}

/-! ## Parts -/

/-- A part keeps its number when one more is put in. -/
theorem mem_parts_append {parts : List Fragment} {part : Nat} (h : f ∈ parts[part]?)
    (piece : Fragment) : f ∈ (parts ++ [piece])[part]? := by
  have hlt : part < parts.length := (List.getElem?_eq_some_iff.1 h).1
  rwa [List.getElem?_append_left hlt]

/-- A part after the last one with an `END` leaves it the last one, unless it has an `END` too. -/
theorem IsLastWithEnd.append {parts : List Fragment} {part : Nat} (h : IsLastWithEnd parts part)
    (hpiece : Marker.endName ∉ piece.names) : IsLastWithEnd (parts ++ [piece]) part := by
  obtain ⟨⟨f, hf, hend⟩, hlater⟩ := h
  refine ⟨⟨f, mem_parts_append hf piece, hend⟩, ?_⟩
  intro later hlt other hother
  rw [Option.mem_def, List.getElem?_append] at hother
  split at hother
  · exact hlater later hlt other hother
  · rw [List.getElem?_singleton] at hother
    split at hother
    · obtain rfl := Option.some.inj hother
      exact hpiece
    · cases hother

/-- A part with an `END` is the last one with one when it has been put in. -/
theorem isLastWithEnd_length (parts : List Fragment) (hpiece : Marker.endName ∈ piece.names) :
    IsLastWithEnd (parts ++ [piece]) parts.length := by
  refine ⟨⟨piece, by simp, hpiece⟩, ?_⟩
  intro later hlt other hother
  have hnone : (parts ++ [piece])[later]? = none := by
    rw [List.getElem?_eq_none_iff, List.length_append, List.length_singleton]
    omega
  rw [hnone] at hother
  cases hother

/-! ## Markers after a splice -/

/-- A marker stays if it is no `END` or the piece has none. -/
theorem mem_remaining (hpiece : ∀ n ∈ piece.markers, 0 ≤ n.offset) :
    m ∈ a.remaining piece ↔
      m ∈ a.markers ∧ (Marker.endName ∈ piece.names → m.1.name ≠ Marker.endName) := by
  have hhas : piece.has Marker.endName = true ↔ Marker.endName ∈ piece.names := by
    rw [Fragment.has_iff_of_nonneg hpiece, Fragment.mem_names]
  unfold remaining
  split
  · next h => simp [hhas.1 h]
  · next h =>
    rw [hhas] at h
    simp [h]

/-- A marker is one that has stayed, under its old name, or one of the piece, under its new name. -/
theorem of_mem_splice (h : m ∈ (a.splice offset piece moves).markers) :
    (∃ old ∈ a.remaining piece, m.1.name = old.1.name ∧ m.2 = old.2) ∨
      ∃ n ∈ piece.markers,
        m.1.name = a.fragment.newName piece n.name ∧ m.2 = ⟨a.parts.length, n.name⟩ := by
  rcases List.mem_append.1 h with h | h
  · rcases List.mem_append.1 h with h | h
    · exact .inl ⟨m, (List.mem_filter.1 h).1, rfl, rfl⟩
    · obtain ⟨n, hn, rfl⟩ := List.mem_map.1 h
      exact .inr ⟨n, hn, rfl, rfl⟩
  · obtain ⟨old, hold, rfl⟩ := List.mem_map.1 h
    exact .inl ⟨old, (List.mem_filter.1 hold).1, rfl, rfl⟩

/-- A marker that stays is still there. -/
theorem exists_mem_splice_of_remaining (h : m ∈ a.remaining piece) :
    ∃ n ∈ (a.splice offset piece moves).markers, n.1.name = m.1.name := by
  unfold splice
  simp only [List.mem_append, List.mem_map, List.mem_filter]
  cases hmoves : moves m.1 with
  | true => exact ⟨_, .inr ⟨m, ⟨h, hmoves⟩, rfl⟩, rfl⟩
  | false => exact ⟨m, .inl (.inl ⟨h, by simp [hmoves]⟩), rfl⟩

/-- A marker of the piece is there, under its new name. -/
theorem exists_mem_splice_of_piece {n : Marker} (h : n ∈ piece.markers) :
    ∃ m ∈ (a.splice offset piece moves).markers,
      m.1.name = a.fragment.newName piece n.name := by
  unfold splice
  simp only [List.mem_append, List.mem_map]
  exact ⟨_, .inl (.inr ⟨n, h, rfl⟩), rfl⟩

/-! ## One step -/

/-- A start is linked. -/
theorem linked_start (h : f.endCount ≤ 1) : Linked (start f) := by
  have hmem {m : Marker × Origin} (hm : m ∈ (start f).markers) :
      ∃ n ∈ f.markers, m = (n, ⟨0, n.name⟩) := by
    obtain ⟨n, hn, rfl⟩ := List.mem_map.1 hm
    exact ⟨n, hn, rfl⟩
  constructor
  case known =>
    intro m hm
    obtain ⟨n, hn, rfl⟩ := hmem hm
    exact ⟨f, rfl, Fragment.mem_names.2 ⟨n, hn, rfl⟩⟩
  case attributes =>
    intro m hm
    obtain ⟨n, hn, rfl⟩ := hmem hm
    exact Iff.rfl
  case same =>
    intro m hm n hn _ _
    obtain ⟨m, -, rfl⟩ := hmem hm
    obtain ⟨n, -, rfl⟩ := hmem hn
    simp
  case oneEnd =>
    rw [show (start f).fragment = f from fragment_run f []]
    exact h
  case lastEnd =>
    intro m hm hend
    obtain ⟨n, hn, rfl⟩ := hmem hm
    exact ⟨hend, isLastWithEnd_length [] (Fragment.mem_names.2 ⟨n, hn, hend⟩)⟩
  case someEnd =>
    rintro ⟨g, hg, hend⟩
    obtain rfl := List.mem_singleton.1 hg
    obtain ⟨n, hn, hname⟩ := Fragment.mem_names.1 hend
    exact ⟨(n, ⟨0, n.name⟩), List.mem_map_of_mem hn, hname⟩

/-- A marker that has stayed and one of the piece do not have the same name, unless they are markers
for attributes. -/
theorem name_ne_newName (hpiece : ∀ n ∈ piece.markers, 0 ≤ n.offset) {n : Marker}
    (hm : m ∈ a.remaining piece) (hn : n ∈ piece.markers)
    (hattributes : n.name ≠ Marker.attributesName) :
    m.1.name ≠ a.fragment.newName piece n.name := by
  obtain ⟨hmem, hend⟩ := (mem_remaining hpiece).1 hm
  have hname : n.name ∈ piece.names := Fragment.mem_names.2 ⟨n, hn, rfl⟩
  by_cases hreserved : Marker.isReserved n.name = true
  · -- The only other reserved name is that of the caret, which the host gives up.
    have hcaret : n.name = Marker.endName := by
      simpa [Marker.isReserved, hattributes] using hreserved
    rw [Fragment.newName_of_isReserved hreserved, hcaret]
    exact hend (hcaret ▸ hname)
  · intro heq
    have hfree : a.fragment.newName piece n.name ∉ a.fragment.names :=
      Fragment.newName_notMem hname (by simpa using hreserved)
    exact hfree (heq ▸ Fragment.mem_names.2 ⟨m.1, List.mem_map_of_mem hmem, rfl⟩)

/-- A marker that has stayed and one of the piece do not come from the same place. -/
theorem origin_ne (h : Linked a) (hpiece : ∀ n ∈ piece.markers, 0 ≤ n.offset)
    (hm : m ∈ a.remaining piece) (name : Text) : m.2 ≠ ⟨a.parts.length, name⟩ := by
  intro heq
  obtain ⟨f, hf, -⟩ := h.known m ((mem_remaining hpiece).1 hm).1
  have hlt : m.2.part < a.parts.length := (List.getElem?_eq_some_iff.1 hf).1
  rw [heq] at hlt
  exact Nat.lt_irrefl _ hlt

/-- After a splice, names still tell where markers come from: a marker has either stayed or come
with the piece. -/
theorem Linked.same_splice (h : Linked a) (hpiece : ∀ n ∈ piece.markers, 0 ≤ n.offset)
    {m' : Marker × Origin} (hm : m ∈ (a.splice offset piece moves).markers)
    (hm' : m' ∈ (a.splice offset piece moves).markers)
    (hne : m.1.name ≠ Marker.attributesName) (hne' : m'.1.name ≠ Marker.attributesName) :
    m.1.name = m'.1.name ↔ m.2 = m'.2 := by
  have hattributes : Marker.isReserved Marker.attributesName = true := by decide
  have hold {m : Marker × Origin} (hm : m ∈ a.remaining piece) : m ∈ a.markers :=
    ((mem_remaining hpiece).1 hm).1
  obtain ⟨old, hstay, hname, horigin⟩ | ⟨n, hn, hname, horigin⟩ := of_mem_splice hm <;>
    obtain ⟨old', hstay', hname', horigin'⟩ | ⟨n', hn', hname', horigin'⟩ := of_mem_splice hm' <;>
    rw [hname] at hne ⊢ <;> rw [hname'] at hne' ⊢ <;> rw [horigin, horigin']
  · exact h.same old (hold hstay) old' (hold hstay') hne hne'
  · rw [ne_eq, Fragment.newName_eq_iff hattributes] at hne'
    exact iff_of_false (name_ne_newName hpiece hstay hn' hne') (origin_ne h hpiece hstay _)
  · rw [ne_eq, Fragment.newName_eq_iff hattributes] at hne
    exact iff_of_false (name_ne_newName hpiece hstay' hn hne).symm
      (origin_ne h hpiece hstay' _).symm
  · have hnames := Fragment.mem_names.2 ⟨n, hn, rfl⟩
    have hnames' := Fragment.mem_names.2 ⟨n', hn', rfl⟩
    constructor
    · intro heq
      rw [Fragment.newName_injective hnames hnames' heq]
    · intro heq
      rw [(Origin.mk.inj heq).2]

/-- After a splice, there is still an `END` if there has been one, and if the piece has one. -/
theorem Linked.someEnd_splice (h : Linked a) (hpiece : ∀ n ∈ piece.markers, 0 ≤ n.offset)
    (hsome : ∃ f ∈ a.parts ++ [piece], Marker.endName ∈ f.names) :
    ∃ m ∈ (a.splice offset piece moves).markers, m.1.name = Marker.endName := by
  have hcaret : Marker.isReserved Marker.endName = true := by decide
  by_cases hnew : Marker.endName ∈ piece.names
  · obtain ⟨n, hn, hname⟩ := Fragment.mem_names.1 hnew
    obtain ⟨m, hm, hmname⟩ := exists_mem_splice_of_piece (a := a) hn
    exact ⟨m, hm, by rw [hmname, hname, Fragment.newName_of_isReserved hcaret]⟩
  · obtain ⟨f, hf, hend⟩ := hsome
    have hbefore : f ∈ a.parts := by
      rcases List.mem_append.1 hf with hf | hf
      · exact hf
      · obtain rfl := List.mem_singleton.1 hf
        exact absurd hend hnew
    obtain ⟨m, hm, hmname⟩ := h.someEnd ⟨f, hbefore, hend⟩
    have hstay : m ∈ a.remaining piece :=
      (mem_remaining hpiece).2 ⟨hm, fun hpieceEnd => absurd hpieceEnd hnew⟩
    obtain ⟨n, hn, hname⟩ : ∃ n ∈ (a.splice offset piece moves).markers, n.1.name = m.1.name :=
      exists_mem_splice_of_remaining hstay
    exact ⟨n, hn, hname.trans hmname⟩

/-- A piece that is put in leaves an assembly linked. -/
theorem Linked.splice (h : Linked a) (hpiece : ∀ n ∈ piece.markers, 0 ≤ n.offset)
    (hend : piece.endCount ≤ 1) (offset : Nat) (moves : Marker → Bool) :
    Linked (a.splice offset piece moves) := by
  have hattributes : Marker.isReserved Marker.attributesName = true := by decide
  have hcaret : Marker.isReserved Marker.endName = true := by decide
  have hold {m : Marker × Origin} (hm : m ∈ a.remaining piece) : m ∈ a.markers :=
    ((mem_remaining hpiece).1 hm).1
  -- In each case, a marker has either stayed or come with the piece.
  constructor
  case known =>
    intro m hm
    obtain ⟨old, hstay, -, horigin⟩ | ⟨n, hn, -, horigin⟩ := of_mem_splice hm
    · obtain ⟨f, hf, hname⟩ := h.known old (hold hstay)
      rw [horigin]
      exact ⟨f, mem_parts_append hf piece, hname⟩
    · rw [horigin]
      exact ⟨piece, List.getElem?_concat_length, Fragment.mem_names.2 ⟨n, hn, rfl⟩⟩
  case attributes =>
    intro m hm
    obtain ⟨old, hstay, hname, horigin⟩ | ⟨n, hn, hname, horigin⟩ := of_mem_splice hm
    · rw [hname, horigin]
      exact h.attributes old (hold hstay)
    · rw [hname, horigin]
      exact Fragment.newName_eq_iff hattributes _ _ _
  case same =>
    intro m hm m' hm' hne hne'
    exact h.same_splice hpiece hm hm' hne hne'
  case oneEnd =>
    rw [fragment_splice, Fragment.endCount_splice hpiece]
    split
    · exact h.oneEnd
    · exact hend
  case lastEnd =>
    intro m hm hmend
    obtain ⟨old, hstay, hname, horigin⟩ | ⟨n, hn, hname, horigin⟩ := of_mem_splice hm
    · rw [hname] at hmend
      have hnone : Marker.endName ∉ piece.names :=
        fun hsome => ((mem_remaining hpiece).1 hstay).2 hsome hmend
      obtain ⟨hfrom, hlast⟩ := h.lastEnd old (hold hstay) hmend
      rw [horigin]
      exact ⟨hfrom, hlast.append hnone⟩
    · rw [hname, Fragment.newName_eq_iff hcaret] at hmend
      rw [horigin]
      exact ⟨hmend, isLastWithEnd_length _ (Fragment.mem_names.2 ⟨n, hn, hmend⟩)⟩
  case someEnd =>
    intro hsome
    exact h.someEnd_splice hpiece hsome

/-- A step leaves an assembly linked, whether it succeeds or fails. -/
theorem Linked.step (h : Linked a) {step : BuildStep}
    (hpiece : ∀ n ∈ step.piece.markers, 0 ≤ n.offset) (hend : step.piece.endCount ≤ 1) :
    Linked (a.step step) := by
  cases step with
  | append piece => exact h.splice hpiece hend _ _
  | insert offset piece =>
    unfold Assembly.step
    dsimp only
    split
    · exact h.splice hpiece hend _ _
    · exact h

/-! ## All steps -/

/-- However many steps there are, names tell where markers come from. -/
theorem linked_of_steps {steps : List BuildStep} (hstart : f.endCount ≤ 1)
    (hpieces : ∀ step ∈ steps,
      (∀ n ∈ step.piece.markers, 0 ≤ n.offset) ∧ step.piece.endCount ≤ 1) :
    Linked (run f steps) := by
  have hlinked : Linked (start f) := linked_start hstart
  unfold run
  generalize start f = a at hlinked
  induction steps generalizing a with
  | nil => exact hlinked
  | cons step rest ih =>
    obtain ⟨⟨hoffsets, hend⟩, hrest⟩ := List.forall_mem_cons.1 hpieces
    exact ih hrest _ (hlinked.step hoffsets hend)

/-- However a fragment is put together, its names tell where its markers come from. The start and
the pieces must have one `END` at most, and the pieces no negative offset. The assembly that is
spoken of is the fragment that the steps build. A piece goes in at any offset of the text, and at
other offsets the step fails and changes nothing. The search for a new name ends, at the first name
in its row that is free, and this is no reserved name. -/
theorem linked_run (f : Fragment) (steps : List BuildStep) (hstart : f.endCount ≤ 1)
    (hpieces : ∀ step ∈ steps,
      (∀ n ∈ step.piece.markers, 0 ≤ n.offset) ∧ step.piece.endCount ≤ 1) :
    (run f steps).fragment = f.build steps ∧ Linked (run f steps) ∧
      (∀ (offset : Int) (piece : Fragment),
        (0 ≤ offset ∧ offset ≤ (f.build steps).text.length →
          (BuildStep.insert offset piece).run (f.build steps) =
            .ok ((f.build steps).insert offset.toNat piece)) ∧
        (¬ (0 ≤ offset ∧ offset ≤ (f.build steps).text.length) →
          (BuildStep.insert offset piece).run (f.build steps) =
              .error ⟨offset, (f.build steps).text.length⟩ ∧
            f.build (steps ++ [.insert offset piece]) = f.build steps)) ∧
      ∀ taken name, ∃ n, 2 ≤ n ∧ Fragment.freshName taken name = Fragment.numbered name n ∧
        Fragment.numbered name n ∉ taken ∧
        (∀ k, 2 ≤ k → k < n → Fragment.numbered name k ∈ taken) ∧
        Marker.isReserved (Fragment.numbered name n) = false := by
  refine ⟨fragment_run f steps, linked_of_steps hstart hpieces, ?_, ?_⟩
  · intro offset piece
    refine ⟨?_, ?_⟩
    · intro hinside
      rw [BuildStep.run_insert, if_pos hinside]
    · intro houtside
      have hfails := BuildStep.run_insert (f.build steps) offset piece
      rw [if_neg houtside] at hfails
      refine ⟨hfails, ?_⟩
      unfold Fragment.build at hfails ⊢
      rw [List.foldl_append, List.foldl_cons, List.foldl_nil, BuildStep.apply, hfails]
  · intro taken name
    obtain ⟨n, hn, hfresh, hfree, hfirst⟩ := Fragment.exists_freshName taken name
    exact ⟨n, hn, hfresh, hfree, hfirst, Fragment.isReserved_numbered name n⟩

/-- A text with a tab stop and a caret. -/
def sampleStart : Fragment :=
  ⟨"ab".toList, [⟨"x".toList, 1⟩, ⟨"END".toList, 2⟩]⟩

/-- A piece at the end whose second name looks like a new one, a piece that does not go in, and a
piece in front with a caret. -/
def sampleSteps : List BuildStep :=
  [.append ⟨"c".toList, [⟨"x".toList, 0⟩, ⟨"x2".toList, 1⟩]⟩, .insert 9 ⟨"d".toList, []⟩,
    .insert 0 ⟨[], [⟨"x".toList, 0⟩, ⟨"END".toList, 0⟩]⟩]

/-- In the sample, three tab stops `x` from three fragments stay apart, and so does `x2`. -/
theorem linked_run_sample :
    sampleStart.endCount ≤ 1 ∧
      (∀ step ∈ sampleSteps,
        (∀ n ∈ step.piece.markers, 0 ≤ n.offset) ∧ step.piece.endCount ≤ 1) ∧
      Linked (run sampleStart sampleSteps) ∧
      (run sampleStart sampleSteps).fragment =
        ⟨"abc".toList, [⟨"x4".toList, 0⟩, ⟨"END".toList, 0⟩, ⟨"x".toList, 1⟩, ⟨"x3".toList, 2⟩,
          ⟨"x2".toList, 3⟩]⟩ := by
  have hstart : sampleStart.endCount ≤ 1 := by decide
  have hpieces : ∀ step ∈ sampleSteps,
      (∀ n ∈ step.piece.markers, 0 ≤ n.offset) ∧ step.piece.endCount ≤ 1 := by decide
  obtain ⟨hfragment, hlinked, -, -⟩ := linked_run sampleStart sampleSteps hstart hpieces
  refine ⟨hstart, hpieces, hlinked, ?_⟩
  rw [hfragment]
  rfl

end Assembly

end Abbrev
