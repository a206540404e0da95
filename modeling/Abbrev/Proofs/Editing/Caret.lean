import Abbrev.Proofs.Editing.History

/-!
# The caret in the text

A buffer is made with the caret in its text (`Buffer.make`). Deleting a key takes the caret back to
where the key began, and starting a template takes it to a place in what is inserted. The offsets of
the selection, however, stay as they are while edits change the text in front of them, and deleting
the selection takes the caret to where the selection starts, even if the text ends before that.

This is the only way out of the text: as long as each selection that is deleted starts in the text,
the caret stays in it (`Step.caret_stays_in_text`). In any case the caret is never before the text,
and a deletion shortens the text by what it gives back, since the ends of a selection stay in order.
-/

namespace Abbrev

namespace Buffer

variable {b : Buffer} {start stop : Int}

/-- The caret and the selection are not before the text, and no selection runs backwards. -/
structure Ordered (b : Buffer) : Prop where
  caret_nonneg : 0 ≤ b.caret
  selection : ∀ range ∈ b.selection, 0 ≤ range.1 ∧ range.1 ≤ range.2

/-- The caret is in the text, and the selection does not run backwards. -/
structure CaretInText (b : Buffer) : Prop extends Ordered b where
  caret_le : b.caret ≤ b.text.length

/-- The selection starts in the text or at its end, if there is one. -/
def SelectionStartsInText (b : Buffer) : Prop :=
  ∀ range ∈ b.selection, range.1 ≤ b.text.length

instance (b : Buffer) : Decidable b.SelectionStartsInText :=
  inferInstanceAs (Decidable (∀ range ∈ b.selection, range.1 ≤ b.text.length))

/-- A buffer is made with the caret in its text. -/
theorem caretInText_make {text : Text} {caret : Option Int} {selection : Option (Int × Int)}
    {context : Option Text} {catalog : Catalog}
    (hmake : make text caret selection context catalog = .ok b)
    (hselection : ∀ range ∈ selection, 0 ≤ range.1 ∧ range.1 ≤ range.2) : b.CaretInText := by
  unfold make at hmake
  dsimp only at hmake
  split at hmake
  · next hcaret =>
    obtain rfl := Except.ok.inj hmake
    exact ⟨⟨hcaret.1, hselection⟩, hcaret.2⟩
  · cases hmake

/-! ## Edits at the caret -/

/-- What is put in at the caret makes the text longer, wherever the caret is. -/
theorem length_textWith (b : Buffer) (t : Text) :
    (b.textWith t).length = b.text.length + t.length := by
  have hparts : (Text.upTo b.caret b.text).length + (Text.onFrom b.caret b.text).length =
      b.text.length := by
    rw [← List.length_append, Text.upTo, Text.onFrom, List.take_append_drop]
  unfold textWith
  rw [List.length_append, List.length_append]
  omega

/-- Editing keeps the caret and the selection from getting before the text. -/
theorem invariant_ordered : Invariant Ordered where
  of_agrees hagrees hb := by
    refine ⟨?_, ?_⟩
    · rw [hagrees.caret]
      exact hb.caret_nonneg
    · rw [hagrees.selection]
      exact hb.selection
  type text hb := ⟨Int.add_nonneg hb.caret_nonneg (Int.natCast_nonneg _), hb.selection⟩
  deleteKey hdelete hb := by
    obtain ⟨hstart, rfl⟩ := eq_of_deleteKey hdelete
    exact ⟨hstart, hb.selection⟩
  start _ hb := ⟨Int.add_nonneg hb.caret_nonneg (Int.natCast_nonneg _), hb.selection⟩

/-- Editing keeps the caret in the text. -/
theorem invariant_caretInText : Invariant CaretInText where
  of_agrees hagrees hb := by
    refine ⟨invariant_ordered.of_agrees hagrees hb.toOrdered, ?_⟩
    rw [hagrees.caret, hagrees.text]
    exact hb.caret_le
  type {b} text hb := by
    refine ⟨invariant_ordered.type text hb.toOrdered, ?_⟩
    have hcaret : b.caret ≤ b.text.length := hb.caret_le
    change b.caret + text.length ≤ ((b.textWith text).length : Int)
    rw [length_textWith]
    omega
  deleteKey {b key after} hdelete hb := by
    refine ⟨invariant_ordered.deleteKey hdelete hb.toOrdered, ?_⟩
    obtain ⟨hstart, rfl⟩ := eq_of_deleteKey hdelete
    obtain ⟨start, heq⟩ := Int.eq_ofNat_of_zero_le hstart
    have hcaret : b.caret ≤ b.text.length := hb.caret_le
    dsimp only
    rw [heq, Text.upTo_natCast, List.length_append, List.length_take]
    omega
  start {b t} hplace hb := by
    refine ⟨invariant_ordered.start hplace hb.toOrdered, ?_⟩
    have hcaret : b.caret ≤ b.text.length := hb.caret_le
    change b.caret + caretIn t ≤ ((b.textWith t.text).length : Int)
    rw [length_textWith]
    omega

/-! ## Deleting the selection -/

/-- The selection is given up, so nothing about it has to be kept. -/
theorem Ordered.deleteSelection (hb : b.Ordered) : b.deleteSelection.2.Ordered := by
  unfold Buffer.deleteSelection
  split
  · exact hb
  · next start stop hselection =>
    exact ⟨(hb.selection (start, stop) hselection).1, nofun⟩

/-- The text gets shorter by what is given back, also where the selection goes beyond it. -/
theorem Ordered.length_deleteSelection (hb : b.Ordered) :
    b.deleteSelection.2.text.length + b.deleteSelection.1.length = b.text.length := by
  unfold Buffer.deleteSelection
  split
  · rfl
  · next start stop hselection =>
    obtain ⟨hstart, hle⟩ := hb.selection (start, stop) hselection
    obtain ⟨i, rfl⟩ := Int.eq_ofNat_of_zero_le hstart
    obtain ⟨j, rfl⟩ := Int.eq_ofNat_of_zero_le (hstart.trans hle)
    have hij : i ≤ j := Int.ofNat_le.1 hle
    simp only [Text.upTo_natCast, Text.onFrom_natCast, Text.slice_natCast, List.length_append,
      List.length_take, List.length_drop]
    omega

/-- Deleting a selection leaves the caret in the text exactly if the selection starts there. -/
theorem Ordered.caretInText_deleteSelection_iff (hb : b.Ordered)
    (hselection : b.selection = some (start, stop)) :
    b.deleteSelection.2.CaretInText ↔ start ≤ b.text.length := by
  have hcaret : b.deleteSelection.2.caret = start := by
    rw [Buffer.deleteSelection, hselection]
  -- A text that ends before the selection does is not cut at all.
  have hlength : start ≤ b.deleteSelection.2.text.length ↔ start ≤ b.text.length := by
    obtain ⟨hstart, hle⟩ := hb.selection (start, stop) hselection
    obtain ⟨i, rfl⟩ := Int.eq_ofNat_of_zero_le hstart
    obtain ⟨j, rfl⟩ := Int.eq_ofNat_of_zero_le (hstart.trans hle)
    have hij : i ≤ j := Int.ofNat_le.1 hle
    rw [Buffer.deleteSelection, hselection]
    simp only [Text.upTo_natCast, Text.onFrom_natCast, List.length_append, List.length_take,
      List.length_drop]
    omega
  constructor
  · intro h
    exact hlength.1 (hcaret ▸ h.caret_le)
  · intro h
    exact ⟨hb.deleteSelection, hcaret.symm ▸ hlength.2 h⟩

/-- Deleting a selection that starts in the text keeps the caret in the text. -/
theorem CaretInText.deleteSelection (hb : b.CaretInText) (hstarts : b.SelectionStartsInText) :
    b.deleteSelection.2.CaretInText := by
  cases hselection : b.selection with
  | none =>
    unfold Buffer.deleteSelection
    rw [hselection]
    exact hb
  | some range =>
    exact (hb.toOrdered.caretInText_deleteSelection_iff hselection).2 (hstarts range hselection)

end Buffer

namespace Step

variable {text : Text} {caret : Option Int} {selection : Option (Int × Int)}
  {context : Option Text} {catalog : Catalog} {b : Buffer}

/-- The caret stays in the text through any run of edits and groups of edits, as long as each
selection that is deleted starts in the text at that moment. In any case the caret is never before
the text, and deleting the selection shortens the text by what it gives back. -/
theorem caret_stays_in_text
    (hmake : Buffer.make text caret selection context catalog = .ok b)
    (hselection : ∀ range ∈ selection, 0 ≤ range.1 ∧ range.1 ≤ range.2 ∧ range.2 ≤ text.length)
    (setup : Setup) {steps : List Step} (hsteps : IsEditAll steps) :
    (∀ m ∈ history setup b steps, 0 ≤ m.after.caret ∧
      m.before.deleteSelection.2.text.length + m.before.deleteSelection.1.length =
        m.before.text.length ∧
      (m.step = .deleteSelection →
        m.outcome = (.ok (.text m.before.deleteSelection.1), m.before.deleteSelection.2))) ∧
    ∀ past, past <+: history setup b steps →
      (∀ m ∈ past, m.deletesSelection = true → m.before.SelectionStartsInText) →
      ∀ m ∈ past, m.after.caret ≤ m.after.text.length := by
  have hb : b.CaretInText := Buffer.caretInText_make hmake fun range hrange =>
    ⟨(hselection range hrange).1, (hselection range hrange).2.1⟩
  have hordered := lasts_history Buffer.invariant_ordered setup hb.toOrdered hsteps
  have hinText := lasts_history Buffer.invariant_caretInText setup hb hsteps
  constructor
  · -- The order of the offsets outlasts all deletions.
    have hholds := hordered.holds _ (List.prefix_refl _) fun m _ _ h => h.deleteSelection
    intro m hm
    refine ⟨(hholds m hm).after.caret_nonneg, (hholds m hm).before.length_deleteSelection, ?_⟩
    obtain ⟨setup, step, before⟩ := m
    rintro ⟨⟩
    rfl
  · intro past hpast hstarts m hm
    have hholds := hinText.holds past hpast fun m hm hdeletes h =>
      h.deleteSelection (hstarts m hm hdeletes)
    exact (hholds m hm).after.caret_le

/-- A text with its first character selected. -/
def sampleText : Buffer :=
  ⟨"cab".toList, 3, some (0, 1), none, .empty, []⟩

/-- Steps that delete a key, then the selection before it, and then fail as a group. -/
def sampleSteps : List Step :=
  [deleteKey "ab".toList, deleteSelection,
    group [start ⟨.plain "y".toList, none⟩, deleteKey "z".toList] none]

/-- The caret stays in the text in the sample, also inside of the group that fails. -/
theorem caret_stays_in_sampleText :
    Buffer.make "cab".toList none (some (0, 1)) none .empty = .ok sampleText ∧
      IsEditAll sampleSteps ∧
      (∀ m ∈ history (.fixed ⟨[], []⟩) sampleText sampleSteps, 0 ≤ m.after.caret) ∧
      ∀ m ∈ history (.fixed ⟨[], []⟩) sampleText sampleSteps,
        m.after.caret ≤ m.after.text.length := by
  have hmake : Buffer.make "cab".toList none (some (0, 1)) none .empty = .ok sampleText := rfl
  have hsteps : IsEditAll sampleSteps :=
    ⟨trivial, trivial, ⟨⟨Fragment.inRange_plain _, nofun⟩, trivial, trivial⟩, trivial⟩
  have hselection : ∀ range ∈ some ((0 : Int), (1 : Int)),
      0 ≤ range.1 ∧ range.1 ≤ range.2 ∧ range.2 ≤ "cab".toList.length := by decide
  obtain ⟨hall, hpast⟩ := caret_stays_in_text hmake hselection (.fixed ⟨[], []⟩) hsteps
  refine ⟨hmake, hsteps, fun m hm => (hall m hm).1, hpast _ (List.prefix_refl _) ?_⟩
  -- Only the second step deletes the selection, from the text that the first one leaves.
  decide

/-- The caret leaves the text when a selection is deleted that starts behind what is left of it. -/
theorem caret_leaves_text :
    ∃ b, Buffer.make "ab".toList none (some (1, 2)) none .empty = .ok b ∧
      IsEditAll [deleteKey "ab".toList, deleteSelection] ∧
      ∃ m ∈ history (.fixed ⟨[], []⟩) b [deleteKey "ab".toList, deleteSelection],
        m.after.text = [] ∧ m.after.caret = 1 := by
  refine ⟨_, rfl, ⟨trivial, trivial, trivial⟩, ⟨_, _, _⟩, .tail _ (.head _), rfl, rfl⟩

end Step

end Abbrev
