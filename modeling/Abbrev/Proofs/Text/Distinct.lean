import Abbrev.Text.Basic

/-!
# Sorted texts without repetition

`List.eraseReps` keeps one of neighbours that are alike, so it keeps every element
(`mem_eraseReps`), and more than one is left exactly if the elements are not all alike
(`one_lt_length_eraseReps`). Sorting does not change what is in a list, so the same holds of
`sortDistinct`.
-/

namespace Abbrev.Text

section Repetition

variable {α : Type}

/-- What has been kept already stands before what is kept of the rest. -/
theorem eraseRepsBy_loop (same : α → α → Bool) (a : α) (l kept : List α) :
    List.eraseRepsBy.loop same a l kept = kept.reverse ++ List.eraseRepsBy.loop same a l [] := by
  induction l generalizing a kept with
  | nil => simp [List.eraseRepsBy.loop]
  | cons b l ih =>
    unfold List.eraseRepsBy.loop
    cases same a b with
    | true => exact ih a kept
    | false =>
      dsimp only
      rw [ih b (a :: kept), ih b [a]]
      simp

/-- Of two neighbours that are alike, the first one stays. -/
theorem eraseReps_cons_cons [BEq α] (a b : α) (l : List α) :
    (a :: b :: l).eraseReps =
      if a == b then (a :: l).eraseReps else a :: (b :: l).eraseReps := by
  unfold List.eraseReps List.eraseRepsBy
  dsimp only
  rw [List.eraseRepsBy.loop]
  split
  · next h => rw [if_pos h]
  · next h =>
    rw [if_neg (by simp [h]), eraseRepsBy_loop]
    rfl

/-- What is kept stands in the same order as before. -/
theorem eraseReps_sublist [BEq α] (l : List α) : l.eraseReps.Sublist l := by
  cases l with
  | nil => exact List.Sublist.refl _
  | cons a l =>
    induction l generalizing a with
    | nil => exact List.Sublist.refl _
    | cons b l ih =>
      rw [eraseReps_cons_cons]
      split
      · exact (ih a).trans ((List.sublist_cons_self b l).cons_cons a)
      · exact (ih b).cons_cons a

variable [BEq α] [LawfulBEq α] {l : List α}

/-- Nothing is lost but repetitions. -/
@[simp] theorem mem_eraseReps {x : α} : x ∈ l.eraseReps ↔ x ∈ l := by
  cases l with
  | nil => rfl
  | cons a l =>
    induction l generalizing a with
    | nil => rfl
    | cons b l ih =>
      rw [eraseReps_cons_cons]
      split
      · next h =>
        obtain rfl := eq_of_beq h
        simp [ih]
      · rw [List.mem_cons, ih]
        exact List.mem_cons.symm

/-- More than one is left exactly if there are two that are not alike. -/
theorem one_lt_length_eraseReps : 1 < l.eraseReps.length ↔ ∃ x ∈ l, ∃ y ∈ l, x ≠ y := by
  cases l with
  | nil => simp [List.eraseReps, List.eraseRepsBy]
  | cons a l =>
    induction l generalizing a with
    | nil => simp [List.eraseReps, List.eraseRepsBy, List.eraseRepsBy.loop]
    | cons b l ih =>
      rw [eraseReps_cons_cons]
      split
      · next h =>
        obtain rfl := eq_of_beq h
        simp [ih]
      · next h =>
        -- `a` stays, and so does something for `b`.
        have hne : a ≠ b := fun hab => h (beq_of_eq hab)
        have hb : b ∈ (b :: l).eraseReps := mem_eraseReps.2 List.mem_cons_self
        have hpos := List.length_pos_of_mem hb
        refine iff_of_true (by rw [List.length_cons]; omega) ⟨a, List.mem_cons_self, b, ?_, hne⟩
        exact List.mem_cons_of_mem _ List.mem_cons_self

end Repetition

/-- Sorting keeps every text. -/
@[simp] theorem mem_sortDistinct {t : Text} {ts : List Text} : t ∈ sortDistinct ts ↔ t ∈ ts := by
  rw [sortDistinct, mem_eraseReps, List.mem_mergeSort]

/-- There is more than one text exactly if two texts differ. -/
theorem one_lt_length_sortDistinct {ts : List Text} :
    1 < (sortDistinct ts).length ↔ ∃ t ∈ ts, ∃ u ∈ ts, t ≠ u := by
  rw [sortDistinct, one_lt_length_eraseReps]
  simp only [List.mem_mergeSort]

end Abbrev.Text
