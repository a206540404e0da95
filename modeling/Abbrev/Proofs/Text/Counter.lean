import Abbrev.Text.Counter

/-!
# What is left of a text when its counters are replaced

Only dollars stand for counters, so a text without a dollar is the same in every copy. A text
without a backslash has no dollar in any copy, as long as the numbers are not negative: what is new
in the copy are digits, and all else stays in its place.
-/

namespace Abbrev.Text

/-- A character that is no dollar, with no dollar behind it, stays as it is. -/
theorem replaceCounterAfter_cons {number : Int} {c : Char} {rest : Text} (hc : c ≠ '$')
    (hrest : '$' ∉ rest) :
    replaceCounterAfter number 0 (c :: rest) = c :: replaceCounterAfter number 0 rest := by
  rw [replaceCounterAfter]
  · rfl
  · intro h
    exact hc h
  · intro other _ htail
    exact hrest (htail ▸ List.mem_cons_self)

/-- A text without a dollar has no counter. -/
theorem replaceCounter_of_not_mem {t : Text} (h : '$' ∉ t) (number : Int) :
    replaceCounter number t = t := by
  unfold replaceCounter
  induction t with
  | nil => rfl
  | cons c rest ih =>
    obtain ⟨hc, hrest⟩ : c ≠ '$' ∧ '$' ∉ rest := by
      rw [List.mem_cons, not_or] at h
      exact ⟨Ne.symm h.1, h.2⟩
    rw [replaceCounterAfter_cons hc hrest, ih hrest]

/-- The numeral of a number that is not negative consists of digits. -/
theorem isDigit_of_mem_ofInt {number : Int} (h : 0 ≤ number) {c : Char} (hc : c ∈ ofInt number) :
    c.isDigit = true := by
  obtain ⟨n, rfl⟩ := Int.eq_ofNat_of_zero_le h
  exact Nat.isDigit_of_mem_toDigits (by decide) (by decide) hc

/-- Padding adds nothing but zeros. -/
theorem mem_zeroPad {width : Nat} {numeral : Text} {c : Char} (h : c ∈ zeroPad width numeral) :
    c = '0' ∨ c ∈ numeral := by
  unfold zeroPad at h
  split at h <;> grind

/-- A run of dollars stands for digits, if the number is not negative. -/
theorem isDigit_of_mem_counterNumeral {number : Int} (h : 0 ≤ number) {width : Nat} {c : Char}
    (hc : c ∈ counterNumeral number width) : c.isDigit = true := by
  cases width with
  | zero => exact absurd hc List.not_mem_nil
  | succ others =>
    obtain rfl | hc := mem_zeroPad hc
    · rfl
    · exact isDigit_of_mem_ofInt h hc

/-- A character that is no dollar and no backslash ends a run of dollars and stays as it is. -/
theorem replaceCounterAfter_cons_of_ne {number : Int} {run : Nat} {c : Char} {rest : Text}
    (hdollar : c ≠ '$') (hbackslash : c ≠ '\\') :
    replaceCounterAfter number run (c :: rest) =
      counterNumeral number run ++ c :: replaceCounterAfter number 0 rest := by
  rw [replaceCounterAfter]
  · exact hdollar
  · intro _ h _
    exact hbackslash h

/-- Where no backslash takes a dollar as it is, all dollars become digits: what is left of the text
is its other characters. -/
theorem mem_replaceCounterAfter {number : Int} (h : 0 ≤ number) {t : Text} (ht : '\\' ∉ t)
    {run : Nat} {c : Char} (hc : c ∈ replaceCounterAfter number run t) :
    c.isDigit = true ∨ (c ∈ t ∧ c ≠ '$') := by
  induction t generalizing run with
  | nil => exact .inl (isDigit_of_mem_counterNumeral h hc)
  | cons first rest ih =>
    obtain ⟨hfirst, hrest⟩ : first ≠ '\\' ∧ '\\' ∉ rest := by
      rw [List.mem_cons, not_or] at ht
      exact ⟨Ne.symm ht.1, ht.2⟩
    have hback (hc : c.isDigit = true ∨ (c ∈ rest ∧ c ≠ '$')) :
        c.isDigit = true ∨ (c ∈ first :: rest ∧ c ≠ '$') :=
      hc.imp_right fun hmem => ⟨List.mem_cons_of_mem first hmem.1, hmem.2⟩
    by_cases hdollar : first = '$'
    · subst hdollar
      exact hback (ih hrest hc)
    · rw [replaceCounterAfter_cons_of_ne hdollar hfirst, List.mem_append, List.mem_cons] at hc
      obtain hc | rfl | hc := hc
      · exact .inl (isDigit_of_mem_counterNumeral h hc)
      · exact .inr ⟨List.mem_cons_self, hdollar⟩
      · exact hback (ih hrest hc)

/-- No dollar is left in a text that has no backslash. -/
theorem dollar_not_mem_replaceCounter {number : Int} (h : 0 ≤ number) {t : Text} (ht : '\\' ∉ t) :
    '$' ∉ replaceCounter number t := by
  intro hdollar
  obtain hdigit | ⟨-, hne⟩ := mem_replaceCounterAfter h ht hdollar
  · exact absurd hdigit (by decide)
  · exact hne rfl

end Abbrev.Text
