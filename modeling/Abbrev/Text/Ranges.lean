/-!
# Ranges of characters

A property of characters is kept as a table of closed ranges of code points.
-/

namespace Abbrev.Text

/-- Whether the code point `n` lies in one of the closed ranges. -/
def inRanges (ranges : List (Nat × Nat)) (n : Nat) : Bool :=
  ranges.any fun r => r.1 ≤ n && n ≤ r.2

/-- What all characters of a table have in common can be checked in the table. -/
theorem of_inRanges {ranges : List (Nat × Nat)} {c : Char} {p : Char → Bool}
    (hc : inRanges ranges c.toNat = true)
    (h : ∀ r ∈ ranges, ∀ i < r.2 - r.1 + 1, p (Char.ofNat (r.1 + i)) = true) : p c = true := by
  obtain ⟨r, hr, hrange⟩ := List.any_eq_true.1 hc
  simp only [Bool.and_eq_true, decide_eq_true_eq] at hrange
  have hat := h r hr (c.toNat - r.1) (by omega)
  rwa [Nat.add_sub_cancel' hrange.1, Char.ofNat_toNat] at hat

end Abbrev.Text
