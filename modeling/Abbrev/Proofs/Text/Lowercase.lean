import Abbrev.Text.Lowercase

/-!
# Lower case and ASCII

Whatever a text is written in, its lower-case form has no ASCII capital (`isUpper_of_mem_lower`),
and no line break or quote that the text has not (`mem_of_mem_lower`). The table of characters
beyond ASCII has images within it, such as `k` for the Kelvin sign, but each of them lies behind
`Z`. A text in ASCII is lower-cased character by character (`lower_of_ascii`).
-/

namespace Abbrev.Text

/-- The lower-case form of an ASCII letter is no capital. -/
theorem isUpper_toLower (c : Char) : c.toLower.isUpper = false := by
  unfold Char.toLower Char.isUpper
  rw [decide_eq_false_iff_not]
  split
  · next h =>
    obtain ⟨hge, hle⟩ := h
    simp only [UInt32.le_iff_toNat_le, ge_iff_le] at hge hle ⊢
    simp only [UInt32.toNat_add]
    have hz : 'Z'.val.toNat = 90 := rfl
    have ha : 'A'.val.toNat = 65 := rfl
    have hshift : ('a'.val - 'A'.val).toNat = 32 := rfl
    omega
  · next h => exact h

/-- A code point behind `Z` is no capital. -/
theorem isUpper_ofNat {n : Nat} (h : 'Z'.toNat < n) : (Char.ofNat n).isUpper = false := by
  unfold Char.ofNat
  by_cases hvalid : n.isValidChar
  · rw [dif_pos hvalid]
    unfold Char.isUpper
    rw [decide_eq_false_iff_not]
    rintro ⟨-, hle⟩
    have hn : (Char.ofNatAux n hvalid).val.toNat = n := rfl
    rw [UInt32.le_iff_toNat_le, hn] at hle
    exact Nat.not_lt.2 hle h
  · rw [dif_neg hvalid]
    decide

/-- A character beyond ASCII is no capital. -/
theorem isUpper_of_le {c : Char} (h : 128 ≤ c.toNat) : c.isUpper = false := by
  unfold Char.isUpper
  rw [decide_eq_false_iff_not]
  rintro ⟨-, hle⟩
  rw [UInt32.le_iff_toNat_le] at hle
  have hz : 'Z'.val.toNat = 90 := rfl
  have hc : c.val.toNat = c.toNat := rfl
  omega

/-- A code point behind `Z` is no character before `A`. -/
theorem ofNat_ne_of_lt {n : Nat} (h : 'Z'.toNat < n) {d : Char} (hpos : 0 < d.toNat)
    (hlt : d.toNat < 'A'.toNat) : Char.ofNat n ≠ d := by
  rintro rfl
  by_cases hvalid : n.isValidChar
  · rw [Char.ofNat, dif_pos hvalid] at hlt
    have hn : (Char.ofNatAux n hvalid).toNat = n := rfl
    have hletters : 'A'.toNat < 'Z'.toNat := by decide
    omega
  · rw [Char.ofNat, dif_neg hvalid] at hpos
    exact absurd hpos (by decide)

/-- The lower-case form of an ASCII character stands before `A` only if it is the character. -/
theorem toLower_eq_self_of_lt {c : Char} (hascii : c.toNat < 128)
    (h : c.toLower.toNat < 'A'.toNat) : c.toLower = c := by
  have hall : ∀ n < 128, (Char.ofNat n).toLower.toNat < 'A'.toNat →
      (Char.ofNat n).toLower = Char.ofNat n := by decide
  have hc := hall c.toNat hascii
  rw [Char.ofNat_toNat] at hc
  exact hc h

/-- What can stand in a text in lower case for a character of the text: in ASCII its own form,
beyond ASCII the character itself, or else a code point behind `Z`. -/
def StandsFor (d c : Char) : Prop :=
  (c.toNat < 128 ∧ d = c.toLower) ∨ (128 ≤ c.toNat ∧ d = c) ∨
    ∃ n, 'Z'.toNat < n ∧ d = Char.ofNat n

/-- The form of one character stands for it. -/
theorem standsFor_of_mem_lowerChar {c d : Char} (h : d ∈ lowerChar c) : StandsFor d c := by
  unfold lowerChar at h
  split at h
  · next hascii => exact .inl ⟨hascii, List.mem_singleton.1 h⟩
  · next hascii =>
    split at h
    · simp only [List.mem_cons, List.not_mem_nil, or_false] at h
      rcases h with rfl | rfl
      · exact .inr (.inr ⟨'i'.toNat, by decide, by decide⟩)
      · exact .inr (.inr ⟨0x307, by decide, by decide⟩)
    · split at h
      · next run hrun =>
        have himages : ∀ run ∈ lowerRuns, 'Z'.toNat < run.2.2.2 := by decide +kernel
        have himage := himages run (List.mem_of_find?_eq_some hrun)
        exact .inr (.inr ⟨_, by omega, List.mem_singleton.1 h⟩)
      · exact .inr (.inl ⟨by omega, List.mem_singleton.1 h⟩)

/-- What is in a text in lower case stands for a character of the text, whatever stands before
it. -/
theorem exists_standsFor_of_mem_lowerAfter {before t : List Char} {d : Char}
    (h : d ∈ lowerAfter before t) : ∃ c ∈ t, StandsFor d c := by
  induction t generalizing before with
  | nil => cases h
  | cons c rest ih =>
    rw [lowerAfter] at h
    rcases List.mem_append.1 h with h | h
    · refine ⟨c, List.mem_cons_self, ?_⟩
      split at h
      · -- Both forms of a sigma lie behind `Z`.
        obtain rfl := List.mem_singleton.1 h
        split
        · exact .inr (.inr ⟨0x3c2, by decide, by decide⟩)
        · exact .inr (.inr ⟨0x3c3, by decide, by decide⟩)
      · exact standsFor_of_mem_lowerChar h
    · obtain ⟨e, he, hstands⟩ := ih h
      exact ⟨e, List.mem_cons_of_mem c he, hstands⟩

/-- A text in lower case has no capital. -/
theorem isUpper_of_mem_lower {t : List Char} {c : Char} (h : c ∈ lower t) : c.isUpper = false := by
  obtain ⟨e, -, ⟨-, rfl⟩ | ⟨hascii, rfl⟩ | ⟨n, hn, rfl⟩⟩ := exists_standsFor_of_mem_lowerAfter h
  · exact isUpper_toLower e
  · exact isUpper_of_le hascii
  · exact isUpper_ofNat hn

/-- What stands before `A` in a text in lower case stands in the text itself. -/
theorem mem_of_mem_lower {t : List Char} {d : Char} (hpos : 0 < d.toNat)
    (hlt : d.toNat < 'A'.toNat) (h : d ∈ lower t) : d ∈ t := by
  obtain ⟨e, he, ⟨hascii, rfl⟩ | ⟨-, rfl⟩ | ⟨n, hn, hform⟩⟩ := exists_standsFor_of_mem_lowerAfter h
  · rwa [toLower_eq_self_of_lt hascii hlt]
  · exact he
  · exact absurd hform.symm (ofNat_ne_of_lt hn hpos hlt)

/-- In ASCII each character has its own form in lower case, wherever it stands. -/
theorem lower_of_ascii {t : List Char} (h : ∀ c ∈ t, c.toNat < 128) :
    lower t = t.map Char.toLower := by
  have hafter (before : List Char) : lowerAfter before t = t.map Char.toLower := by
    induction t generalizing before with
    | nil => rfl
    | cons c rest ih =>
      obtain ⟨hc, hrest⟩ := List.forall_mem_cons.1 h
      have hsigma : ¬ c.toNat = 0x3a3 := by omega
      rw [lowerAfter, if_neg hsigma, lowerChar, if_pos hc, ih hrest, List.singleton_append,
        List.map_cons]
  exact hafter []

end Abbrev.Text
