import Abbrev.Text.Numeral
import Mathlib.Data.List.Induction
import Mathlib.Data.Nat.Digits.Defs

/-!
# Reading runs of digits

A text that consists of digits has no margins, no sign and no underscores, so what is left of
reading an integer is to add up the digits (`readInt?_of_digits`). That succeeds if all of them are
decimal digits (`isSome_readInt?_iff`), and not if one is a digit of another shape, such as a
superscript. The number is the one that the digits denote by their places
(`readInt?_of_decimal`), and it is read unless there are too many of them
(`overlong?_of_digits`). Decimal numerals are read back, with any number of zeros in front
(`readInt?_padded`).
-/

namespace Abbrev.Text

variable {c : Char} {t : Text}

/-- The decimal digits of ASCII have the values that they show. -/
theorem decimalValue?_of_isDigit (h : c.isDigit = true) :
    decimalValue? c = some (c.toNat - '0'.toNat) := by
  have hrange : 0x30 ≤ c.toNat ∧ c.toNat < 0x30 + 10 := by
    simp only [Char.isDigit, Bool.and_eq_true, decide_eq_true_eq, UInt32.le_iff_toNat_le] at h
    exact ⟨h.1, Nat.lt_succ_of_le h.2⟩
  -- The digits of ASCII are the first ones of the table.
  have hzeros : zeros = 0x30 :: zeros.tail := rfl
  have hfound : (decide (0x30 ≤ c.toNat) && decide (c.toNat < 0x30 + 10)) = true := by
    simpa using hrange
  rw [decimalValue?, hzeros, List.find?_cons, hfound]
  rfl

/-- A digit of ASCII is a digit. -/
theorem isDigit_of_ascii (h : c.isDigit = true) : isDigit c = true := by
  rw [isDigit, isDecimal, decimalValue?_of_isDigit h]
  rfl

/-- No digit is a blank. -/
theorem isNumeralMargin_of_isDigit (h : isDigit c = true) : isNumeralMargin c = false := by
  cases hblank : isBlank c with
  | false => rw [isNumeralMargin, hblank, Bool.false_and]
  | true =>
    have hnot := of_inRanges (p := fun c => !isDigit c) hblank (by decide)
    rw [h] at hnot
    cases hnot

/-- A text of digits has no margins. -/
theorem withoutMargins_of_digits (h : ∀ c ∈ t, isDigit c = true) : withoutMargins t = t := by
  have htrim {s : Text} (hs : ∀ c ∈ s, isDigit c = true) : s.dropWhile isNumeralMargin = s := by
    cases s with
    | nil => rfl
    | cons c s =>
      have hc := isNumeralMargin_of_isDigit (hs c List.mem_cons_self)
      exact List.dropWhile_cons_of_neg (by simp [hc])
  rw [withoutMargins, htrim h, htrim (fun c hc => h c (List.mem_reverse.1 hc)),
    List.reverse_reverse]

/-- A text of digits is read without margins and sign. -/
theorem readInt?_of_digits (h : ∀ c ∈ t, isDigit c = true) :
    readInt? t = (digitsValue? 0 false t).map Int.ofNat := by
  unfold readInt?
  rw [withoutMargins_of_digits h]
  split
  · exact absurd (h '-' List.mem_cons_self) (by decide)
  · exact absurd (h '+' List.mem_cons_self) (by decide)
  · rfl

/-- Digits have a value if all of them are decimal digits, and if there are any. -/
theorem isSome_digitsValue?_iff (h : ∀ c ∈ t, isDigit c = true) (value : Nat) (afterDigit : Bool) :
    (digitsValue? value afterDigit t).isSome = true ↔
      (∀ c ∈ t, isDecimal c = true) ∧ (t ≠ [] ∨ afterDigit = true) := by
  induction t generalizing value afterDigit with
  | nil => cases afterDigit <;> simp [digitsValue?]
  | cons c t ih =>
    obtain ⟨hc, ht⟩ := List.forall_mem_cons.1 h
    rw [digitsValue?]
    split
    · next d hd =>
      have hdecimal : isDecimal c = true := by rw [isDecimal, hd]; rfl
      rw [ih ht]
      simp [hdecimal]
    · next hnone =>
      have hdecimal : isDecimal c = false := by rw [isDecimal, hnone]; rfl
      have hne : c ≠ '_' := by
        rintro rfl
        exact absurd hc (by decide)
      simp [hne, hdecimal]

/-- A text of digits denotes an integer if all of them are decimal digits. -/
theorem isSome_readInt?_iff (h : ∀ c ∈ t, isDigit c = true) :
    (readInt? t).isSome = true ↔ t ≠ [] ∧ ∀ c ∈ t, isDecimal c = true := by
  rw [readInt?_of_digits h, Option.isSome_map, isSome_digitsValue?_iff h]
  simp [and_comm]

/-! ## The number that digits denote -/

/-- The number that digits denote by their places, where `value` is what a digit is worth: the last
one counts once, and each one before it ten times as much as the next. -/
def positional (value : Char → Nat) (digits : Text) : Nat :=
  Nat.ofDigits 10 (digits.reverse.map value)

/-- The number that digits of ASCII denote. -/
def decimal (digits : Text) : Nat :=
  positional (fun digit => digit.toNat - '0'.toNat) digits

/-- One more digit makes those before it worth ten times as much. -/
theorem positional_concat (value : Char → Nat) (digits : Text) (c : Char) :
    positional value (digits ++ [c]) = 10 * positional value digits + value c := by
  unfold positional
  rw [List.reverse_append, List.reverse_singleton, List.singleton_append, List.map_cons,
    Nat.ofDigits_cons, Nat.add_comm]

/-- Zeros in front do not change the number. -/
theorem positional_zeros_append {value : Char → Nat} {zeros : Text} (h : ∀ c ∈ zeros, value c = 0)
    (digits : Text) : positional value (zeros ++ digits) = positional value digits := by
  have hzeros : positional value zeros = 0 := by
    induction zeros using List.reverseRecOn with
    | nil => rfl
    | append_singleton zeros c ih =>
      obtain ⟨hzeros, hc⟩ := List.forall_mem_append.1 h
      rw [positional_concat, ih hzeros, hc c List.mem_cons_self]
  induction digits using List.reverseRecOn with
  | nil => rw [List.append_nil, hzeros]; rfl
  | append_singleton digits c ih =>
    rw [← List.append_assoc, positional_concat, positional_concat, ih]

/-- Digits that are added up from the first one on come to the number that they denote. -/
theorem foldl_eq_positional (value : Char → Nat) (digits : Text) :
    digits.foldl (fun n c => 10 * n + value c) 0 = positional value digits := by
  induction digits using List.reverseRecOn with
  | nil => rfl
  | append_singleton digits c ih =>
    rw [List.foldl_append, ih, positional_concat]
    rfl

/-- Where all digits are decimal, they are added up. -/
theorem digitsValue?_eq_foldl {digit : Char → Nat} (h : ∀ c ∈ t, decimalValue? c = some (digit c))
    (value : Nat) {afterDigit : Bool} (hsome : t ≠ [] ∨ afterDigit = true) :
    digitsValue? value afterDigit t = some (t.foldl (fun n c => 10 * n + digit c) value) := by
  induction t generalizing value afterDigit with
  | nil => exact if_pos (hsome.resolve_left (not_not_intro rfl))
  | cons c t ih =>
    obtain ⟨hc, ht⟩ := List.forall_mem_cons.1 h
    rw [digitsValue?, hc]
    exact ih ht _ (.inr rfl)

/-- What a character is worth as a decimal digit. -/
def worth (c : Char) : Nat :=
  (decimalValue? c).getD 0

/-- A decimal digit has the value that it is worth. -/
theorem decimalValue?_of_isDecimal (h : isDecimal c = true) : decimalValue? c = some (worth c) :=
  (Option.some_get h).symm.trans (congrArg some (Option.get_eq_getD _))

/-- A text of decimal digits is read as the number that they denote. -/
theorem readInt?_of_decimal (hne : t ≠ []) (h : ∀ c ∈ t, isDecimal c = true) :
    readInt? t = some (positional worth t : Int) := by
  have hdigits : ∀ c ∈ t, isDigit c = true := by
    intro c hc
    rw [isDigit, h c hc, Bool.true_or]
  rw [readInt?_of_digits hdigits,
    digitsValue?_eq_foldl (fun c hc => decimalValue?_of_isDecimal (h c hc)) 0 (.inl hne),
    foldl_eq_positional]
  rfl

/-! ## Too many digits -/

/-- Behind a digit, the decimal digits at the front of a text of digits are counted. -/
theorem leadingDigits?_of_digits (h : ∀ c ∈ t, isDigit c = true) (count : Nat) :
    leadingDigits? count true t = some (count + (t.takeWhile isDecimal).length) := by
  induction t generalizing count with
  | nil => rfl
  | cons c t ih =>
    obtain ⟨hc, ht⟩ := List.forall_mem_cons.1 h
    rw [leadingDigits?]
    cases hdecimal : isDecimal c with
    | true =>
      rw [if_pos rfl, ih ht, List.takeWhile_cons_of_pos hdecimal, List.length_cons,
        Nat.add_assoc, Nat.add_comm 1]
    | false =>
      have hne : c ≠ '_' := by
        rintro rfl
        exact absurd hc (by decide)
      rw [List.takeWhile_cons_of_neg (by simp [hdecimal])]
      simp [hne]

/-- At the start of a text of digits they are counted as well, if there are any. -/
theorem leadingDigits?_start (h : ∀ c ∈ t, isDigit c = true) :
    leadingDigits? 0 false t =
      if t.takeWhile isDecimal = [] then none else some (t.takeWhile isDecimal).length := by
  cases t with
  | nil => rfl
  | cons c t =>
    rw [leadingDigits?]
    cases hdecimal : isDecimal c with
    | true =>
      rw [if_pos rfl, leadingDigits?_of_digits (List.forall_mem_cons.1 h).2,
        List.takeWhile_cons_of_pos hdecimal, List.length_cons, Nat.add_comm]
      rfl
    | false =>
      rw [List.takeWhile_cons_of_neg (by simp [hdecimal])]
      rfl

/-- A text of digits is overlong if it begins with too many decimal ones. -/
theorem isSome_overlong?_iff (h : ∀ c ∈ t, isDigit c = true) :
    (overlong? t).isSome = true ↔ SizeError.digitLimit < (t.takeWhile isDecimal).length := by
  have hunsigned : unsigned t = t := by
    unfold unsigned
    split
    · exact absurd (h '-' List.mem_cons_self) (by decide)
    · exact absurd (h '+' List.mem_cons_self) (by decide)
    · rfl
  rw [overlong?, withoutMargins_of_digits h, hunsigned, leadingDigits?_start h]
  by_cases hnil : t.takeWhile isDecimal = []
  · simp [hnil]
  · rw [if_neg hnil]
    dsimp only
    split <;> simp [*]

/-- The decimal numeral of a number denotes it, with any zeros in front. -/
theorem readInt?_padded (zeros n : Nat) :
    readInt? (List.replicate zeros '0' ++ Nat.toDigits 10 n) = some (n : Int) := by
  have hascii : ∀ c ∈ List.replicate zeros '0' ++ Nat.toDigits 10 n, c.isDigit = true := by
    refine List.forall_mem_append.2 ⟨fun c hc => ?_, fun c hc => ?_⟩
    · rw [List.eq_of_mem_replicate hc]
      rfl
    · exact Nat.isDigit_of_mem_toDigits (by decide) (by decide) hc
  have hne : List.replicate zeros '0' ++ Nat.toDigits 10 n ≠ [] :=
    List.append_ne_nil_of_right_ne_nil _ Nat.toDigits_ne_nil
  have hvalue : Nat.ofDigitChars 10 (List.replicate zeros '0' ++ Nat.toDigits 10 n) 0 = n := by
    rw [Nat.ofDigitChars_append, Nat.ofDigitChars_replicate_zero, Nat.mul_zero,
      Nat.ofDigitChars_ten_toDigits]
  rw [readInt?_of_digits fun c hc => isDigit_of_ascii (hascii c hc),
    digitsValue?_eq_foldl (fun c hc => decimalValue?_of_isDigit (hascii c hc)) 0 (.inl hne)]
  exact congrArg (fun value => some (Int.ofNat value)) hvalue

end Abbrev.Text
