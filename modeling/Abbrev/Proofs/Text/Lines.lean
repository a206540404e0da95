import Abbrev.Text.Lines
import Mathlib.Data.List.DropRight

/-!
# Lines that are kept as they are

Wrapped text is cut into lines, the lines are trimmed, and some of them are joined again. A line
that has been through this once comes out of it unchanged. `Tidy` says what such a line looks like:
it has a character, none of its characters ends a line, and there are no blanks at its ends. The
lines of a text are tidy when they have been trimmed (`tidy_trim`), and are found again in the text
that tidy lines are joined to (`lines_join`).
-/

namespace Abbrev.Text

/-- No character of a text ends a line. -/
def Unbroken (t : Text) : Prop :=
  ∀ c ∈ t, isLineBreak c = false

instance (t : Text) : Decidable (Unbroken t) :=
  decidable_of_iff (t.all fun c => !isLineBreak c) (by simp [Unbroken])

/-- A text is unbroken if its first character and the others are. -/
theorem unbroken_cons {c : Char} {t : Text} :
    Unbroken (c :: t) ↔ isLineBreak c = false ∧ Unbroken t :=
  List.forall_mem_cons

/-- A line with something in it, no break, and no blank at either end. -/
structure Tidy (line : Text) : Prop where
  ne_nil : line ≠ []
  unbroken : Unbroken line
  trim_eq : trim line = line

/-! ## Trimming -/

/-- The blanks at the start are removed at once. -/
theorem trimLeft_trimLeft (t : Text) : trimLeft (trimLeft t) = trimLeft t :=
  List.dropWhile_idempotent isBlank t

/-- The blanks at the end are removed at once. -/
theorem trimRight_trimRight (t : Text) : trimRight (trimRight t) = trimRight t :=
  List.rdropWhile_idempotent isBlank t

/-- Removing blanks at the end leaves the beginning. -/
theorem trimRight_initial (t : Text) : trimRight t <+: t :=
  List.rdropWhile_prefix isBlank t

/-- Removing blanks at the end brings no blanks to the start. -/
theorem trimLeft_trim (t : Text) : trimLeft (trim t) = trim t := by
  have hleft := List.dropWhile_eq_self_iff.1 (trimLeft_trimLeft t)
  refine List.dropWhile_eq_self_iff.2 ?_
  intro hpos
  -- The first character is the one that `trimLeft` has left there.
  have hinitial : trim t <+: trimLeft t := trimRight_initial (trimLeft t)
  rw [hinitial.getElem hpos]
  exact hleft _

/-- The blanks at both ends are removed at once. -/
theorem trim_trim (t : Text) : trim (trim t) = trim t := by
  rw [trim, trimLeft_trim]
  exact trimRight_trimRight _

/-- Trimming adds no characters. -/
theorem mem_of_mem_trim {t : Text} {c : Char} (h : c ∈ trim t) : c ∈ t :=
  (List.dropWhile_sublist isBlank).subset ((trimRight_initial _).subset h)

/-- A text is trimmed to nothing exactly if it holds blanks only. -/
theorem trim_eq_nil_iff (t : Text) : trim t = [] ↔ isAllBlank t = true := by
  have hright : trim t = [] ↔ ∀ c ∈ trimLeft t, isBlank c = true := List.rdropWhile_eq_nil_iff
  rw [hright, isAllBlank, List.all_eq_true]
  constructor
  · -- A character was either taken from the start, as a blank, or is still there.
    intro h c hc
    rw [← List.takeWhile_append_dropWhile (p := isBlank) (l := t), List.mem_append] at hc
    rcases hc with hc | hc
    · exact List.mem_takeWhile_imp hc
    · exact h c hc
  · intro h c hc
    exact h c ((List.dropWhile_sublist isBlank).subset hc)

/-! ## Cutting and joining -/

/-- The lines of a text hold no breaks. -/
theorem unbroken_of_mem_lines {t line : Text} (h : line ∈ lines t) : Unbroken line := by
  fun_induction lines t generalizing line with
  | case1 => cases h
  | case2 rest ih =>
    rcases List.mem_cons.1 h with rfl | h
    · simp [Unbroken]
    · exact ih h
  | case3 c rest _ hbreak ih =>
    rcases List.mem_cons.1 h with rfl | h
    · simp [Unbroken]
    · exact ih h
  | case4 c rest _ hbreak hnil ih =>
    obtain rfl := List.mem_singleton.1 h
    simpa [Unbroken] using hbreak
  | case5 c rest _ hbreak first more hlines ih =>
    rw [hlines] at ih
    rcases List.mem_cons.1 h with rfl | h
    · have hfirst : Unbroken first := ih List.mem_cons_self
      exact unbroken_cons.2 ⟨by simpa using hbreak, hfirst⟩
    · exact ih (List.mem_cons_of_mem _ h)

/-- A tidy line holds more than blanks. -/
theorem Tidy.isAllBlank_eq_false {line : Text} (h : Tidy line) : isAllBlank line = false := by
  rw [← Bool.not_eq_true, ← trim_eq_nil_iff, h.trim_eq]
  exact h.ne_nil

/-- A line that holds more than blanks is tidy once it is trimmed. -/
theorem tidy_trim {t line : Text} (h : line ∈ nonBlankLines t) : Tidy (trim line) := by
  obtain ⟨hmem, hblank⟩ := List.mem_filter.1 h
  refine ⟨?_, ?_, trim_trim line⟩
  · rw [ne_eq, trim_eq_nil_iff]
    simpa using hblank
  · intro c hc
    exact unbroken_of_mem_lines hmem c (mem_of_mem_trim hc)

/-- A character that ends no line belongs to the first line. -/
theorem lines_cons {c : Char} (h : isLineBreak c = false) (rest : Text) :
    lines (c :: rest) =
      match lines rest with
      | [] => [[c]]
      | line :: more => (c :: line) :: more := by
  -- The rule for a return before a line feed comes first, and does not apply.
  have hreturn : c ≠ '\r' := by
    rintro rfl
    revert h
    decide
  rw [lines.eq_3 c rest (fun _ hc _ => hreturn hc), h]
  rfl

/-- Up to a line feed, characters that end no line are one line. -/
theorem lines_append_lineFeed {line : Text} (h : Unbroken line) (rest : Text) :
    lines (line ++ '\n' :: rest) = line :: lines rest := by
  induction line with
  | nil => rfl
  | cons c line ih =>
    obtain ⟨hc, hline⟩ := unbroken_cons.1 h
    rw [List.cons_append, lines_cons hc, ih hline]

/-- Characters that end no line belong to the first line of what follows, if there are any. -/
theorem lines_append {line : Text} (h : Unbroken line) (hne : line ≠ []) (rest : Text) :
    lines (line ++ rest) =
      match lines rest with
      | [] => [line]
      | first :: more => (line ++ first) :: more := by
  induction line with
  | nil => exact absurd rfl hne
  | cons c line ih =>
    obtain ⟨hc, hline⟩ := unbroken_cons.1 h
    rw [List.cons_append, lines_cons hc]
    by_cases hnil : line = []
    · rw [hnil]
      rfl
    · rw [ih hline hnil]
      cases lines rest <;> rfl

/-- Characters that end no line are one line, if there are any. -/
theorem lines_of_unbroken {line : Text} (h : Unbroken line) (hne : line ≠ []) :
    lines line = [line] := by
  have hlines := lines_append h hne []
  rwa [List.append_nil] at hlines

/-- Tidy lines are found again in the text that they are joined to. -/
theorem lines_join {parts : List Text} (h : ∀ part ∈ parts, Tidy part) :
    lines (join ['\n'] parts) = parts := by
  induction parts with
  | nil => rfl
  | cons part rest ih =>
    obtain ⟨hpart, hrest⟩ := List.forall_mem_cons.1 h
    cases rest with
    | nil =>
      rw [join_singleton]
      exact lines_of_unbroken hpart.unbroken hpart.ne_nil
    | cons next others =>
      rw [join_cons_cons, List.singleton_append, lines_append_lineFeed hpart.unbroken, ih hrest]

end Abbrev.Text
