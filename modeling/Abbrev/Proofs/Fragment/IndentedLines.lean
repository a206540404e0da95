import Abbrev.Proofs.Fragment.Indent
import Abbrev.Proofs.Fragment.WellFormed

/-!
# Indentation line by line

Indenting puts the pad before each line, and takes each marker along to where it was on its line.
Two indentations are one (`Fragment.indent_lines`). There are two exceptions: the first line gets a
pad only if that is asked for, and an empty last line never does, since nothing but a line break
stands before it.

All that is shown on texts, for `Text.padLines`. A marker follows, as it stands in front of what it
stood in front of, with the lines there padded: what is left of its own line has no pad in it
(`Text.takeWhile_padLines`), and as many line breaks as before are still to come
(`Text.count_padLines`).
-/

namespace Abbrev

namespace Text

variable {pad outer s t : Text}

/-! ## Padded lines -/

/-- Nothing is padded to nothing, and nothing else is. -/
theorem padLines_eq_nil_iff : padLines pad t = [] ↔ t = [] := by
  cases t with
  | nil => exact iff_of_true rfl rfl
  | cons c t =>
    rw [padLines]
    split <;> simp

/-- A pad without a line break brings no further lines. -/
theorem count_padLines (hpad : '\n' ∉ pad) (t : Text) :
    (padLines pad t).count '\n' = t.count '\n' := by
  induction t with
  | nil => rfl
  | cons c t ih =>
    rw [padLines]
    split
    · rw [List.cons_append, List.count_cons, List.count_cons, List.count_append,
        List.count_eq_zero.2 hpad, ih, Nat.zero_add]
    · rw [List.count_cons, List.count_cons, ih]

/-- Up to the first line break, there is no pad. -/
theorem takeWhile_padLines (pad t : Text) :
    (padLines pad t).takeWhile (· != '\n') = t.takeWhile (· != '\n') := by
  induction t with
  | nil => rfl
  | cons c t ih =>
    rw [padLines]
    by_cases hc : c = '\n'
    · subst hc
      split <;> rfl
    · rw [if_neg fun hbreak => hc hbreak.1]
      simp only [List.takeWhile_cons, bne_iff_ne, ne_eq, hc, not_false_eq_true, if_true, ih]

/-- Padded lines are padded again by a pad before the first one. -/
theorem padLines_padLines (hpad : '\n' ∉ pad) (t : Text) :
    padLines outer (padLines pad t) = padLines (outer ++ pad) t := by
  induction t with
  | nil => rfl
  | cons c t ih =>
    by_cases hbreak : c = '\n' ∧ t ≠ []
    · obtain ⟨rfl, hne⟩ := hbreak
      have hnext : pad ++ padLines pad t ≠ [] := fun hnil =>
        hne (padLines_eq_nil_iff.1 (List.append_eq_nil_iff.1 hnil).2)
      rw [padLines_break hne, padLines_break hne, List.cons_append, padLines_break hnext,
        padLines_append hpad, ih, List.cons_append, List.cons_append, List.append_assoc]
    · rw [padLines, if_neg hbreak, padLines, padLines, if_neg hbreak, ih, if_neg]
      rintro ⟨hc, hne⟩
      exact hbreak ⟨hc, fun hnil => hne (padLines_eq_nil_iff.2 hnil)⟩

/-- Only the empty text has a single piece with nothing in it. -/
theorem splitAt_eq_singleton_nil_iff {separator : Char} :
    splitAt separator t = [[]] ↔ t = [] := by
  fun_cases splitAt separator t with
  | case1 => exact iff_of_true rfl rfl
  | case2 rest =>
    refine iff_of_false (fun h => ?_) (List.cons_ne_nil _ _)
    exact splitAt_ne_nil _ rest (List.cons.inj h).2
  | case3 => exact iff_of_false (by simp) (List.cons_ne_nil _ _)
  | case4 => exact iff_of_false (by simp) (List.cons_ne_nil _ _)

/-- Padding pads the lines of a text but the first one, and but for an empty last one. -/
theorem splitAt_padLines (hpad : '\n' ∉ pad) (t : Text) :
    splitAt '\n' (padLines pad t) =
      (splitAt '\n' t).mapIdx fun i line =>
        if i = 0 ∨ line = [] ∧ i + 1 = (splitAt '\n' t).length then line else pad ++ line := by
  induction t with
  | nil => rfl
  | cons c t ih =>
    obtain ⟨first, more, ht⟩ := List.exists_cons_of_ne_nil (splitAt_ne_nil '\n' t)
    rw [ht, List.mapIdx_cons, if_pos (.inl rfl)] at ih
    by_cases hc : c = '\n'
    · subst hc
      have hsplit : splitAt '\n' ('\n' :: t) = [] :: first :: more := by
        rw [splitAt, if_pos rfl, ht]
      rw [hsplit]
      by_cases hnil : t = []
      · subst hnil
        obtain ⟨rfl, rfl⟩ := List.cons.inj ht
        rfl
      · obtain ⟨first', more', ht', hboth⟩ := exists_splitAt_append hpad (padLines pad t)
        obtain ⟨rfl, rfl⟩ := List.cons.inj (ht'.symm.trans ih)
        -- A first line behind a break is empty and the last one only if nothing is behind it.
        have hlast : ¬ (first' = [] ∧ more = []) := by
          rintro ⟨rfl, rfl⟩
          exact hnil (splitAt_eq_singleton_nil_iff.1 ht)
        rw [padLines_break hnil, List.cons_append, splitAt, if_pos rfl, hboth, List.mapIdx_cons,
          List.mapIdx_cons]
        simp [hlast]
    · have hsplit : splitAt '\n' (c :: t) = (c :: first) :: more := by
        rw [splitAt, if_neg hc, ht]
      rw [hsplit, padLines, if_neg fun hbreak => hc hbreak.1, splitAt, if_neg hc, ih,
        List.mapIdx_cons, if_pos (.inl rfl)]
      simp

/-! ## Offsets on their lines -/

/-- The number of the line on which an offset stands, counted from zero. -/
def lineNumber (t : Text) (offset : Int) : Nat :=
  (upTo offset t).count '\n'

/-- What stands behind an offset on its line. -/
def restOfLine (t : Text) (offset : Int) : Text :=
  (onFrom offset t).takeWhile (· != '\n')

/-- The line breaks of a text stand before an offset or behind it. -/
theorem lineNumber_add_count (t : Text) (offset : Int) :
    lineNumber t offset + (onFrom offset t).count '\n' = t.count '\n' := by
  unfold lineNumber upTo onFrom
  rw [← List.count_append, List.take_append_drop]

/-- What stands behind an offset is padded where the lines are padded. -/
theorem onFrom_paddedOffset (front pad t : Text) (offset : Int) :
    onFrom (paddedOffset front pad t offset) (front ++ padLines pad t) =
      padLines pad (onFrom offset t) := by
  have hsuffix : padLines pad (onFrom offset t) <:+ front ++ padLines pad t :=
    (padLines_onFrom_suffix offset t).trans (List.suffix_append _ _)
  have hle := hsuffix.length_le
  have hoffset : paddedOffset front pad t offset = (((front ++ padLines pad t).length -
      (padLines pad (onFrom offset t)).length : Nat) : Int) := by
    rw [paddedOffset]
    omega
  rw [hoffset, onFrom_natCast]
  exact (List.suffix_iff_eq_drop.1 hsuffix).symm

/-- An offset stays on its line where the lines are padded. -/
theorem lineNumber_paddedOffset {front : Text} (hfront : '\n' ∉ front) (hpad : '\n' ∉ pad)
    (t : Text) (offset : Int) :
    lineNumber (front ++ padLines pad t) (paddedOffset front pad t offset) =
      lineNumber t offset := by
  have hcount : (front ++ padLines pad t).count '\n' = t.count '\n' := by
    rw [List.count_append, List.count_eq_zero.2 hfront, Nat.zero_add, count_padLines hpad]
  -- As many line breaks are still to come, of as many in all.
  have hpadded := lineNumber_add_count (front ++ padLines pad t) (paddedOffset front pad t offset)
  have hplain := lineNumber_add_count t offset
  rw [onFrom_paddedOffset, count_padLines hpad, hcount] at hpadded
  omega

/-- An offset has the same rest of its line behind it where the lines are padded. -/
theorem restOfLine_paddedOffset (front pad t : Text) (offset : Int) :
    restOfLine (front ++ padLines pad t) (paddedOffset front pad t offset) =
      restOfLine t offset := by
  rw [restOfLine, restOfLine, onFrom_paddedOffset, takeWhile_padLines]

end Text

namespace Fragment

variable {f : Fragment} {front pad : Text}

/-- Fragments that are padded twice are padded once, with the later pads first. -/
theorem padded_padded (hfront : '\n' ∉ front) (hpad : '\n' ∉ pad) (before outer : Text)
    (f : Fragment) :
    (f.padded front pad).padded before outer = f.padded (before ++ front) (outer ++ pad) := by
  have htext : before ++ Text.padLines outer (front ++ Text.padLines pad f.text) =
      before ++ front ++ Text.padLines (outer ++ pad) f.text := by
    rw [Text.padLines_append hfront, Text.padLines_padLines hpad, List.append_assoc]
  unfold padded
  rw [htext, List.map_map, Fragment.mk.injEq]
  refine ⟨rfl, List.map_congr_left ?_⟩
  intro m _
  simp only [Function.comp_apply, Marker.mk.injEq, true_and]
  rw [Text.paddedOffset, Text.onFrom_paddedOffset, htext, Text.padLines_padLines hpad,
    Text.paddedOffset]

/-- The lines of a padded fragment. -/
theorem splitAt_padded (hfront : '\n' ∉ front) (hpad : '\n' ∉ pad) (f : Fragment) :
    Text.splitAt '\n' (f.padded front pad).text =
      (Text.splitAt '\n' f.text).mapIdx fun i line =>
        if i = 0 then front ++ line
        else if line = [] ∧ i + 1 = (Text.splitAt '\n' f.text).length then line
        else pad ++ line := by
  obtain ⟨first, more, hlines, hboth⟩ :=
    Text.exists_splitAt_append hfront (Text.padLines pad f.text)
  have hpadded := Text.splitAt_padLines hpad f.text
  rw [padded, hboth]
  rw [hlines] at hpadded
  generalize Text.splitAt '\n' f.text = lines at hpadded
  cases lines with
  | nil => cases hpadded
  | cons line rest =>
    rw [List.mapIdx_cons, if_pos (.inl rfl)] at hpadded
    obtain ⟨rfl, rfl⟩ := List.cons.inj hpadded
    rw [List.mapIdx_cons, if_pos rfl]
    simp

/-- Indenting respects lines and markers, and composes. Let the markers of a fragment be in order
and in range, and let there be no line break in the pad. Then indenting puts the pad before each
line of the fragment; but the first line stays as it is unless it is to be padded as well, and so
does an empty last line behind a line break. The markers keep their names and their order; each of
them stays on its line, in front of the same rest of the line; and they are in order and in range.
Indenting again, with any pad, is the same as indenting once with that pad before the first one. -/
theorem indent_lines (hrange : InRange f)
    (hsorted : f.markers.Pairwise fun m n => m.offset ≤ n.offset) (hpad : '\n' ∉ pad)
    (outer : Text) (firstLine : Bool) :
    let lines := Text.splitAt '\n' f.text
    let indented := f.indent pad firstLine
    Text.splitAt '\n' indented.text = lines.mapIdx (fun i line =>
        if (i = 0 ∧ firstLine = false) ∨ (i ≠ 0 ∧ i + 1 = lines.length ∧ line = []) then line
        else pad ++ line) ∧
      List.Forall₂ (fun m n => n.name = m.name ∧
          Text.lineNumber indented.text n.offset = Text.lineNumber f.text m.offset ∧
          Text.restOfLine indented.text n.offset = Text.restOfLine f.text m.offset)
        f.markers indented.markers ∧
      InRange indented ∧ (indented.markers.Pairwise fun m n => m.offset ≤ n.offset) ∧
      indented.indent outer firstLine = f.indent (outer ++ pad) firstLine := by
  intro lines indented
  have hfront : '\n' ∉ if firstLine then pad else [] := by
    split
    · exact hpad
    · exact List.not_mem_nil
  have hpadded : indented = f.padded (if firstLine then pad else []) pad :=
    indent_eq_padded hrange pad firstLine
  have hwell : WellFormed (fun _ => True) indented :=
    WellFormed.indent ⟨hrange, hsorted, fun _ _ => trivial⟩ pad firstLine
  refine ⟨?_, ?_, hwell.inRange, hwell.sorted, ?_⟩
  · rw [hpadded, splitAt_padded hfront hpad]
    congr 1
    funext i line
    by_cases hfirst : i = 0
    · cases firstLine <;> simp [hfirst]
    · simp only [hfirst, if_false, false_and, not_false_eq_true, true_and, false_or, ne_eq,
        and_comm]
      rfl
  · rw [hpadded]
    refine List.forall₂_map_right_iff.2 (List.forall₂_same.2 fun m _ => ⟨rfl, ?_, ?_⟩)
    · exact Text.lineNumber_paddedOffset hfront hpad f.text m.offset
    · exact Text.restOfLine_paddedOffset _ pad f.text m.offset
  · rw [indent_eq_padded hwell.inRange, hpadded, padded_padded hfront hpad,
      indent_eq_padded hrange]
    cases firstLine <;> rfl

/-- Four lines, the second and the last of them empty, with a marker on each of the first two and
one at the very end. -/
def sampleLines : Fragment :=
  ⟨"a\n\nb\n".toList, [⟨['x'], 0⟩, ⟨['y'], 2⟩, ⟨Marker.endName, 5⟩]⟩

/-- In the sample, the second line is nothing but the pad, with its marker behind that, and the last
one is still empty. -/
theorem indent_lines_sampleLines :
    InRange sampleLines ∧ (sampleLines.markers.Pairwise fun m n => m.offset ≤ n.offset) ∧
      '\n' ∉ [' ', ' '] ∧
      Text.splitAt '\n' (sampleLines.indent [' ', ' '] false).text =
        ["a", "  ", "  b", ""].map String.toList ∧
      (sampleLines.indent [' ', ' '] false).markers =
        [⟨['x'], 0⟩, ⟨['y'], 4⟩, ⟨Marker.endName, 9⟩] ∧
      (sampleLines.indent [' ', ' '] false).indent ['\t'] false =
        sampleLines.indent ['\t', ' ', ' '] false := by
  have hrange : InRange sampleLines := by
    unfold InRange
    decide
  have hsorted : sampleLines.markers.Pairwise fun m n => m.offset ≤ n.offset := by decide
  have hpad : '\n' ∉ [' ', ' '] := by decide
  obtain ⟨hlines, -, -, -, hagain⟩ := indent_lines hrange hsorted hpad ['\t'] false
  refine ⟨hrange, hsorted, hpad, hlines.trans (by decide), ?_, hagain⟩
  rw [indent_eq_padded hrange]
  decide

end Fragment

end Abbrev
