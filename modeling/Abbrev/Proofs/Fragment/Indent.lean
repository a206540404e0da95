import Abbrev.Proofs.Fragment.Rewriting
import Abbrev.Proofs.Text.TidyLines

/-!
# The text of an indented fragment

Indenting pads the line breaks of a fragment piece by piece, between its markers, and then takes the
pad away again that stands behind a line break at the end. What comes of it is said here at once:
each line break has the pad behind it, but for one that ends the text (`Text.padLines`), and each
marker stands in front of what it stood in front of, with these lines padded
(`Fragment.indent_eq_padded`).

A marker is thus told by what follows it and not by what comes before it. That leaves nothing to be
said about the pad that is taken away, not even for the markers that stand behind it.

If each line of the text has a break at its end, there is a pad before each line
(`Fragment.text_indent_ofLines`).
-/

namespace Abbrev

namespace Text

variable {t : Text}

/-- A replacement takes a character away that what it puts in has not, and it brings no character
that neither the text nor what it puts in has. -/
theorem notMem_replaceChar {c old : Char} {new : Text} (hnew : c ∉ new) (h : c = old ∨ c ∉ t) :
    c ∉ replaceChar old new t := by
  unfold replaceChar
  rw [List.mem_flatMap]
  rintro ⟨d, hd, hmem⟩
  split at hmem
  · exact hnew hmem
  · next hother =>
    obtain rfl := List.mem_singleton.1 hmem
    exact h.elim hother fun hc => hc hd

/-- Lines one after the other, each with a line break at its end. -/
def ofLines (lines : List Text) : Text :=
  lines.flatMap fun line => line ++ ['\n']

/-- One more line before others. -/
@[simp] theorem ofLines_cons (line : Text) (lines : List Text) :
    ofLines (line :: lines) = line ++ '\n' :: ofLines lines := by
  rw [ofLines, List.flatMap_cons, List.append_assoc]
  rfl

/-- There is always a piece. -/
theorem splitAt_ne_nil (separator : Char) (t : Text) : splitAt separator t ≠ [] := by
  fun_cases splitAt separator t with
  | case1 => exact List.cons_ne_nil _ _
  | case2 => exact List.cons_ne_nil _ _
  | case3 => exact List.cons_ne_nil _ _
  | case4 => exact List.cons_ne_nil _ _

/-- Without the separator, what stands before a text is part of its first piece. -/
theorem exists_splitAt_append {separator : Char} {s : Text} (h : separator ∉ s) (t : Text) :
    ∃ first more, splitAt separator t = first :: more ∧
      splitAt separator (s ++ t) = (s ++ first) :: more := by
  induction s with
  | nil =>
    cases hsplit : splitAt separator t with
    | nil => exact absurd hsplit (splitAt_ne_nil separator t)
    | cons first more => exact ⟨first, more, rfl, hsplit⟩
  | cons c s ih =>
    obtain ⟨hc, hs⟩ := not_or.1 (mt List.mem_cons.2 h)
    obtain ⟨first, more, ht, hboth⟩ := ih hs
    refine ⟨first, more, ht, ?_⟩
    rw [List.cons_append, splitAt, if_neg (Ne.symm hc), hboth]
    rfl

/-- A text up to the first separator is its first piece. -/
theorem splitAt_append {separator : Char} {s : Text} (h : separator ∉ s) (t : Text) :
    splitAt separator (s ++ separator :: t) = s :: splitAt separator t := by
  induction s with
  | nil => rw [List.nil_append, splitAt, if_pos rfl]
  | cons c s ih =>
    obtain ⟨hc, hs⟩ := not_or.1 (mt List.mem_cons.2 h)
    rw [List.cons_append, splitAt, if_neg (Ne.symm hc), ih hs]

/-- Lines are what a text of lines is cut into. Behind the last line break nothing is left. -/
theorem splitAt_ofLines {lines : List Text} (h : ∀ line ∈ lines, '\n' ∉ line) :
    splitAt '\n' (ofLines lines) = lines ++ [[]] := by
  induction lines with
  | nil => rfl
  | cons line rest ih =>
    obtain ⟨hline, hrest⟩ := List.forall_mem_cons.1 h
    rw [ofLines_cons, splitAt_append hline, ih hrest, List.cons_append]

/-- A text of lines ends in a line break. With a pad before it, and one behind each of its other
line breaks, it has all its lines padded. -/
theorem exists_ofLines_eq_concat {lines : List Text} (hne : lines ≠ [])
    (hlines : ∀ line ∈ lines, '\n' ∉ line) (pad : Text) :
    ∃ t, ofLines lines = t ++ ['\n'] ∧
      pad ++ replaceChar '\n' ('\n' :: pad) t ++ ['\n'] =
        ofLines (lines.map fun line => pad ++ line) := by
  induction lines with
  | nil => exact absurd rfl hne
  | cons line rest ih =>
    obtain ⟨hline, hrest⟩ := List.forall_mem_cons.1 hlines
    by_cases hnil : rest = []
    · subst hnil
      have hsingle (line : Text) : ofLines [line] = line ++ ['\n'] := List.flatMap_singleton ..
      exact ⟨line, hsingle line, by rw [replaceChar_eq_self _ hline, List.map_singleton, hsingle]⟩
    · obtain ⟨t, ht, hpadded⟩ := ih hnil hrest
      refine ⟨line ++ '\n' :: t, ?_, ?_⟩
      · rw [ofLines_cons, ht, List.append_assoc]
        rfl
      · have hbreak : replaceChar '\n' ('\n' :: pad) ('\n' :: t) =
            '\n' :: pad ++ replaceChar '\n' ('\n' :: pad) t := by
          rw [replaceChar, List.flatMap_cons, if_pos rfl]
          rfl
        rw [List.map_cons, ofLines_cons, ← hpadded, replaceChar_append,
          replaceChar_eq_self _ hline, hbreak]
        simp only [List.append_assoc, List.cons_append]

/-! ## Padded lines -/

variable {pad : Text}

/-- A character, with a pad behind it if it is a line break. -/
def padChar (pad : Text) (c : Char) : Text :=
  if c = '\n' then '\n' :: pad else [c]

/-- A line break has the pad behind it. -/
theorem padChar_newline (pad : Text) : padChar pad '\n' = '\n' :: pad :=
  if_pos rfl

/-- The text with a pad behind each line break, but for one that ends the text. -/
@[simp]
def padLines (pad : Text) : Text → Text
  | [] => []
  | c :: rest =>
    if c = '\n' ∧ rest ≠ [] then c :: pad ++ padLines pad rest else c :: padLines pad rest

/-- Nothing is padded in a text without line breaks before another one. -/
theorem padLines_append {s : Text} (h : '\n' ∉ s) (t : Text) :
    padLines pad (s ++ t) = s ++ padLines pad t := by
  induction s with
  | nil => rfl
  | cons c s ih =>
    obtain ⟨hc, hs⟩ := not_or.1 (mt List.mem_cons.2 h)
    rw [List.cons_append, padLines, if_neg fun hbreak => hc hbreak.1.symm, ih hs, List.cons_append]

/-- A line break before something is padded. -/
theorem padLines_break (h : t ≠ []) : padLines pad ('\n' :: t) = '\n' :: pad ++ padLines pad t := by
  rw [padLines, if_pos ⟨rfl, h⟩]

/-- An empty pad changes nothing. -/
theorem padLines_nil (t : Text) : padLines [] t = t := by
  induction t with
  | nil => rfl
  | cons c t ih =>
    rw [padLines, ih]
    exact ite_self _

/-- In a text that does not end in a line break, each line break is padded. -/
theorem padLines_eq_replaceChar (h : ∀ u, t ≠ u ++ ['\n']) :
    padLines pad t = replaceChar '\n' ('\n' :: pad) t := by
  induction t with
  | nil => rfl
  | cons c t ih =>
    have hrest := ih fun u hu => h (c :: u) (congrArg (c :: ·) hu)
    rw [padLines, hrest, replaceChar, replaceChar, List.flatMap_cons]
    by_cases hc : c = '\n'
    · have hne : t ≠ [] := fun hnil => h [] (by rw [hc, hnil, List.nil_append])
      rw [if_pos ⟨hc, hne⟩, if_pos hc, hc]
    · rw [if_neg fun hbreak => hc hbreak.1, if_neg hc]
      rfl

/-- In a text that ends in a line break, each other line break is padded. -/
theorem padLines_concat (t : Text) :
    padLines pad (t ++ ['\n']) = replaceChar '\n' ('\n' :: pad) t ++ ['\n'] := by
  induction t with
  | nil => rfl
  | cons c t ih =>
    rw [List.cons_append, padLines, ih, replaceChar, replaceChar, List.flatMap_cons]
    by_cases hc : c = '\n'
    · rw [if_pos ⟨hc, by simp⟩, if_pos hc, hc, List.append_assoc]
    · rw [if_neg fun hbreak => hc hbreak.1, if_neg hc]
      rfl

/-- The end of a text is padded as it is in the text. -/
theorem padLines_suffix (s t : Text) : padLines pad t <:+ padLines pad (s ++ t) := by
  induction s with
  | nil => exact List.suffix_rfl
  | cons c s ih =>
    rw [List.cons_append, padLines]
    split
    · exact ih.trans (List.suffix_append _ _)
    · exact ih.trans (List.suffix_cons _ _)

/-- What stands behind an offset is padded as it is in the text. -/
theorem padLines_onFrom_suffix (offset : Int) (t : Text) :
    padLines pad (onFrom offset t) <:+ padLines pad t := by
  conv_rhs => rw [← List.take_append_drop (place t offset) t]
  exact padLines_suffix _ _

/-- The offset in a text with padded lines, and `front` before them, that has the same behind it as
an offset in the text, with the lines there padded. -/
def paddedOffset (front pad t : Text) (offset : Int) : Int :=
  (front ++ padLines pad t).length - (padLines pad (onFrom offset t)).length

end Text

namespace Fragment

variable {f : Fragment} {t : Text}

/-- The fragment with its lines padded, and `front` before the first one. Each marker stands in
front of what it stood in front of, with the lines there padded. -/
def padded (front pad : Text) (f : Fragment) : Fragment :=
  ⟨front ++ Text.padLines pad f.text,
    f.markers.map fun m => ⟨m.name, Text.paddedOffset front pad f.text m.offset⟩⟩

/-- A text may be put before a fragment after its lines are padded. -/
theorem surround_padded (front pad : Text) (f : Fragment) :
    (f.padded [] pad).surround front [] = f.padded front pad := by
  unfold padded surround
  dsimp only
  rw [Fragment.mk.injEq, List.map_map, List.append_nil]
  refine ⟨rfl, List.map_congr_left ?_⟩
  intro m _
  have hsuffix : Text.padLines pad (Text.onFrom m.offset f.text) <:+ Text.padLines pad f.text :=
    Text.padLines_onFrom_suffix m.offset f.text
  have hle := hsuffix.length_le
  simp only [Function.comp_apply, Marker.shift, Text.paddedOffset, List.nil_append,
    List.length_append]
  rw [Marker.mk.injEq]
  exact ⟨rfl, by omega⟩

/-- The line breaks between markers are all line breaks of the text. -/
theorem mapText_pad (h : InRange f) (pad : Text) :
    f.mapText (Text.replaceChar '\n' ('\n' :: pad)) = f.rewritten (Text.padChar pad) :=
  mapText_flatMap h (Text.padChar pad)

/-- In a text that does not end in a line break, all line breaks are padded. -/
theorem rewritten_pad_eq_padded (h : InRange f) (hend : ∀ u, f.text ≠ u ++ ['\n']) (pad : Text) :
    f.rewritten (Text.padChar pad) = f.padded [] pad := by
  have htext : f.text.flatMap (Text.padChar pad) = Text.padLines pad f.text :=
    (Text.padLines_eq_replaceChar hend).symm
  unfold rewritten padded
  rw [htext, List.nil_append, Fragment.mk.injEq]
  refine ⟨rfl, List.map_congr_left ?_⟩
  intro m hm
  obtain ⟨n, hn, -⟩ := h.exists_offset hm
  -- What is behind the marker does not end in a line break either.
  have hbehind : Text.padLines pad (f.text.drop n) =
      (f.text.drop n).flatMap (Text.padChar pad) := by
    refine Text.padLines_eq_replaceChar fun u hu => hend (f.text.take n ++ u) ?_
    rw [List.append_assoc, ← hu, List.take_append_drop]
  have hlength := congrArg List.length htext
  conv_lhs at hlength => rw [← List.take_append_drop n f.text]
  rw [List.flatMap_append, List.length_append] at hlength
  rw [Marker.moved, hn, Text.moved_natCast, Text.paddedOffset, Text.onFrom_natCast, hbehind,
    List.nil_append, Marker.mk.injEq]
  exact ⟨rfl, by omega⟩

/-- Where a text ends in a line break, all others are padded, once the pad at the end is taken
away. -/
theorem truncate_pad_eq_padded (h : InRange f) (htext : f.text = t ++ ['\n']) (pad : Text) :
    (f.rewritten (Text.padChar pad)).truncate (t.flatMap (Text.padChar pad) ++ ['\n']).length =
      f.padded [] pad := by
  have hpadded : f.text.flatMap (Text.padChar pad) =
      t.flatMap (Text.padChar pad) ++ ['\n'] ++ pad := by
    rw [htext, List.flatMap_append, List.flatMap_singleton, Text.padChar_newline, List.append_assoc]
    rfl
  have hlines : Text.padLines pad f.text = t.flatMap (Text.padChar pad) ++ ['\n'] := by
    rw [htext, Text.padLines_concat]
    rfl
  unfold rewritten truncate padded
  dsimp only
  rw [hpadded, hlines, List.nil_append, List.take_left, List.map_map, Fragment.mk.injEq]
  refine ⟨rfl, List.map_congr_left ?_⟩
  intro m hm
  obtain ⟨n, hn, hle⟩ := h.exists_offset hm
  simp only [Function.comp_apply, Marker.moved, hn, Text.moved_natCast, Text.paddedOffset,
    Text.onFrom_natCast, List.nil_append]
  rw [hlines, Marker.mk.injEq]
  refine ⟨rfl, ?_⟩
  have hlength : f.text.length = t.length + 1 := by rw [htext, List.length_append]; rfl
  rcases Nat.lt_or_ge t.length n with hlast | hbefore
  · -- The marker stands behind the last line break, where the pad is taken away.
    rw [List.take_of_length_le (by omega), List.drop_of_length_le (by omega), hpadded,
      List.length_append]
    simp only [Text.padLines, List.length_nil]
    omega
  · have hcut : (t.flatMap (Text.padChar pad)).length =
        ((t.take n).flatMap (Text.padChar pad)).length +
          ((t.drop n).flatMap (Text.padChar pad)).length := by
      rw [← List.length_append, ← List.flatMap_append, List.take_append_drop]
    have hbehind : Text.padLines pad ((t ++ ['\n']).drop n) =
        (t.drop n).flatMap (Text.padChar pad) ++ ['\n'] := by
      rw [List.drop_append_of_le_length hbefore, Text.padLines_concat]
      rfl
    rw [htext, List.take_append_of_le_length hbefore, hbehind, List.length_append,
      List.length_append]
    omega

/-- The lines of a fragment are padded once the pad behind a line break at the end is taken away. -/
theorem trimmed_pad_eq_padded (h : InRange f) (pad : Text) :
    (if ('\n' :: pad).isSuffixOf (f.rewritten (Text.padChar pad)).text then
        (f.rewritten (Text.padChar pad)).truncate
          ((f.rewritten (Text.padChar pad)).text.length - pad.length)
      else f.rewritten (Text.padChar pad)) = f.padded [] pad := by
  by_cases hend : ∃ t, f.text = t ++ ['\n']
  · obtain ⟨t, ht⟩ := hend
    have htext : (f.rewritten (Text.padChar pad)).text =
        t.flatMap (Text.padChar pad) ++ '\n' :: pad := by
      rw [rewritten, ht, List.flatMap_append, List.flatMap_singleton, Text.padChar_newline]
    have hsuffix : ('\n' :: pad).isSuffixOf (f.rewritten (Text.padChar pad)).text = true := by
      rw [List.isSuffixOf_iff_suffix, htext]
      exact List.suffix_append _ _
    have hlength : (f.rewritten (Text.padChar pad)).text.length - pad.length =
        (t.flatMap (Text.padChar pad) ++ ['\n']).length := by
      rw [htext, List.length_append, List.length_append, List.length_cons, List.length_singleton]
      omega
    rw [if_pos hsuffix, hlength, truncate_pad_eq_padded h ht]
  · -- A pad at the end would stand behind a line break at the end of the text.
    have hsuffix : ¬ ('\n' :: pad).isSuffixOf (f.rewritten (Text.padChar pad)).text = true := by
      rw [List.isSuffixOf_iff_suffix]
      exact fun hpad => hend (Text.exists_of_padded_suffix hpad)
    rw [if_neg hsuffix, rewritten_pad_eq_padded h (not_exists.1 hend)]

/-- With an empty pad, each marker stands in front of what it stood in front of. -/
theorem padded_nil (h : InRange f) : f.padded [] [] = f := by
  obtain ⟨text, markers⟩ := f
  unfold padded Text.paddedOffset
  simp only [Text.padLines_nil, List.nil_append]
  rw [Fragment.mk.injEq]
  refine ⟨rfl, (List.map_congr_left ?_).trans (List.map_id markers)⟩
  intro m hm
  obtain ⟨n, hn, hle⟩ := h.exists_offset hm
  obtain ⟨name, offset⟩ := m
  obtain rfl : offset = n := hn
  dsimp only at hle ⊢
  rw [Text.onFrom_natCast, List.length_drop, id_eq, Marker.mk.injEq]
  exact ⟨rfl, by omega⟩

/-- Indenting pads the lines of a fragment, and the first one if that is asked for. -/
theorem indent_eq_padded (h : InRange f) (pad : Text) (firstLine : Bool) :
    f.indent pad firstLine = f.padded (if firstLine then pad else []) pad := by
  unfold indent
  by_cases hnil : pad = []
  · rw [if_pos hnil, hnil, ite_self, padded_nil h]
  · rw [if_neg hnil, mapText_pad h]
    dsimp only
    rw [trimmed_pad_eq_padded h]
    cases firstLine with
    | false => rfl
    | true => exact surround_padded pad pad f

/-- In a text that does not end in a line break, indenting puts the pad behind each line break. -/
theorem text_indent (h : InRange f) (hend : ∀ u, f.text ≠ u ++ ['\n']) (pad : Text)
    (firstLine : Bool) :
    (f.indent pad firstLine).text =
      (if firstLine then pad else []) ++ Text.replaceChar '\n' ('\n' :: pad) f.text := by
  rw [indent_eq_padded h, padded, Text.padLines_eq_replaceChar hend]

/-- Where a text ends in a line break, indenting puts the pad behind all others. -/
theorem text_indent_concat (h : InRange f) (htext : f.text = t ++ ['\n']) (pad : Text)
    (firstLine : Bool) :
    (f.indent pad firstLine).text =
      (if firstLine then pad else []) ++ Text.replaceChar '\n' ('\n' :: pad) t ++ ['\n'] := by
  rw [indent_eq_padded h, padded, htext, Text.padLines_concat, List.append_assoc]

/-- Indenting lines pads each of them. -/
theorem text_indent_ofLines (h : InRange f) {lines : List Text} (hne : lines ≠ [])
    (hlines : ∀ line ∈ lines, '\n' ∉ line) (htext : f.text = Text.ofLines lines) (pad : Text) :
    (f.indent pad true).text = Text.ofLines (lines.map fun line => pad ++ line) := by
  obtain ⟨t, ht, hpadded⟩ := Text.exists_ofLines_eq_concat hne hlines pad
  rw [text_indent_concat h (htext.trans ht), if_pos rfl, hpadded]

end Fragment

end Abbrev
