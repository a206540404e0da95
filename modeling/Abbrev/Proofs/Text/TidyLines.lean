import Abbrev.Proofs.Text.Lines
import Abbrev.Proofs.Text.Rewriting

/-!
# The lines of a text, found in a text

The lines of a text that count are those with something in them, without the blanks around them:
its tidy lines. They do not depend on blanks at the ends of the text (`tidyLines_trim`), though such
blanks may end lines, or be what two lines differ by.

A text shows some parts if it has them in their order, apart from each other. A text shows its own
tidy lines (`shows_tidyLines`); and what shows tidy lines still does when its lines are padded
(`Shows.padded`), as no line break is inside of a tidy line.
-/

namespace Abbrev.Text

variable {s t u pad : Text} {parts more : List Text}

/-! ## Trimming -/

/-- Blanks at the start are trimmed. -/
theorem trim_append_of_blank_left (h : ∀ c ∈ s, isBlank c = true) (t : Text) :
    trim (s ++ t) = trim t := by
  unfold trim trimLeft
  rw [List.dropWhile_append_of_pos h]

/-- Blanks at the end are trimmed. -/
theorem trim_append_of_blank_right (h : ∀ c ∈ t, isBlank c = true) (s : Text) :
    trim (s ++ t) = trim s := by
  by_cases hs : ∀ c ∈ s, isBlank c = true
  · have hnil : trim t = [] := (trim_eq_nil_iff t).2 (List.all_eq_true.2 h)
    rw [trim_append_of_blank_left hs, hnil, (trim_eq_nil_iff s).2 (List.all_eq_true.2 hs)]
  · -- The blanks at the start come to an end in `s`.
    have hleft : trimLeft (s ++ t) = trimLeft s ++ t := by
      unfold trimLeft
      rw [List.dropWhile_append, if_neg]
      rw [List.isEmpty_iff, List.dropWhile_eq_nil_iff]
      exact hs
    unfold trim
    rw [hleft, trimRight, trimLeft, List.reverse_append, List.dropWhile_append_of_pos]
    · rfl
    · intro c hc
      exact h c (List.mem_reverse.1 hc)

/-! ## Tidy lines -/

/-- The lines of a text that hold more than blanks, without the blanks at their ends. -/
def tidyLines (t : Text) : List Text :=
  (nonBlankLines t).map trim

/-- A line counts if it holds more than blanks. -/
theorem map_trim_filter_cons (line : Text) (rest : List Text) :
    ((line :: rest).filter fun line => !isAllBlank line).map trim =
      (if trim line = [] then [] else [trim line]) ++
        (rest.filter fun line => !isAllBlank line).map trim := by
  rw [List.filter_cons]
  by_cases hblank : isAllBlank line = true
  · rw [if_pos ((trim_eq_nil_iff line).2 hblank), hblank]
    rfl
  · rw [if_neg (fun hnil => hblank ((trim_eq_nil_iff line).1 hnil)), Bool.not_eq_true] at *
    rw [hblank]
    rfl

/-- A text without a line break is one line, or none if it holds blanks only. -/
theorem tidyLines_of_unbroken (h : Unbroken t) :
    tidyLines t = if trim t = [] then [] else [trim t] := by
  by_cases hnil : t = []
  · rw [hnil]
    rfl
  · unfold tidyLines nonBlankLines
    rw [lines_of_unbroken h hnil, map_trim_filter_cons, List.filter_nil, List.map_nil,
      List.append_nil]

/-- A character that ends no line may be added to an unbroken text. -/
theorem Unbroken.concat (hs : Unbroken s) {c : Char} (hc : ¬ isLineBreak c = true) :
    Unbroken (s ++ [c]) := by
  intro d hd
  rcases List.mem_append.1 hd with hd | hd
  · exact hs d hd
  · rw [List.mem_singleton.1 hd]
    simpa using hc

/-- At a line break, an empty line comes to an end. If the break is a return, a line feed behind it
belongs to it, and else would be the break of another empty line. -/
theorem exists_lines_break {c : Char} (hc : isLineBreak c = true) (t : Text) :
    ∃ more, lines (c :: t) = [] :: more ∧
      (more.filter fun line => !isAllBlank line) = nonBlankLines t := by
  by_cases hreturn : ∃ rest, c = '\r' ∧ t = '\n' :: rest
  · obtain ⟨rest, rfl, rfl⟩ := hreturn
    exact ⟨lines rest, rfl, rfl⟩
  · refine ⟨lines t, ?_, rfl⟩
    rw [lines.eq_3 c t (fun rest hcr ht => hreturn ⟨rest, hcr, ht⟩), if_pos hc]

/-- Characters that end no line belong to the first line of what follows. -/
theorem lines_append_of_nil (hs : Unbroken s) (h : lines t = [] :: more) :
    lines (s ++ t) = s :: more := by
  induction s with
  | nil => exact h
  | cons c s ih =>
    obtain ⟨hc, hs⟩ := unbroken_cons.1 hs
    rw [List.cons_append, lines_cons hc, ih hs]

/-- A line break ends a line, whatever follows it. -/
theorem tidyLines_append_break {c : Char} (hs : Unbroken s) (hc : isLineBreak c = true) (t : Text) :
    tidyLines (s ++ c :: t) = tidyLines s ++ tidyLines t := by
  obtain ⟨more, hlines, hmore⟩ := exists_lines_break hc t
  rw [tidyLines_of_unbroken hs]
  unfold tidyLines
  rw [nonBlankLines, lines_append_of_nil hs hlines, map_trim_filter_cons, hmore]

/-- Two beginnings of a line may take each other's place if they make no difference to trimming. -/
theorem tidyLines_append_congr (hs : Unbroken s) (ht : Unbroken t)
    (h : ∀ rest, trim (s ++ rest) = trim (t ++ rest)) (u : Text) :
    tidyLines (s ++ u) = tidyLines (t ++ u) := by
  induction u generalizing s t with
  | nil =>
    have htrim := h []
    rw [List.append_nil, List.append_nil] at htrim ⊢
    rw [tidyLines_of_unbroken hs, tidyLines_of_unbroken ht, htrim]
  | cons c u ih =>
    by_cases hc : isLineBreak c = true
    · have hbefore : tidyLines s = tidyLines t := by
        have htrim := h []
        rw [List.append_nil, List.append_nil] at htrim
        rw [tidyLines_of_unbroken hs, tidyLines_of_unbroken ht, htrim]
      rw [tidyLines_append_break hs hc, tidyLines_append_break ht hc, hbefore]
    · -- The character belongs to the beginnings.
      rw [List.append_cons s, List.append_cons t]
      refine ih (hs.concat hc) (ht.concat hc) ?_
      intro rest
      rw [List.append_assoc, List.append_assoc]
      exact h ([c] ++ rest)

/-- Blanks at the start of a text bring no further line. -/
theorem tidyLines_append_of_blank_left (h : ∀ c ∈ s, isBlank c = true) (t : Text) :
    tidyLines (s ++ t) = tidyLines t := by
  induction s with
  | nil => rfl
  | cons c s ih =>
    obtain ⟨hc, hs⟩ := List.forall_mem_cons.1 h
    rw [← ih hs, List.cons_append]
    by_cases hbreak : isLineBreak c = true
    · exact tidyLines_append_break (List.forall_mem_nil _) hbreak (s ++ t)
    · have hempty : Unbroken [] := List.forall_mem_nil _
      refine tidyLines_append_congr (hempty.concat hbreak) hempty ?_ (s ++ t)
      exact trim_append_of_blank_left (by simpa using hc)

/-- Blanks behind an unbroken text bring no further line. -/
theorem tidyLines_unbroken_append_blank (hs : Unbroken s) (h : ∀ c ∈ t, isBlank c = true) :
    tidyLines (s ++ t) = tidyLines s := by
  induction t generalizing s with
  | nil => rw [List.append_nil]
  | cons c t ih =>
    obtain ⟨hc, ht⟩ := List.forall_mem_cons.1 h
    by_cases hbreak : isLineBreak c = true
    · have hnone : tidyLines t = [] := by
        rw [← List.append_nil t]
        exact tidyLines_append_of_blank_left ht []
      rw [tidyLines_append_break hs hbreak, hnone, List.append_nil]
    · have htrim : trim (s ++ [c]) = trim s := trim_append_of_blank_right (by simpa using hc) s
      rw [List.append_cons, ih (hs.concat hbreak) ht, tidyLines_of_unbroken (hs.concat hbreak),
        tidyLines_of_unbroken hs, htrim]

/-- Blanks at the end of a text bring no further line. -/
theorem tidyLines_append_of_blank_right (h : ∀ c ∈ t, isBlank c = true) (s : Text) :
    tidyLines (s ++ t) = tidyLines s := by
  -- The induction takes the characters of a line together, up to the next break.
  have hline (start : Text) (hstart : Unbroken start) :
      tidyLines (start ++ s ++ t) = tidyLines (start ++ s) := by
    induction s generalizing start with
    | nil =>
      rw [List.append_nil]
      exact tidyLines_unbroken_append_blank hstart h
    | cons c s ih =>
      by_cases hbreak : isLineBreak c = true
      · have hrest := ih [] (List.forall_mem_nil _)
        rw [List.append_assoc, List.cons_append, tidyLines_append_break hstart hbreak,
          tidyLines_append_break hstart hbreak]
        exact congrArg (tidyLines start ++ ·) hrest
      · rw [List.append_cons start]
        exact ih (start ++ [c]) (hstart.concat hbreak)
  exact hline [] (List.forall_mem_nil _)

/-- A text has the same lines when it is trimmed. -/
theorem tidyLines_trim (t : Text) : tidyLines (trim t) = tidyLines t := by
  have hleft : t.takeWhile isBlank ++ trimLeft t = t := List.takeWhile_append_dropWhile
  have hright : trim t ++ (trimLeft t).rtakeWhile isBlank = trimLeft t :=
    List.rdropWhile_append_rtakeWhile
  calc tidyLines (trim t)
      = tidyLines (trim t ++ (trimLeft t).rtakeWhile isBlank) :=
        (tidyLines_append_of_blank_right (fun c hc => List.mem_rtakeWhile_imp hc) _).symm
    _ = tidyLines (t.takeWhile isBlank ++ trimLeft t) := by
        rw [hright, tidyLines_append_of_blank_left fun c hc => List.mem_takeWhile_imp hc]
    _ = tidyLines t := by rw [hleft]

/-- The tidy lines of a text are tidy. -/
theorem tidy_of_mem_tidyLines {line : Text} (h : line ∈ tidyLines t) : Tidy line := by
  obtain ⟨whole, hwhole, rfl⟩ := List.mem_map.1 h
  exact tidy_trim hwhole

/-! ## Parts shown in a text -/

/-- A text has the given parts in their order, apart from each other. -/
def Shows : List Text → Text → Prop
  | [], _ => True
  | part :: rest, t => ∃ before after, t = before ++ part ++ after ∧ Shows rest after

/-- What a text shows is shown by a text that it is part of. -/
theorem Shows.of_isInfix (h : Shows parts t) (hwithin : t <:+: u) : Shows parts u := by
  obtain ⟨before, after, rfl⟩ := hwithin
  induction parts generalizing t before with
  | nil => trivial
  | cons part rest ih =>
    obtain ⟨first, last, rfl, hrest⟩ := h
    refine ⟨before ++ first, last ++ after, by simp only [List.append_assoc], ?_⟩
    exact ih hrest []

/-- What two texts show is shown by the two texts one after the other. -/
theorem Shows.append (hs : Shows parts s) (ht : Shows more t) : Shows (parts ++ more) (s ++ t) := by
  induction parts generalizing s with
  | nil => exact ht.of_isInfix (List.suffix_append s t).isInfix
  | cons part rest ih =>
    obtain ⟨before, after, rfl, hrest⟩ := hs
    exact ⟨before, after ++ t, by rw [List.append_assoc], ih hrest⟩

/-- Parts may be left out. -/
theorem Shows.sublist (h : Shows parts t) (hsub : more.Sublist parts) : Shows more t := by
  induction hsub generalizing t with
  | slnil => trivial
  | cons part _ ih =>
    obtain ⟨before, after, rfl, hrest⟩ := h
    exact (ih hrest).of_isInfix (List.suffix_append (before ++ part) after).isInfix
  | cons_cons part _ ih =>
    obtain ⟨before, after, rfl, hrest⟩ := h
    exact ⟨before, after, rfl, ih hrest⟩

/-- Parts may be made shorter. -/
theorem Shows.map {f : Text → Text} (hf : ∀ part ∈ parts, f part <:+: part) (h : Shows parts t) :
    Shows (parts.map f) t := by
  induction parts generalizing t with
  | nil => trivial
  | cons part rest ih =>
    obtain ⟨hpart, hrest⟩ := List.forall_mem_cons.1 hf
    obtain ⟨first, last, hpart⟩ := hpart
    obtain ⟨before, after, rfl, hafter⟩ := h
    refine ⟨before ++ first, last ++ after, ?_, ?_⟩
    · conv_lhs => rw [← hpart]
      simp only [List.append_assoc]
    · exact (ih hrest hafter).of_isInfix (List.suffix_append last after).isInfix

/-- A text shows its lines, and it begins with the first one. -/
theorem shows_lines (t : Text) :
    Shows (lines t) t ∧
      ∀ first ∈ (lines t).head?, ∃ after, t = first ++ after ∧ Shows (lines t).tail after := by
  fun_induction lines t with
  | case1 => exact ⟨trivial, by rintro first ⟨⟩⟩
  | case2 rest ih =>
    have hrest : Shows (lines rest) ('\r' :: '\n' :: rest) :=
      ih.1.of_isInfix (List.suffix_append ['\r', '\n'] rest).isInfix
    refine ⟨⟨[], _, rfl, hrest⟩, ?_⟩
    rintro first ⟨⟩
    exact ⟨_, rfl, hrest⟩
  | case3 c rest _ hbreak ih =>
    have hrest : Shows (lines rest) (c :: rest) :=
      ih.1.of_isInfix (List.suffix_cons c rest).isInfix
    refine ⟨⟨[], _, rfl, hrest⟩, ?_⟩
    rintro first ⟨⟩
    exact ⟨_, rfl, hrest⟩
  | case4 c rest _ hbreak hnil ih =>
    refine ⟨⟨[], rest, rfl, trivial⟩, ?_⟩
    rintro first ⟨⟩
    exact ⟨rest, rfl, trivial⟩
  | case5 c rest _ hbreak first more hlines ih =>
    rw [hlines] at ih
    obtain ⟨after, rfl, hmore⟩ := ih.2 first rfl
    refine ⟨⟨[], after, rfl, hmore⟩, ?_⟩
    rintro line ⟨⟩
    exact ⟨after, rfl, hmore⟩

/-- A text shows its tidy lines. -/
theorem shows_tidyLines (t : Text) : Shows (tidyLines t) t := by
  have hlines : Shows (nonBlankLines t) t := (shows_lines t).1.sublist List.filter_sublist
  refine hlines.map fun line _ => ?_
  exact (trimRight_initial _).isInfix.trans (List.dropWhile_suffix isBlank).isInfix

/-! ## Padded lines -/

/-- Replacing a character in two texts, one after the other. -/
theorem replaceChar_append (old : Char) (new s t : Text) :
    replaceChar old new (s ++ t) = replaceChar old new s ++ replaceChar old new t :=
  List.flatMap_append

/-- Nothing is replaced in a text without the character. -/
theorem replaceChar_eq_self {old : Char} (new : Text) (h : old ∉ t) :
    replaceChar old new t = t := by
  refine flatMap_eq_self fun c hc => if_neg ?_
  rintro rfl
  exact h hc

/-- A single character is replaced as a whole. -/
theorem replaceChar_singleton (old : Char) (new : Text) : replaceChar old new [old] = new := by
  rw [replaceChar, List.flatMap_singleton, if_pos rfl]

/-- There is no line break in a tidy line. -/
theorem Tidy.newline_not_mem {line : Text} (h : Tidy line) : '\n' ∉ line := fun hmem =>
  absurd (h.unbroken _ hmem) (by decide)

/-- Where line breaks are padded, tidy lines are still shown. -/
theorem Shows.padded (h : Shows parts t) (htidy : ∀ part ∈ parts, Tidy part) (pad : Text) :
    Shows parts (replaceChar '\n' ('\n' :: pad) t) := by
  induction parts generalizing t with
  | nil => trivial
  | cons part rest ih =>
    obtain ⟨hpart, hrest⟩ := List.forall_mem_cons.1 htidy
    obtain ⟨before, after, rfl, hafter⟩ := h
    refine ⟨replaceChar '\n' ('\n' :: pad) before, replaceChar '\n' ('\n' :: pad) after, ?_,
      ih hafter hrest⟩
    rw [replaceChar_append, replaceChar_append, replaceChar_eq_self _ hpart.newline_not_mem]

/-- A line break at the end of a text is not part of what is shown. -/
theorem Shows.of_concat_break (h : Shows parts (t ++ ['\n']))
    (htidy : ∀ part ∈ parts, Tidy part) : Shows parts t := by
  induction parts generalizing t with
  | nil => trivial
  | cons part rest ih =>
    obtain ⟨hpart, hrest⟩ := List.forall_mem_cons.1 htidy
    obtain ⟨before, after, heq, hafter⟩ := h
    -- A tidy line does not end in a line break, so there is something behind it.
    obtain rfl | ⟨last, c, rfl⟩ := List.eq_nil_or_concat' after
    · rw [List.append_nil] at heq
      have hlast := congrArg List.getLast? heq
      rw [List.getLast?_append_of_ne_nil _ hpart.ne_nil] at hlast
      have hmem : '\n' ∈ part := List.mem_of_getLast? (hlast.symm.trans List.getLast?_concat)
      exact absurd hmem hpart.newline_not_mem
    · rw [← List.append_assoc] at heq
      obtain ⟨rfl, hc⟩ := List.append_inj' heq rfl
      obtain rfl := (List.cons.inj hc).1
      exact ⟨before, last, rfl, ih hafter hrest⟩

/-- A padded text ends in a line break with its pad only if the text ends in a line break. -/
theorem exists_of_padded_suffix
    (h : '\n' :: pad <:+ replaceChar '\n' ('\n' :: pad) t) : ∃ u, t = u ++ ['\n'] := by
  -- The last line has no break, so it is written as it is, behind the pad of the break before it.
  have hcut : t.rdropWhile (· != '\n') ++ t.rtakeWhile (· != '\n') = t :=
    List.rdropWhile_append_rtakeWhile
  have hlast : '\n' ∉ t.rtakeWhile (· != '\n') := by
    intro hmem
    simpa using List.mem_rtakeWhile_imp hmem
  have hbreak := @List.rdropWhile_last_not _ (· != '\n') t
  generalize t.rdropWhile (· != '\n') = before at hcut hbreak
  generalize t.rtakeWhile (· != '\n') = line at hcut hlast
  subst hcut
  obtain rfl | ⟨u, c, rfl⟩ := List.eq_nil_or_concat' before
  · rw [List.nil_append, replaceChar_eq_self _ hlast] at h
    exact absurd (h.subset List.mem_cons_self) hlast
  · obtain rfl : c = '\n' := by simpa using hbreak (by simp)
    rw [replaceChar_append, replaceChar_append, replaceChar_singleton,
      replaceChar_eq_self _ hlast, List.append_assoc] at h
    obtain ⟨shift, hshift⟩ :=
      List.suffix_of_suffix_length_le h (List.suffix_append _ _) (by simp)
    have hcount := congrArg (List.count '\n') hshift
    rw [List.count_append, List.count_append, List.count_eq_zero.2 hlast] at hcount
    cases shift with
    | nil =>
      have hline : line = [] := List.append_right_eq_self.1 hshift.symm
      exact ⟨u, by rw [hline, List.append_nil]⟩
    | cons d shift =>
      -- The break would have to stand once more before itself.
      obtain rfl : d = '\n' := (List.cons.inj hshift).1
      rw [List.count_cons_self] at hcount
      omega

end Abbrev.Text
