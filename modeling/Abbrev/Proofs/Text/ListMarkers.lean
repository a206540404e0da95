import Abbrev.Proofs.Text.Lines
import Abbrev.Proofs.Text.Rewriting
import Abbrev.Text.ListMarker

/-!
# List markers in escaped text

List markers may be removed before a text is escaped or after that (`trimListMarkers_escape`).
Escaping changes three characters, none of which ends a line, is a blank, or belongs to a list
marker; and an entity begins with one of the three. So a text and its escaped form have the same
breaks, and in each line the same characters up to the first one that is neither a blank nor part
of a marker.
-/

namespace Abbrev.Text

/-- A character stays as it is, or is one of three that are written as entities. -/
theorem escapeChar_cases (c : Char) :
    escapeChar c = [c] ∨
      (c = '&' ∨ c = '<' ∨ c = '>') ∧ ∃ name, escapeChar c = '&' :: name := by
  by_cases hself : c ≠ '&' ∧ c ≠ '<' ∧ c ≠ '>'
  · exact .inl (escapeChar_eq_self hself)
  · have hspecial : c = '&' ∨ c = '<' ∨ c = '>' := by
      simpa only [not_and_or, not_not] using hself
    refine .inr ⟨hspecial, ?_⟩
    rcases hspecial with rfl | rfl | rfl
    · exact ⟨"amp;".toList, rfl⟩
    · exact ⟨"lt;".toList, rfl⟩
    · exact ⟨"gt;".toList, rfl⟩

/-- The first character is escaped before the others. -/
theorem escape_cons (c : Char) (t : Text) : escape (c :: t) = escapeChar c ++ escape t :=
  List.flatMap_cons

/-- Two texts may be escaped before or after they are put together. -/
theorem escape_append (s t : Text) : escape (s ++ t) = escape s ++ escape t :=
  List.flatMap_append

/-- Characters at the start of a text may be left out before or after escaping, if they are not of
those that are escaped. -/
theorem dropWhile_escape {p : Char → Bool} (h : p '&' = false ∧ p '<' = false ∧ p '>' = false)
    (t : Text) : (escape t).dropWhile p = escape (t.dropWhile p) := by
  obtain ⟨hamp, hlt, hgt⟩ := h
  induction t with
  | nil => rfl
  | cons c t ih =>
    rw [escape_cons]
    rcases escapeChar_cases c with hself | ⟨hspecial, name, hname⟩
    · rw [hself, List.singleton_append, List.dropWhile_cons, List.dropWhile_cons, ih]
      split
      · rfl
      · rw [escape_cons, hself, List.singleton_append]
    · have hc : p c = false := by
        rcases hspecial with rfl | rfl | rfl <;> assumption
      rw [List.dropWhile_cons_of_neg (by simp [hc]), escape_cons, hname, List.cons_append,
        List.dropWhile_cons_of_neg (by simp [hamp])]

/-- Blanks at the start may be removed before or after escaping. -/
theorem trimLeft_escape (t : Text) : trimLeft (escape t) = escape (trimLeft t) :=
  dropWhile_escape (by decide) t

/-- A text that begins with neither a star nor a hyphen has a list marker if it begins with a number
and a point. -/
theorem afterMarker?_of_ne {c : Char} (hstar : c ≠ '*') (hhyphen : c ≠ '-') (t : Text) :
    afterMarker? (c :: t) =
      if isDecimal c then
        match (c :: t).dropWhile isDecimal with
        | '.' :: rest => some rest
        | _ => none
      else none := by
  unfold afterMarker?
  split
  · next h => exact absurd (List.cons.inj h).1 hstar
  · next h => exact absurd (List.cons.inj h).1 hhyphen
  · next h =>
    obtain ⟨rfl, rfl⟩ := List.cons.inj h
    rfl
  · next h => cases h

/-- What follows the sign of a list marker is escaped with the text. -/
theorem afterMarker?_escape (t : Text) :
    afterMarker? (escape t) = (afterMarker? t).map escape := by
  cases t with
  | nil => rfl
  | cons c t =>
    rcases escapeChar_cases c with hself | ⟨hspecial, name, hname⟩
    · have hcons (u : Text) : escape (c :: u) = c :: escape u := by
        rw [escape_cons, hself, List.singleton_append]
      by_cases hstar : c = '*'
      · subst hstar
        rfl
      by_cases hhyphen : c = '-'
      · subst hhyphen
        rfl
      rw [afterMarker?_of_ne hstar hhyphen, hcons, afterMarker?_of_ne hstar hhyphen, ← hcons,
        dropWhile_escape (by decide)]
      split
      · -- What is left behind the digits begins with a point, or with something else.
        generalize (c :: t).dropWhile isDecimal = rest
        cases rest with
        | nil => rfl
        | cons d rest =>
          rw [escape_cons]
          rcases escapeChar_cases d with hself | ⟨rfl | rfl | rfl, name, hname⟩
          · rw [hself, List.singleton_append]
            by_cases hpoint : d = '.'
            · subst hpoint
              rfl
            · simp [hpoint]
          all_goals
            rw [hname]
            rfl
      · rfl
    · -- Neither the character nor the entity begins a list marker.
      have hnone : afterMarker? (c :: t) = none := by
        rcases hspecial with rfl | rfl | rfl <;> rfl
      rw [hnone, escape_cons, hname]
      rfl

/-- A list marker may be removed before or after escaping. -/
theorem trimListMarker_escape (line : Text) :
    trimListMarker (escape line) = escape (trimListMarker line) := by
  unfold trimListMarker
  rw [trimLeft_escape, afterMarker?_escape]
  rcases afterMarker? (trimLeft line) with _ | _ | ⟨c, rest⟩
  · rfl
  · rfl
  · rw [Option.map_some, escape_cons]
    rcases escapeChar_cases c with hself | ⟨hspecial, name, hname⟩
    · rw [hself, List.singleton_append]
      dsimp only
      split
      · exact trimLeft_escape rest
      · rfl
    · -- An entity is no blank, and neither is the character that it is written for.
      have hc : isBlank c = false := by
        rcases hspecial with rfl | rfl | rfl <;> decide
      rw [hname]
      dsimp only [List.cons_append]
      rw [hc]
      rfl

/-- A character that ends no line is not written as one that does. -/
theorem unbroken_escapeChar {c : Char} (h : isLineBreak c = false) : Unbroken (escapeChar c) := by
  unfold escapeChar
  split_ifs
  · decide
  · decide
  · decide
  · exact List.forall_mem_singleton.2 h

/-- The escaped form of a text has the escaped lines. -/
theorem lines_escape (t : Text) : lines (escape t) = (lines t).map escape := by
  fun_induction lines t with
  | case1 => rfl
  | case2 rest ih => exact congrArg ([] :: ·) ih
  | case3 c rest hpair hbreak ih =>
    have hself : escapeChar c = [c] := by
      refine (escapeChar_cases c).resolve_right ?_
      rintro ⟨rfl | rfl | rfl, -⟩ <;> revert hbreak <;> decide
    -- A return is still not before a line feed.
    have hpair (more : Text) (hc : c = '\r') (hmore : escape rest = [] ++ '\n' :: more) :
        False := by
      obtain ⟨before, after, rfl, hnone, -⟩ :=
        exists_of_flatMap_eq rfl (fun _ => eq_of_newline_mem_escapeChar) hmore
      obtain rfl : before = [] := escape_injective hnone
      exact hpair after hc rfl
    rw [escape_cons, hself, List.singleton_append, lines.eq_3 c _ hpair, if_pos hbreak, ih]
    rfl
  | case4 c rest _ hbreak hnil ih =>
    rw [escape_cons, lines_append (unbroken_escapeChar (by simpa using hbreak))
      (escapeChar_ne_nil c), ih, hnil]
    simp [escape]
  | case5 c rest _ hbreak first more hlines ih =>
    rw [escape_cons, lines_append (unbroken_escapeChar (by simpa using hbreak))
      (escapeChar_ne_nil c), ih, hlines, List.map_cons, List.map_cons, escape_cons]

/-- Texts may be escaped before or after they are joined, if the separator stays as it is. -/
theorem join_map_escape {separator : Text} (h : escape separator = separator) (parts : List Text) :
    join separator (parts.map escape) = escape (join separator parts) := by
  induction parts with
  | nil => rfl
  | cons part rest ih =>
    cases rest with
    | nil => rw [List.map_singleton, join_singleton, join_singleton]
    | cons next rest =>
      rw [List.map_cons] at ih
      rw [List.map_cons, List.map_cons, join_cons_cons, ih, join_cons_cons, escape_append,
        escape_append, h]

/-- List markers may be removed before or after escaping. -/
theorem trimListMarkers_escape (t : Text) :
    trimListMarkers (escape t) = escape (trimListMarkers t) := by
  unfold trimListMarkers
  rw [lines_escape, List.map_map, ← join_map_escape rfl, List.map_map]
  exact congrArg _ (List.map_congr_left fun line _ => trimListMarker_escape line)

end Abbrev.Text
