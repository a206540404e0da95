import Mathlib.Data.List.Infix
import Abbrev.Text.Escape

/-!
# Texts rewritten character by character

Escaping, and the padding of lines, put a text in place of each character. Such a rewriting takes
places along: what stood before an offset stands, rewritten, before the offset that it is moved to
(`take_flatMap_moved`). Offsets keep their order (`moved_le_moved`), and those that differ keep
apart if no character is left out (`moved_le_iff`).

A rewriting that has an inverse and leaves line breaks and an indent alone can be told from its
result to have met that indent at the end of a text (`cons_isSuffix_flatMap_iff`). Escaping has an
inverse, as no entity begins another one (`escape_injective`).
-/

namespace Abbrev.Text

variable {change : Char → Text} {s t : Text}

/-! ## Offsets -/

/-- Where a rewriting of a text moves an offset: behind what stands before it. -/
def moved (change : Char → Text) (t : Text) (offset : Int) : Nat :=
  ((upTo offset t).flatMap change).length

/-- An offset that counts from the start has that many characters before it. -/
@[simp] theorem moved_natCast (change : Char → Text) (t : Text) (n : Nat) :
    moved change t n = ((t.take n).flatMap change).length := by
  rw [moved, upTo_natCast]

/-- What stood before an offset stands before the moved one. -/
theorem take_flatMap_moved (change : Char → Text) (t : Text) (n : Nat) :
    (t.flatMap change).take (moved change t n) = (t.take n).flatMap change := by
  have hcut : t.flatMap change = (t.take n).flatMap change ++ (t.drop n).flatMap change := by
    rw [← List.flatMap_append, List.take_append_drop]
  rw [moved_natCast, hcut, List.take_left]

/-- What stood behind an offset stands behind the moved one. -/
theorem drop_flatMap_moved (change : Char → Text) (t : Text) (n : Nat) :
    (t.flatMap change).drop (moved change t n) = (t.drop n).flatMap change := by
  have hcut : t.flatMap change = (t.take n).flatMap change ++ (t.drop n).flatMap change := by
    rw [← List.flatMap_append, List.take_append_drop]
  rw [moved_natCast, hcut, List.drop_left]

/-- The end of a text stays its end. -/
theorem moved_length (change : Char → Text) (t : Text) :
    moved change t t.length = (t.flatMap change).length := by
  rw [moved_natCast, List.take_length]

/-- Offsets keep their order. -/
theorem moved_le_moved (change : Char → Text) (t : Text) {m n : Nat} (h : m ≤ n) :
    moved change t m ≤ moved change t n := by
  rw [moved_natCast, moved_natCast]
  exact ((List.take_prefix_take_left h).flatMap change).length_le

/-- An offset in a text is moved to one in the new text. -/
theorem moved_le (change : Char → Text) (t : Text) (n : Nat) :
    moved change t n ≤ (t.flatMap change).length := by
  rw [moved_natCast]
  exact ((List.take_prefix n t).flatMap change).length_le

/-- If no character is left out, offsets that differ keep apart. -/
theorem moved_le_iff (hchange : ∀ c, change c ≠ []) {m n : Nat} (hm : m ≤ t.length) :
    moved change t m ≤ moved change t n ↔ m ≤ n := by
  refine ⟨?_, moved_le_moved change t⟩
  intro hle
  by_contra hlt
  -- The character behind the offset `n` is written before the offset `m`.
  have hnext : moved change t (n + 1 : Nat) ≤ moved change t m :=
    moved_le_moved change t (by omega)
  have hchar := List.take_concat_get' t n (by omega)
  rw [moved_natCast, moved_natCast] at hle hnext
  rw [← hchar, List.flatMap_append, List.length_append, List.flatMap_singleton] at hnext
  have hpos := List.length_pos_of_ne_nil (hchange t[n])
  omega

/-- An offset in the first of two texts is moved by what stands there. -/
theorem moved_append_left {n : Nat} (h : n ≤ s.length) (t : Text) :
    moved change (s ++ t) n = moved change s n := by
  rw [moved_natCast, moved_natCast, List.take_append_of_le_length h]

/-- An offset in the second of two texts is moved by the first one, and by what stands there. -/
theorem moved_append_right (s t : Text) (n : Nat) :
    moved change (s ++ t) (s.length + n : Nat) = (s.flatMap change).length + moved change t n := by
  rw [moved_natCast, moved_natCast, List.take_length_add_append, List.flatMap_append,
    List.length_append]

section Insertion

variable (change) {offset : Nat} (piece : Text)

/-- Before a text that is put in, offsets move as they would without it. -/
theorem moved_insert_before (hoffset : offset ≤ t.length) {n : Nat} (h : n ≤ offset) :
    moved change (t.take offset ++ piece ++ t.drop offset) n = moved change t n := by
  have hlength : (t.take offset).length = offset := List.length_take_of_le hoffset
  rw [List.append_assoc, moved_append_left (by omega)]
  conv_rhs => rw [← List.take_append_drop offset t]
  rw [moved_append_left (by omega)]

/-- In a text that is put in, offsets move as they would there. -/
theorem moved_insert_inside (hoffset : offset ≤ t.length) {n : Nat} (h : n ≤ piece.length) :
    moved change (t.take offset ++ piece ++ t.drop offset) (n + offset : Nat) =
      moved change piece n + moved change t offset := by
  have hlength : (t.take offset).length = offset := List.length_take_of_le hoffset
  have hsum : n + offset = (t.take offset).length + n := by omega
  rw [List.append_assoc, hsum, moved_append_right, moved_append_left h, ← moved_natCast]
  omega

/-- Behind a text that is put in, offsets move as they would without it, and past that text. -/
theorem moved_insert_behind (hoffset : offset ≤ t.length) {n : Nat} (h : offset ≤ n) :
    moved change (t.take offset ++ piece ++ t.drop offset) (n + piece.length : Nat) =
      moved change t n + (piece.flatMap change).length := by
  have hlength : (t.take offset ++ piece).length = offset + piece.length := by
    rw [List.length_append, List.length_take_of_le hoffset]
  obtain ⟨k, rfl⟩ := Nat.exists_eq_add_of_le h
  have hwith : moved change (t.take offset ++ piece ++ t.drop offset)
      (offset + k + piece.length : Nat) =
        ((t.take offset).flatMap change).length + (piece.flatMap change).length +
          moved change (t.drop offset) k := by
    have hsum : offset + k + piece.length = (t.take offset ++ piece).length + k := by omega
    rw [hsum, moved_append_right, List.flatMap_append, List.length_append]
  have hwithout : moved change t (offset + k : Nat) =
      ((t.take offset).flatMap change).length + moved change (t.drop offset) k := by
    rw [← moved_append_right, List.take_append_drop, List.length_take_of_le hoffset]
  omega

end Insertion

/-- Two rewritings, one after the other, move offsets one after the other. -/
theorem moved_moved (first second : Char → Text) (t : Text) (n : Nat) :
    moved second (t.flatMap first) (moved first t n) =
      moved (fun c => (first c).flatMap second) t n := by
  rw [moved_natCast, take_flatMap_moved, List.flatMap_assoc, moved_natCast]

/-! ## What a rewriting leaves alone -/

/-- A text stays as it is if its characters do. -/
theorem flatMap_eq_self (h : ∀ c ∈ t, change c = [c]) : t.flatMap change = t := by
  rw [List.flatMap_congr h, List.flatMap_singleton']

/-- A character that comes from itself alone tells where it stood. -/
theorem exists_of_flatMap_eq {c : Char} {before after : Text} (hself : change c = [c])
    (honly : ∀ d, c ∈ change d → d = c) (h : t.flatMap change = before ++ c :: after) :
    ∃ u v, t = u ++ c :: v ∧ u.flatMap change = before ∧ v.flatMap change = after := by
  induction t generalizing before with
  | nil => simp at h
  | cons d t ih =>
    rw [List.flatMap_cons] at h
    obtain ⟨more, hbefore, hrest⟩ | ⟨more, hd, hrest⟩ := List.append_eq_append_iff.1 h
    · -- The character is written for a later one.
      obtain ⟨u, v, rfl, hu, hv⟩ := ih hrest
      exact ⟨d :: u, v, rfl, by rw [List.flatMap_cons, hu, hbefore], hv⟩
    · cases more with
      | nil =>
        obtain ⟨u, v, rfl, hu, hv⟩ := @ih [] hrest.symm
        refine ⟨d :: u, v, rfl, ?_, hv⟩
        rw [List.flatMap_cons, hu, hd, List.append_nil, List.append_nil]
      | cons e more =>
        obtain ⟨rfl, hafter⟩ := List.cons.inj hrest
        obtain rfl := honly d (by rw [hd]; simp)
        -- It is the only one that is written for `d`.
        rw [hself] at hd
        obtain ⟨rfl, hmore⟩ : before = [] ∧ more = [] := by
          have hlength := congrArg List.length hd
          simp only [List.length_append, List.length_cons, List.length_nil] at hlength
          exact ⟨List.length_eq_zero_iff.1 (by omega), List.length_eq_zero_iff.1 (by omega)⟩
        exact ⟨[], t, rfl, rfl, by rw [hafter, hmore]; rfl⟩

/-- A rewriting with an inverse shows whether a text ended in a character that comes from itself
alone and a text that stays as it is. -/
theorem cons_isSuffix_flatMap_iff {c : Char} {pad : Text}
    (hinjective : Function.Injective fun t : Text => t.flatMap change) (hself : change c = [c])
    (honly : ∀ d, c ∈ change d → d = c) (hpad : pad.flatMap change = pad) :
    c :: pad <:+ t.flatMap change ↔ c :: pad <:+ t := by
  constructor
  · rintro ⟨before, h⟩
    obtain ⟨u, v, rfl, -, hv⟩ := exists_of_flatMap_eq hself honly h.symm
    have hvpad : v = pad := hinjective (hv.trans hpad.symm)
    exact ⟨u, by rw [hvpad]⟩
  · rintro ⟨u, rfl⟩
    refine ⟨u.flatMap change, ?_⟩
    rw [List.flatMap_append, List.flatMap_cons, hself, hpad, List.singleton_append]

/-- A text that stays as it is is as long before as after a rewriting. -/
theorem moved_length_sub {pad : Text} (hpad : pad.flatMap change = pad) (h : pad <:+ t) :
    moved change t (t.length - pad.length : Nat) = (t.flatMap change).length - pad.length := by
  obtain ⟨u, rfl⟩ := h
  rw [List.length_append, Nat.add_sub_cancel, moved_natCast, List.take_left, List.flatMap_append,
    hpad, List.length_append, Nat.add_sub_cancel]

/-! ## Escaping -/

/-- Each character is written as something. -/
theorem escapeChar_ne_nil (c : Char) : escapeChar c ≠ [] := by
  unfold escapeChar
  split_ifs <;> simp

/-- All characters but three stay as they are. -/
theorem escapeChar_eq_self {c : Char} (h : c ≠ '&' ∧ c ≠ '<' ∧ c ≠ '>') : escapeChar c = [c] := by
  obtain ⟨hamp, hlt, hgt⟩ := h
  rw [escapeChar, if_neg hlt, if_neg hgt, if_neg hamp]

/-- No line break is made from another character. -/
theorem eq_of_newline_mem_escapeChar {c : Char} (h : '\n' ∈ escapeChar c) : c = '\n' := by
  unfold escapeChar at h
  split_ifs at h
  · exact absurd h (by decide)
  · exact absurd h (by decide)
  · exact absurd h (by decide)
  · exact (List.mem_singleton.1 h).symm

/-- What is written for a character tells which one it is, whatever follows. -/
theorem escapeChar_append_inj {c d : Char} (h : escapeChar c ++ s = escapeChar d ++ t) :
    c = d ∧ s = t := by
  have hc : c = d := by
    unfold escapeChar at h
    split_ifs at h <;> simp_all <;> exact absurd h.1.symm ‹_›
  subst hc
  exact ⟨rfl, List.append_cancel_left h⟩

/-- A text can be read off from its escaped form. -/
theorem escape_injective : Function.Injective escape := by
  intro s
  induction s with
  | nil =>
    intro t h
    cases t with
    | nil => rfl
    | cons d t => simp [escape, escapeChar_ne_nil] at h
  | cons c s ih =>
    intro t h
    cases t with
    | nil => simp [escape, escapeChar_ne_nil] at h
    | cons d t =>
      obtain ⟨rfl, hrest⟩ := escapeChar_append_inj h
      rw [ih hrest]

end Abbrev.Text
