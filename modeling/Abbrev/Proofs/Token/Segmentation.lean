import Abbrev.Proofs.Token.Spelling

/-!
# The tokens of a source are its segmentation

What the tokens of a source are, said of their places in it and not of how they are read: each token
stands at its column, no two overlap, and no character is left out but U+0000 outside of quoted
texts and texts in braces; each lexeme fits what follows it in the source, and two words do not
touch. These conditions leave no choice (`Token.read_eq_ok_iff`): there is at most one segmentation
of a source, it is what is read, and a source without one cannot be read.

The conditions are about offsets in the whole source, while the reader goes from left to right. In
between stands `Token.Segments`, which the reader follows: it speaks of the rest of the source from
some offset on, and is a segmentation of that rest.
-/

namespace Abbrev.Token

/-- A token covers the character at an offset. -/
def Covers (t : Token) (i : Nat) : Prop :=
  t.column ≤ i ∧ i < t.stop

/-- The tokens are a segmentation of a source from the offset `start` on. -/
structure Segmentation (source : Text) (start : Nat) (ts : List Token) : Prop where
  /-- No token stands before the offset. -/
  behind : ∀ t ∈ ts, start ≤ t.column
  /-- Each token has characters, and they are those of the source at its column. -/
  placed : ∀ t ∈ ts, t.source ≠ [] ∧ Text.slice t.column t.stop source = t.source
  /-- Tokens stand in the order of their columns and do not overlap. -/
  ordered : ts.Pairwise fun t u => t.stop ≤ u.column
  /-- The characters that no token covers are the separators outside of verbatim texts. -/
  separators : ∀ i c, start ≤ i → source[i]? = some c →
    ((∀ t ∈ ts, ¬ t.Covers i) ↔
      c = '\x00' ∧ ∀ t ∈ ts, t.lexeme.isVerbatim = true → ¬ t.Covers i)
  /-- Each lexeme fits what follows it in the source. -/
  fits : ∀ t ∈ ts, t.lexeme.FitsBefore (source.drop t.stop)
  /-- There is a separator between two words. -/
  apart : ts.Pairwise fun t u =>
    t.lexeme.isWord = true → u.lexeme.isWord = true → t.stop < u.column

variable {source rest : Text} {start : Nat} {t : Token} {ts : List Token}

/-- A token stands at its column exactly if its characters come first there. -/
theorem slice_eq_iff : Text.slice t.column t.stop source = t.source ↔
    source.drop t.column = t.source ++ source.drop t.stop := by
  have hslice : Text.slice t.column t.stop source =
      (source.drop t.column).take t.source.length := by
    rw [Text.slice_natCast, List.drop_take, stop, Nat.add_sub_cancel_left]
  have hrest : source.drop t.stop = (source.drop t.column).drop t.source.length := by
    rw [List.drop_drop, stop]
  rw [hslice, hrest]
  constructor
  · intro h
    calc source.drop t.column
        = (source.drop t.column).take t.source.length ++
            (source.drop t.column).drop t.source.length := (List.take_append_drop _ _).symm
      _ = t.source ++ (source.drop t.column).drop t.source.length := by rw [h]
  · intro h
    rw [h, List.take_left]

/-- A token with characters ends behind its column. -/
theorem column_lt_stop (h : t.source ≠ []) : t.column < t.stop :=
  Nat.lt_add_of_pos_right (List.length_pos_iff.2 h)

/-- The character at an offset is the first one of the rest from there. -/
theorem getElem?_of_drop {c : Char} (h : source.drop start = c :: rest) :
    source[start]? = some c ∧ source.drop (start + 1) = rest := by
  refine ⟨?_, by rw [← List.drop_drop, h]; rfl⟩
  rw [← Nat.add_zero start, ← List.getElem?_drop, h]
  rfl

/-- No separator is part of a name, a number or a sign. -/
theorem separator_notMem {lexeme : Lexeme} (h : lexeme.FitsBefore rest)
    (hverbatim : lexeme.isVerbatim = false) : '\x00' ∉ lexeme.source := by
  intro hmem
  cases lexeme with
  | name value =>
    have hplus := wellFormed_of_fitsBefore h '\x00' hmem rfl
    cases hplus
  | number digits => cases h.2 '\x00' hmem
  | quoted quote body => cases hverbatim
  | braced body => cases hverbatim
  | punctuation sign => cases sign <;> cases hmem <;> contradiction
  | operator op => cases op <;> cases hmem <;> contradiction

/-! ## What is read is a segmentation -/

/-- A separator may go before a segmentation of what follows it. -/
theorem Segmentation.separator (hfirst : source[start]? = some '\x00')
    (h : Segmentation source (start + 1) ts) : Segmentation source start ts := by
  refine ⟨fun t ht => Nat.le_of_succ_le (h.behind t ht), h.placed, h.ordered, ?_, h.fits, h.apart⟩
  intro i c hi hc
  rcases Nat.eq_or_lt_of_le hi with rfl | hlt
  · have hfree : ∀ t ∈ ts, ¬ t.Covers start := fun t ht hcovers =>
      Nat.not_succ_le_self start (Nat.le_trans (h.behind t ht) hcovers.1)
    obtain rfl := Option.some.inj (hfirst.symm.trans hc)
    exact ⟨fun _ => ⟨rfl, fun t ht _ => hfree t ht⟩, fun _ => hfree⟩
  · exact h.separators i c hlt hc

/-- A token that fits what follows it may go before a segmentation of that. -/
theorem Segmentation.token (hcolumn : t.column = start)
    (htext : source.drop start = t.source ++ rest) (hfits : t.lexeme.FitsBefore rest)
    (hapart : t.lexeme.isWord = true → ∀ u ∈ ts, u.lexeme.isWord = true → t.stop < u.column)
    (h : Segmentation source t.stop ts) : Segmentation source start (t :: ts) := by
  subst hcolumn
  have hne : t.source ≠ [] := source_ne_nil hfits
  have hrest : source.drop t.stop = rest := by rw [stop, ← List.drop_drop, htext, List.drop_left]
  have hslice : Text.slice t.column t.stop source = t.source := by
    rw [slice_eq_iff, htext, hrest]
  have hbehind : ∀ u ∈ ts, t.column ≤ u.column := fun u hu =>
    Nat.le_trans (Nat.le_of_lt (column_lt_stop hne)) (h.behind u hu)
  refine ⟨List.forall_mem_cons.2 ⟨Nat.le_refl _, hbehind⟩,
    List.forall_mem_cons.2 ⟨⟨hne, hslice⟩, h.placed⟩,
    List.pairwise_cons.2 ⟨h.behind, h.ordered⟩, ?_,
    List.forall_mem_cons.2 ⟨hrest.symm ▸ hfits, h.fits⟩,
    List.pairwise_cons.2 ⟨fun u hu ht => hapart ht u hu, h.apart⟩⟩
  intro i c hi hc
  rcases Nat.lt_or_ge i t.stop with hinside | houtside
  · -- The token covers this character, which is no separator unless the token is verbatim.
    have hcovers : t.Covers i := ⟨hi, hinside⟩
    refine iff_of_false (fun hfree => hfree t List.mem_cons_self hcovers) ?_
    rintro ⟨rfl, hfree⟩
    cases hverbatim : t.lexeme.isVerbatim with
    | true => exact hfree t List.mem_cons_self hverbatim hcovers
    | false =>
      obtain ⟨n, rfl⟩ := Nat.exists_eq_add_of_le hi
      have hn : n < t.source.length := Nat.add_lt_add_iff_left.1 hinside
      rw [← List.getElem?_drop, htext, List.getElem?_append_left hn] at hc
      exact separator_notMem hfits hverbatim (List.mem_of_getElem? hc)
  · have hfree : ¬ t.Covers i := fun hcovers => Nat.not_lt.2 houtside hcovers.2
    have hmore := h.separators i c houtside hc
    simp only [List.forall_mem_cons, hfree, not_false_eq_true, true_and, implies_true]
    exact hmore

/-- Tokens of which the rest of a source consists are a segmentation of that rest. -/
theorem Segments.segmentation (h : Segments start rest ts) (hrest : source.drop start = rest) :
    Segmentation source start ts := by
  induction h with
  | @nil start =>
    refine ⟨List.forall_mem_nil _, List.forall_mem_nil _, .nil, ?_, List.forall_mem_nil _, .nil⟩
    intro i c hi hc
    have hend : source.length ≤ start := List.drop_eq_nil_iff.1 hrest
    obtain ⟨hlt, -⟩ := List.getElem?_eq_some_iff.1 hc
    omega
  | separator _ ih =>
    obtain ⟨hfirst, hmore⟩ := getElem?_of_drop hrest
    exact (ih hmore).separator hfirst
  | @token start lexeme rest ts hfits hapart _ ih =>
    have hmore : source.drop (start + lexeme.source.length) = rest := by
      rw [← List.drop_drop, hrest, List.drop_left]
    exact (ih hmore).token rfl hrest hfits hapart

/-- What is read of a source is a segmentation of it. -/
theorem segmentation_read (h : read source = .ok ts) : Segmentation source 0 ts :=
  (segments_readFrom h).segmentation rfl

/-- A token of a segmentation begins inside of the source. -/
theorem Segmentation.column_lt_length (h : Segmentation source start ts) (ht : t ∈ ts) :
    t.column < source.length := by
  obtain ⟨hne, hslice⟩ := h.placed t ht
  refine Nat.lt_of_not_le fun hend => hne ?_
  rw [slice_eq_iff, List.drop_eq_nil_of_le hend] at hslice
  exact (List.append_eq_nil_iff.1 hslice.symm).1

/-! ## A segmentation is what is read -/

/-- A character that no token covers may be left out at the front. -/
theorem Segmentation.of_separator (h : Segmentation source start ts)
    (hfree : ∀ t ∈ ts, ¬ t.Covers start) : Segmentation source (start + 1) ts := by
  refine ⟨fun t ht => ?_, h.placed, h.ordered, fun i c hi => h.separators i c (Nat.le_of_lt hi),
    h.fits, h.apart⟩
  refine Nat.lt_of_le_of_ne (h.behind t ht) ?_
  rintro rfl
  exact hfree t ht ⟨Nat.le_refl _, column_lt_stop (h.placed t ht).1⟩

/-- Behind its first token, a segmentation is one of what follows. -/
theorem Segmentation.of_token (h : Segmentation source start (t :: ts)) :
    Segmentation source t.stop ts := by
  obtain ⟨hbehind, hordered⟩ := List.pairwise_cons.1 h.ordered
  have hstart : start ≤ t.stop :=
    Nat.le_trans (h.behind t List.mem_cons_self) (Nat.le_add_right _ _)
  refine ⟨hbehind, (List.forall_mem_cons.1 h.placed).2, hordered, ?_,
    (List.forall_mem_cons.1 h.fits).2, (List.pairwise_cons.1 h.apart).2⟩
  intro i c hi hc
  have hfree : ¬ t.Covers i := fun hcovers => Nat.not_lt.2 hi hcovers.2
  have hall := h.separators i c (Nat.le_trans hstart hi) hc
  simp only [List.forall_mem_cons, hfree, not_false_eq_true, true_and, implies_true] at hall
  exact hall

/-- A token that covers the first character is the first token, and stands there. -/
theorem Segmentation.exists_first (h : Segmentation source start ts) (ht : t ∈ ts)
    (hcovers : t.Covers start) : t.column = start ∧ ∃ us, ts = t :: us := by
  have hcolumn : t.column = start := Nat.le_antisymm hcovers.1 (h.behind t ht)
  refine ⟨hcolumn, ?_⟩
  cases ts with
  | nil => cases ht
  | cons first us =>
    rcases List.mem_cons.1 ht with rfl | ht
    · exact ⟨us, rfl⟩
    · -- A token before it would stand there as well, and end behind the column.
      have hle := (List.pairwise_cons.1 h.ordered).1 t ht
      have hlt := column_lt_stop (h.placed first List.mem_cons_self).1
      have hstart := h.behind first List.mem_cons_self
      omega

/-- The rest of a source consists of the tokens of a segmentation of it. -/
theorem Segmentation.segments (h : Segmentation source start ts) :
    Segments start (source.drop start) ts := by
  -- Each step leaves a shorter rest, by a separator or by a token.
  induction hlength : source.length - start using Nat.strongRecOn generalizing start ts with
  | ind n ih =>
    cases hrest : source.drop start with
    | nil =>
      cases ts with
      | nil => exact .nil
      | cons t ts =>
        have hend : source.length ≤ start := List.drop_eq_nil_iff.1 hrest
        have hcolumn := h.behind t List.mem_cons_self
        have hinside := h.column_lt_length List.mem_cons_self
        omega
    | cons c rest =>
      have hlt : start < source.length := by
        have hpos := congrArg List.length hrest
        simp only [List.length_drop, List.length_cons] at hpos
        omega
      obtain ⟨hfirst, rfl⟩ := getElem?_of_drop hrest
      by_cases hfree : ∀ t ∈ ts, ¬ t.Covers start
      · obtain ⟨rfl, -⟩ := (h.separators start c (Nat.le_refl _) hfirst).1 hfree
        exact .separator (ih _ (by omega) (h.of_separator hfree) rfl)
      · obtain ⟨t, ht, hcovers⟩ : ∃ t ∈ ts, t.Covers start := by simpa using hfree
        obtain ⟨rfl, us, rfl⟩ := h.exists_first ht hcovers
        obtain ⟨hne, hslice⟩ := h.placed t ht
        have hstop := column_lt_stop hne
        have hmore := ih _ (by omega) h.of_token rfl
        have hapart := (List.pairwise_cons.1 h.apart).1
        rw [← hrest, slice_eq_iff.1 hslice]
        exact .token (h.fits t ht) (fun hword u hu => hapart u hu hword) hmore

/-- The tokens of a source are its segmentation: each of them stands at its column with characters
that fit it and what follows it, they are in order and do not overlap, they leave out no characters
but the separators outside of verbatim texts, and no two words touch. A source that has no such
tokens cannot be read. -/
theorem read_eq_ok_iff : read source = .ok ts ↔ Segmentation source 0 ts := by
  rw [read, readFrom_eq_ok_iff]
  exact ⟨fun h => h.segmentation rfl, Segmentation.segments⟩

end Abbrev.Token
