import Abbrev.Proofs.Expansion.Copies
import Abbrev.Proofs.Grammar.Unfinished

/-!
# Numbers of copies

How often something is copied is written behind a `*`. What is copied too often for an expansion is
written there (`Derives.counts_of_copies`), and so is a number with too many digits to be read
(`parse_counts_of_size`). There is no other way for an abbreviation to be too large, so whether one
can be is told by its tokens (`TooLarge`).
-/

namespace Abbrev.Grammar

variable {g : Grammar} {ts us : List Token} {a : Abbreviation} {digits : Text}

/-- The digits say how many copies there are: somewhere among the tokens they stand right behind a
`*`. -/
def Counts (ts : List Token) (digits : Text) : Prop :=
  ∃ before c d after, ts = before ++ ⟨.operator .times, c⟩ :: ⟨.number digits, d⟩ :: after

namespace Counts

/-- More tokens may stand behind. -/
theorem append_right (h : Counts ts digits) (us : List Token) : Counts (ts ++ us) digits := by
  obtain ⟨before, c, d, after, rfl⟩ := h
  exact ⟨before, c, d, after ++ us, by simp⟩

/-- More tokens may stand in front. -/
theorem append_left (h : Counts us digits) (ts : List Token) : Counts (ts ++ us) digits := by
  obtain ⟨before, c, d, after, rfl⟩ := h
  exact ⟨ts ++ before, c, d, after, by simp⟩

/-- One more token may stand in front. -/
theorem cons (h : Counts us digits) (t : Token) : Counts (t :: us) digits :=
  h.append_left [t]

end Counts

/-- A number of copies is too large to be read, or too large for so many copies. -/
def TooLarge (ts : List Token) : Prop :=
  ∃ digits, Counts ts digits ∧ (4300 < digits.length ∨ 2 ^ 60 ≤ Text.decimal digits)

/-- A number of copies that is too large stands behind a `*`. -/
theorem TooLarge.exists_times (h : TooLarge ts) : ∃ c, ⟨.operator .times, c⟩ ∈ ts := by
  obtain ⟨digits, ⟨before, c, d, after, rfl⟩, -⟩ := h
  exact ⟨c, by simp⟩

/-! ## Numbers that are read -/

/-- Under a repetition, a group changes nothing about what is copied. -/
theorem Repeats.copies_iff {b : Abbreviation} (h : Repeats a b) (count : Nat) :
    b.Copies count ↔ a.Copies count := by
  cases h <;> exact Iff.rfl

/-- What is copied is written as a number of copies. -/
theorem Derives.counts_of_copies {p : Phrase} {count : Nat} (h : Derives g p ts a)
    (hcopies : a.Copies count) : ∃ digits, Counts ts digits ∧ Text.decimal digits = count := by
  induction h with
  | text => cases hcopies
  | element hform => cases hform <;> cases hcopies
  | group _ ih =>
    obtain ⟨digits, hcounts, hvalue⟩ := ih hcopies
    exact ⟨digits, (hcounts.cons _).append_right _, hvalue⟩
  | once _ ih | single _ ih => exact ih hcopies
  | perLine _ hrepeats ih =>
    obtain ⟨digits, hcounts, hvalue⟩ := ih ((hrepeats.copies_iff count).1 hcopies)
    exact ⟨digits, hcounts.append_right _, hvalue⟩
  | @times ts c d digits a b _ hrepeats _ ih =>
    rcases hcopies with rfl | ⟨-, hcopies⟩
    · exact ⟨digits, ⟨ts, c, d, [], rfl⟩, rfl⟩
    · obtain ⟨digits, hcounts, hvalue⟩ := ih ((hrepeats.copies_iff count).1 hcopies)
      exact ⟨digits, hcounts.append_right _, hvalue⟩
  | leadingClimb _ ih =>
    obtain hcopies | hcopies := hcopies
    · cases hcopies
    · obtain ⟨digits, hcounts, hvalue⟩ := ih hcopies
      exact ⟨digits, hcounts.cons _, hvalue⟩
  | sibling _ _ ihLeft ihRight | climb _ _ ihLeft ihRight =>
    obtain hcopies | hcopies := hcopies
    · obtain ⟨digits, hcounts, hvalue⟩ := ihLeft hcopies
      exact ⟨digits, hcounts.append_right _, hvalue⟩
    · obtain ⟨digits, hcounts, hvalue⟩ := ihRight hcopies
      exact ⟨digits, (hcounts.cons _).append_left _, hvalue⟩
  | child _ _ ihLeft ihRight =>
    obtain hcopies | ⟨-, hcopies⟩ := hcopies
    · obtain ⟨digits, hcounts, hvalue⟩ := ihLeft hcopies
      exact ⟨digits, hcounts.append_right _, hvalue⟩
    · obtain ⟨digits, hcounts, hvalue⟩ := ihRight hcopies
      exact ⟨digits, (hcounts.cons _).append_left _, hvalue⟩

/-- What is copied in an abbreviation with suffixes is written as a number of copies. -/
theorem SuffixedForm.counts_of_copies {count : Nat} (h : SuffixedForm g ts a)
    (hcopies : a.Copies count) : ∃ digits, Counts ts digits ∧ Text.decimal digits = count := by
  induction h with
  | bare hderives => exact hderives.counts_of_copies hcopies
  | suffix _ _ ih =>
    obtain ⟨digits, hcounts, hvalue⟩ := ih hcopies
    exact ⟨digits, hcounts.append_right _, hvalue⟩

/-! ## Numbers that are not read -/

/-- No size is amiss behind the beginning of attributes. -/
theorem AttributesUnfinished.cause_ne {cause : ParseCause} (h : AttributesUnfinished ts cause)
    (e : SizeError) : cause ≠ .size e := by
  induction h with
  | more _ _ _ _ ih => exact ih
  | _ => rintro ⟨⟩

/-- No size is amiss behind the beginning of an element. -/
theorem ElementUnfinished.cause_ne {cause : ParseCause} (h : ElementUnfinished g ts cause)
    (e : SizeError) : cause ≠ .size e := by
  have hselector {us : List Token} {cause : ParseCause} (h : SelectorUnfinished us cause) :
      cause ≠ .size e := by
    cases h with
    | attributes _ hattributes => exact hattributes.cause_ne e
    | _ => rintro ⟨⟩
  cases h with
  | named _ _ h => exact hselector h
  | unnamed _ _ h => exact hselector h
  | _ => rintro ⟨⟩

/-- A beginning behind which a size is amiss has a number of copies with too many digits. -/
theorem PhraseUnfinished.counts_of_size {p : Phrase} {e : SizeError}
    (h : PhraseUnfinished g p ts (.size e)) :
    ∃ digits, Counts ts digits ∧ 4300 < digits.length ∧ e = .digits digits.length := by
  generalize hcause : ParseCause.size e = cause at h
  induction h with
  | element hform => exact absurd hcause.symm (hform.cause_ne e)
  | primary _ ih => exact ih hcause
  | group _ ih | leadingClimb _ ih =>
    obtain ⟨digits, hcounts, h⟩ := ih hcause
    exact ⟨digits, hcounts.cons _, h⟩
  | @numeral ts c d digits a _ hlong =>
    exact ⟨digits, ⟨ts, c, d, [], rfl⟩, hlong, ParseCause.size.inj hcause⟩
  | joined _ _ _ ih =>
    obtain ⟨digits, hcounts, h⟩ := ih hcause
    exact ⟨digits, (hcounts.cons _).append_left _, h⟩
  | _ => exact nomatch hcause

/-- Tokens that are not read for a size have a number of copies with too many digits. -/
theorem parseTokens_counts_of_size {e : SizeError} {place : Option Place}
    (h : g.parseTokens ts = .error ⟨.size e, place⟩) :
    ∃ digits, Counts ts digits ∧ 4300 < digits.length ∧ e = .digits digits.length := by
  unfold parseTokens at h
  dsimp only at h
  split at h
  · cases h
  · split at h
    · next halt hread =>
      obtain ⟨us, hts, hstop⟩ := abbreviation_stops hread
      rw [(ParseError.mk.inj (Except.error.inj h)).1] at hstop
      cases hstop with
      | expression hphrase =>
        obtain ⟨digits, hcounts, h⟩ := hphrase.counts_of_size
        exact ⟨digits, hts ▸ hcounts.append_right _, h⟩
    · split at h
      · cases h
      · split at h <;> cases h

/-- An error of a source is one of its tokens if it is a size. -/
theorem exists_of_ofParse {e : ParseError} {e' : SizeError} (h : ReadError.ofParse e = .size e') :
    ∃ place, e = ⟨.size e', place⟩ := by
  obtain ⟨cause, place⟩ := e
  unfold ReadError.ofParse at h
  split at h
  · next e'' hcause =>
    obtain rfl := ReadError.size.inj h
    exact ⟨place, congrArg (ParseError.mk · place) hcause⟩
  · cases h

/-- A source that is not read for a size has such a number among its tokens. -/
theorem parse_counts_of_size {source : Text} {e : SizeError}
    (h : g.parse source = .error (.size e)) :
    ∃ ts digits, Token.read source = .ok ts ∧ Counts ts digits ∧ 4300 < digits.length ∧
      e = .digits digits.length := by
  unfold parse at h
  split at h
  · cases h
  · next ts hread =>
    split at h
    · next hparse =>
      obtain ⟨place, rfl⟩ := exists_of_ofParse (Except.error.inj h)
      obtain ⟨digits, h⟩ := parseTokens_counts_of_size hparse
      exact ⟨ts, digits, hread, h⟩
    · cases h

/-! ## Sources that are too large -/

/-- If a source is not read for a size, a number of copies in it is too large. -/
theorem tooLarge_of_size {source : Text} {e : SizeError}
    (h : g.parse source = .error (.size e)) : ∃ ts, Token.read source = .ok ts ∧ TooLarge ts := by
  obtain ⟨ts, digits, hread, hcounts, hlong, -⟩ := parse_counts_of_size h
  exact ⟨ts, hread, digits, hcounts, .inl hlong⟩

/-- If something in a source is copied too often, a number of copies in it is too large. -/
theorem tooLarge_of_oversized {source : Text} (h : g.parse source = .ok a) (hsize : a.Oversized) :
    ∃ ts, Token.read source = .ok ts ∧ TooLarge ts := by
  obtain ⟨ts, hread, hparse⟩ := parse_eq_ok_iff.1 h
  obtain ⟨count, hcopies, hcount⟩ := hsize
  obtain ⟨digits, hcounts, rfl⟩ := (parseTokens_sound hparse).1.counts_of_copies hcopies
  exact ⟨ts, hread, digits, hcounts, .inr hcount⟩

end Abbrev.Grammar
