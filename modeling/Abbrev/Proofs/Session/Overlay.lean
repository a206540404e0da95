import Abbrev.Profile.Environment
import Abbrev.Proofs.Fallible
import Abbrev.Proofs.Text.Numerals
import Mathlib.Control.Monad.Basic
import Mathlib.Data.List.TakeWhile

/-!
# What the environment makes of a profile

Each of four variables of the environment stands for one field of a profile. A field keeps its value
if its variable is not set, and otherwise has the value that the text of the variable says, if it
says one (`Sets`). The whole profile is the four fields taken by themselves
(`Environment.overlay_eq_ok_iff`), so it is refused exactly if one of the texts says nothing: the
quote is neither named nor a quote, the closing style is unknown, or the indent consists of digits
that are no number of spaces. One of them is no decimal digit, as in a superscript, or there are too
many digits to be read or too many spaces to be written (`Overrides.toOption_indentOf_eq_none_iff`).
All else about the profile follows field by field: a variable that is not set changes nothing, and
to overlay the environment once more changes nothing either (`Environment.overlay_outcome`).
-/

namespace Abbrev

/-! ## One field -/

section Field

variable {α : Type} {value : Text → Option α} {text : Option Text} {old new : α}

/-- A field that was `old` is `new` once a text is set for it or not, where `value` is what a text
says. -/
def Sets (value : Text → Option α) (text : Option Text) (old new : α) : Prop :=
  match text with
  | none => new = old
  | some t => value t = some new

/-- A field keeps its value if no text is set for it. -/
theorem Sets.eq_of_none (h : Sets value text old new) (hnone : text = none) : new = old := by
  subst hnone
  exact h

/-- The same text sets the same value once more. -/
theorem Sets.again (h : Sets value text old new) : Sets value text new new := by
  cases text with
  | none => exact rfl
  | some t => exact h

/-- A field has no value exactly if a text is set that says none. -/
theorem not_exists_sets_iff :
    (¬ ∃ new, Sets value text old new) ↔ ∃ t, text = some t ∧ value t = none := by
  cases text with
  | none => simp [Sets]
  | some t => simp [Sets, Option.eq_none_iff_forall_ne_some]

/-- Where a field is written as a text and read again, a text that stands for it may be put in its
place before it is read. -/
theorem sets_iff_getD {β : Type} (read : β → Option α) (write : α → β)
    (hread : ∀ a, read (write a) = some a) (meaning : Text → β) (text : Option Text)
    (old new : α) :
    Sets (fun t => read (meaning t)) text old new ↔
      read ((text.map meaning).getD (write old)) = some new := by
  cases text with
  | none => simp [Sets, hread, eq_comm]
  | some t => exact Iff.rfl

/-- A field whose text may be refused is set if its text is not refused. -/
theorem sets_iff_mapM {ε : Type} (meaning : Text → Except ε α) (text : Option Text)
    (old new : α) :
    Sets (fun t => (meaning t).toOption) text old new ↔
      ∃ found, text.mapM meaning = .ok found ∧ found.getD old = new := by
  cases text with
  | none => simp [Sets, pure, Except.pure, eq_comm]
  | some t =>
    cases hmeaning : meaning t <;>
      simp [Sets, hmeaning, Except.toOption, Except.map, Functor.map]

end Field

/-! ## What the texts say -/

/-- A quote is read from its character. -/
@[simp] theorem Quote.ofText?_sign (quote : Quote) : ofText? [quote.sign] = some quote := by
  cases quote <;> rfl

/-- A text is a quote if it is one of the two characters. -/
theorem Quote.ofText?_eq_none_iff {t : Text} :
    ofText? t = none ↔ t ≠ [Quote.double.sign] ∧ t ≠ [Quote.single.sign] := by
  unfold ofText?
  split
  · next h => simp [h, sign]
  · next h =>
    split
    · next h' => simp [h', sign]
    · next h' => exact iff_of_true rfl ⟨h, h'⟩

/-- A closing style is read from its name. -/
@[simp] theorem ClosingStyle.ofName?_name (style : ClosingStyle) :
    ofName? style.name = some style := by
  cases style <;> decide

/-- A text names a closing style if it is one of the three names. -/
theorem ClosingStyle.ofName?_eq_none_iff {t : Text} :
    ofName? t = none ↔ t ∉ ["html".toList, "xhtml".toList, "xml".toList] := by
  have hnames : ["html".toList, "xhtml".toList, "xml".toList] = [html, xhtml, xml].map name := rfl
  unfold ofName?
  rw [hnames, List.find?_eq_none, List.mem_map]
  generalize [html, xhtml, xml] = styles
  simp

namespace Overrides

/-- The text for a quote says a quote unless it is neither the name of one nor a quote itself. -/
theorem ofText?_quoteOf_eq_none_iff {t : Text} :
    Quote.ofText? (quoteOf t) = none ↔
      Text.lower t ≠ "single".toList ∧ Text.lower t ≠ "double".toList ∧
        t ≠ [Quote.double.sign] ∧ t ≠ [Quote.single.sign] := by
  unfold quoteOf
  dsimp only
  split
  · next h => simp [h]
  · next h =>
    split
    · next h' => simp [h']
    · next h' =>
      rw [Quote.ofText?_eq_none_iff]
      exact ⟨fun hquote => ⟨h, h', hquote⟩, fun hquote => hquote.2.2⟩

/-- So many spaces can be written unless they and the text around them are `2 ^ 63` bytes or more.
-/
theorem toOption_spaces_eq_none_iff {count : Nat} :
    (spaces count).toOption = none ↔ 2 ^ 63 ≤ count + 49 := by
  unfold spaces SizeError.ofCopies? SizeError.indexLimit
  split_ifs with hindex hmemory
  · exact iff_of_true rfl (by omega)
  · exact iff_of_true rfl (by omega)
  · exact iff_of_false nofun (by omega)

/-- Digits say an indent unless one of them is no decimal digit, or there are too many of them, or
they denote too many spaces. -/
theorem toOption_indentOf_of_digits {t : Text} (hne : t ≠ [])
    (hdigits : ∀ c ∈ t, Text.isDigit c = true) :
    (indentOf t).toOption = none ↔
      (∃ c ∈ t, Text.isDecimal c = false) ∨ 4300 < t.length ∨
        2 ^ 63 ≤ Text.positional Text.worth t + 49 := by
  have hall : (!t.isEmpty && t.all Text.isDigit) = true := by simpa [hne] using hdigits
  have hoverlong := Text.isSome_overlong?_iff hdigits
  unfold indentOf
  rw [if_pos hall]
  by_cases hdecimal : ∀ c ∈ t, Text.isDecimal c = true
  · have hnone : ¬ ∃ c ∈ t, Text.isDecimal c = false := by simpa using hdecimal
    have hlength : (t.takeWhile Text.isDecimal).length = t.length := by
      rw [List.takeWhile_eq_self_iff.2 hdecimal]
    rw [hlength] at hoverlong
    rw [or_iff_right hnone, Text.readInt?_of_decimal hne hdecimal]
    cases hover : Text.overlong? t with
    | some e =>
      rw [hover] at hoverlong
      exact iff_of_true rfl (.inl (hoverlong.1 rfl))
    | none =>
      have hshort : ¬ 4300 < t.length := by
        intro hlong
        rw [hover] at hoverlong
        cases hoverlong.2 hlong
      rw [or_iff_right hshort, ← toOption_spaces_eq_none_iff]
      cases hspaces : spaces (Text.positional Text.worth t) <;>
        simp [hspaces, Except.mapError, Except.toOption]
  · -- A digit that is not decimal is refused, if not for the number of digits before it.
    have hsome : ∃ c ∈ t, Text.isDecimal c = false := by simpa using hdecimal
    have hread : Text.readInt? t = none := by
      have h := Text.isSome_readInt?_iff hdigits
      cases hread : Text.readInt? t with
      | none => rfl
      | some n => exact absurd (h.1 (hread ▸ rfl)).2 hdecimal
    rw [hread]
    refine iff_of_true ?_ (.inl hsome)
    cases Text.overlong? t <;> rfl

/-- The text for an indent says one unless it consists of digits that are no number of spaces: one
of them is no decimal digit, or there are too many of them, or they denote too many spaces. -/
theorem toOption_indentOf_eq_none_iff {t : Text} :
    (indentOf t).toOption = none ↔
      t ≠ [] ∧ (∀ c ∈ t, Text.isDigit c = true) ∧
        ((∃ c ∈ t, Text.isDecimal c = false) ∨ 4300 < t.length ∨
          2 ^ 63 ≤ Text.positional Text.worth t + 49) := by
  by_cases h : t ≠ [] ∧ ∀ c ∈ t, Text.isDigit c = true
  · rw [toOption_indentOf_of_digits h.1 h.2, ← and_assoc, and_iff_right h]
  · have hnot : ¬ (!t.isEmpty && t.all Text.isDigit) = true := by simpa using h
    unfold indentOf
    rw [if_neg hnot, ← and_assoc]
    exact iff_of_false nofun fun hall => h hall.1

end Overrides

/-! ## The whole profile -/

namespace Profile

/-- A profile is made from texts if both say something. -/
theorem withTexts_eq_ok_iff {base profile : Profile} {quote closing : Text} :
    base.withTexts quote closing = .ok profile ↔
      ∃ q style, Quote.ofText? quote = some q ∧ ClosingStyle.ofName? closing = some style ∧
        { base with quote := q, closing := style } = profile := by
  unfold withTexts
  cases ClosingStyle.ofName? closing with
  | none => simp
  | some style => cases Quote.ofText? quote <;> simp

end Profile

namespace Environment

/-- A profile with what the variables of the environment set. -/
def overlay (env : Environment) (base : Profile) : Except ProfileError Profile := do
  base.override (← Overrides.ofEnvironment env)

variable {env : Environment} {base profile : Profile}

/-- The environment makes of a profile what its variables make of the fields. -/
theorem overlay_eq_ok_iff : env.overlay base = .ok profile ↔
    profile.newline = base.newline ∧
    Sets (fun t => (Overrides.indentOf t).toOption) (env.get? "ZEN_REF_INDENT")
      base.indent profile.indent ∧
    Sets (fun t => Quote.ofText? (Overrides.quoteOf t)) (env.get? "ZEN_REF_ATTR_QUOTE")
      base.quote profile.quote ∧
    Sets (fun t => ClosingStyle.ofName? (Text.lower t)) (env.get? "ZEN_REF_SELF_CLOSING")
      base.closing profile.closing ∧
    Sets (fun t => some (!offWords.contains (Text.lower (Text.trim t))))
      (env.get? "ZEN_REF_FORMAT") base.format profile.format := by
  unfold overlay Overrides.ofEnvironment
  rw [sets_iff_mapM, sets_iff_getD Quote.ofText? (fun quote => [quote.sign]) Quote.ofText?_sign,
    sets_iff_getD ClosingStyle.ofName? ClosingStyle.name ClosingStyle.ofName?_name,
    sets_iff_getD some id fun _ => rfl]
  constructor
  · intro h
    obtain ⟨overrides, hoverrides, h⟩ := bind_eq_ok.1 h
    obtain ⟨indent, hindent, hoverrides⟩ := bind_eq_ok.1 hoverrides
    obtain rfl := Except.ok.inj hoverrides
    obtain ⟨quote, style, hquote, hstyle, rfl⟩ := Profile.withTexts_eq_ok_iff.1 h
    exact ⟨rfl, ⟨indent, hindent, rfl⟩, hquote, hstyle, rfl⟩
  · obtain ⟨pindent, newline, quote, style, format⟩ := profile
    rintro ⟨rfl, ⟨indent, hindent, rfl⟩, hquote, hstyle, hformat⟩
    obtain rfl := Option.some.inj hformat
    refine bind_eq_ok.2 ⟨_, bind_eq_ok.2 ⟨indent, hindent, rfl⟩, ?_⟩
    exact Profile.withTexts_eq_ok_iff.2 ⟨quote, style, hquote, hstyle, rfl⟩

/-- The environment makes a profile if each field has a value; the format always has one. -/
theorem exists_overlay_iff : (∃ profile, env.overlay base = .ok profile) ↔
    (∃ quote, Sets (fun t => Quote.ofText? (Overrides.quoteOf t))
      (env.get? "ZEN_REF_ATTR_QUOTE") base.quote quote) ∧
    (∃ closing, Sets (fun t => ClosingStyle.ofName? (Text.lower t))
      (env.get? "ZEN_REF_SELF_CLOSING") base.closing closing) ∧
    ∃ indent, Sets (fun t => (Overrides.indentOf t).toOption)
      (env.get? "ZEN_REF_INDENT") base.indent indent := by
  constructor
  · rintro ⟨profile, h⟩
    obtain ⟨-, hindent, hquote, hclosing, -⟩ := overlay_eq_ok_iff.1 h
    exact ⟨⟨_, hquote⟩, ⟨_, hclosing⟩, ⟨_, hindent⟩⟩
  · rintro ⟨⟨quote, hquote⟩, ⟨closing, hclosing⟩, ⟨indent, hindent⟩⟩
    have hformat := (sets_iff_getD some id (fun _ => rfl)
      (fun t => !offWords.contains (Text.lower (Text.trim t))) (env.get? "ZEN_REF_FORMAT")
      base.format _).2 rfl
    exact ⟨⟨indent, base.newline, quote, closing, _⟩,
      overlay_eq_ok_iff.2 ⟨rfl, hindent, hquote, hclosing, hformat⟩⟩

/-- An environment makes no profile exactly if it sets a quote that is neither named, in any case,
nor a quote, or a closing style that is unknown in lower case, or an indent of digits of which one
is no decimal digit, or of more than 4300 digits, or of so many spaces that they take `2 ^ 63` bytes
with the 49 of the text around them; no other indent and no text for the format is refused. And
where it makes a profile, the fields whose variables are not set stay as they were, and the same
environment makes the same of it once more. -/
theorem overlay_outcome (env : Environment) (base : Profile) :
    ((∃ e, env.overlay base = .error e) ↔
      (∃ t, env.get? "ZEN_REF_ATTR_QUOTE" = some t ∧ Text.lower t ≠ "single".toList ∧
        Text.lower t ≠ "double".toList ∧ t ≠ [Quote.double.sign] ∧ t ≠ [Quote.single.sign]) ∨
      (∃ t, env.get? "ZEN_REF_SELF_CLOSING" = some t ∧
        Text.lower t ∉ ["html".toList, "xhtml".toList, "xml".toList]) ∨
      ∃ t, env.get? "ZEN_REF_INDENT" = some t ∧ t ≠ [] ∧ (∀ c ∈ t, Text.isDigit c = true) ∧
        ((∃ c ∈ t, Text.isDecimal c = false) ∨ 4300 < t.length ∨
          2 ^ 63 ≤ Text.positional Text.worth t + 49)) ∧
    ∀ profile, env.overlay base = .ok profile →
      profile.newline = base.newline ∧
      (env.get? "ZEN_REF_INDENT" = none → profile.indent = base.indent) ∧
      (env.get? "ZEN_REF_ATTR_QUOTE" = none → profile.quote = base.quote) ∧
      (env.get? "ZEN_REF_SELF_CLOSING" = none → profile.closing = base.closing) ∧
      (env.get? "ZEN_REF_FORMAT" = none → profile.format = base.format) ∧
      env.overlay profile = .ok profile := by
  constructor
  · rw [exists_error_iff, exists_overlay_iff, Classical.not_and_iff_not_or_not,
      Classical.not_and_iff_not_or_not, not_exists_sets_iff, not_exists_sets_iff,
      not_exists_sets_iff]
    simp only [Overrides.ofText?_quoteOf_eq_none_iff, ClosingStyle.ofName?_eq_none_iff,
      Overrides.toOption_indentOf_eq_none_iff]
  · intro profile h
    obtain ⟨hnewline, hindent, hquote, hclosing, hformat⟩ := overlay_eq_ok_iff.1 h
    refine ⟨hnewline, hindent.eq_of_none, hquote.eq_of_none, hclosing.eq_of_none,
      hformat.eq_of_none, overlay_eq_ok_iff.2 ?_⟩
    exact ⟨rfl, hindent.again, hquote.again, hclosing.again, hformat.again⟩

/-- The smallest number of spaces that is no index any more. -/
example : (⟨[("ZEN_REF_INDENT", "9223372036854775808".toList)]⟩ : Environment).overlay {} =
    .error (.size .index) := by decide

/-- Three of the four variables, with a name in capitals and one with a capital. -/
def sampleOverlay : Environment :=
  ⟨[("ZEN_REF_INDENT", "2".toList), ("ZEN_REF_ATTR_QUOTE", "Single".toList),
    ("ZEN_REF_SELF_CLOSING", "XML".toList)]⟩

/-- The profile that the three variables make of one without line breaks, which keeps its format. -/
theorem overlay_outcome_sampleOverlay :
    sampleOverlay.overlay { format := false } =
      .ok { indent := "  ".toList, quote := .single, closing := .xml, format := false } ∧
    sampleOverlay.get? "ZEN_REF_FORMAT" = none ∧
    sampleOverlay.overlay
        { indent := "  ".toList, quote := .single, closing := .xml, format := false } =
      .ok { indent := "  ".toList, quote := .single, closing := .xml, format := false } := by
  have hmade : sampleOverlay.overlay { format := false } =
      .ok { indent := "  ".toList, quote := .single, closing := .xml, format := false } := by
    decide
  obtain ⟨-, -, -, -, -, hagain⟩ := (overlay_outcome sampleOverlay { format := false }).2 _ hmade
  exact ⟨hmade, rfl, hagain⟩

/-- A superscript is a digit and no numeral, so it is refused as an indent, with no quote and no
closing style set. -/
theorem overlay_superscript :
    (⟨[("ZEN_REF_INDENT", ['²'])]⟩ : Environment).overlay {} = .error (.badIndent ['²']) ∧
    (⟨[("ZEN_REF_INDENT", ['²'])]⟩ : Environment).get? "ZEN_REF_ATTR_QUOTE" = none ∧
    (⟨[("ZEN_REF_INDENT", ['²'])]⟩ : Environment).get? "ZEN_REF_SELF_CLOSING" = none := by
  refine ⟨?_, rfl, rfl⟩
  decide

end Environment

end Abbrev
