import Abbrev.Proofs.Grammar.Unfinished
import Abbrev.Proofs.Token.Segmentation

/-!
# Errors point into the source

Where an error of the parser is reported, said of the tokens of the source and of the source itself
(`parse_error_place`). An error at a token is reported where this token is spelled, and the tokens
before it are the beginning of an abbreviation that cannot go on; only a text that the generator has
no place for is reported before anything is read. An error at the end of the input is reported
behind the last token, when none of the tokens is left and all of them are such a beginning. An
error without a place is about the whole source: it is a text with nothing but suffixes behind it.

The place is chosen from the tokens that are left (`unread`), so that all that is needed of the
readers is which tokens they have taken (`abbreviation_stops`, `abbreviation_sound`). The source
comes in by the segmentation that its tokens are.
-/

namespace Abbrev.Grammar

variable {g : Grammar} {ts us : List Token} {halt : Halt}

/-! ## Bare texts -/

/-- `braced ('|' name)*`, where the names are suffixes that the grammar allows. -/
inductive BareText (g : Grammar) : List Token → Prop where
  | text {c : Nat} {body : Text} : BareText g [⟨.braced body, c⟩]
  | suffix {ts : List Token} {c d : Nat} {name : Text} :
      BareText g ts → (∀ allowed ∈ g.suffixes, name ∈ allowed) →
      BareText g (ts ++ [⟨.punctuation .bar, c⟩, ⟨.name name, d⟩])

/-- A phrase that stands for a text is this text in braces. -/
theorem Derives.eq_braced {p : Phrase} {a : Abbreviation} {body : Text} (h : Derives g p ts a)
    (ha : a.unfiltered = .text body) : ∃ c, ts = [⟨.braced body, c⟩] := by
  induction h with
  | @text c body =>
    obtain rfl := Abbreviation.text.inj ha
    exact ⟨c, rfl⟩
  | element hform => cases hform <;> cases ha
  | once _ ih => exact ih ha
  | single _ ih => exact ih ha
  | _ => cases ha

/-- The tokens of bare texts are those that derive one. -/
theorem bareText_iff : BareText g ts ↔ ∃ a, SuffixedForm g ts a ∧ isBareText a = true := by
  constructor
  · intro h
    induction h with
    | text => exact ⟨_, .bare (.single (.once .text)), rfl⟩
    | suffix _ hname ih =>
      obtain ⟨a, hform, hbare⟩ := ih
      exact ⟨_, .suffix hform hname, hbare⟩
  · rintro ⟨a, hform, hbare⟩
    induction hform with
    | bare hexpression =>
      obtain ⟨body, hbody⟩ := (isBareText_iff _).1 hbare
      obtain ⟨c, rfl⟩ := hexpression.eq_braced hbody
      exact .text
    | suffix _ hname ih => exact .suffix (ih hbare) hname

/-! ## The tokens that are left -/

/-- The tokens that are left where reading an expression and its suffixes ends or stops. -/
def unread (g : Grammar) (ts : List Token) : List Token :=
  match (do let (a, rest) ← g.expression ts; g.suffixed a rest.1) with
  | .error halt => halt.rest
  | .ok (_, rest) => rest

/-! ## Places among the tokens -/

/-- A text in braces is the first one, and it is refused for the sake of the generator. -/
def FirstText (g : Grammar) (before : List Token) (t : Token) (cause : ParseCause) : Prop :=
  (∃ generator ∈ g.generator, generator.supportsText = false ∧
      cause = .textUnsupported generator.name) ∧
    (∃ body, t.lexeme = .braced body) ∧ ∀ u ∈ before, ∀ body, u.lexeme ≠ .braced body

/-- What an error says of the tokens by its place. A token is the first one that is left behind the
beginning of an abbreviation, or a text that is refused; at the end of the input none is left; and
without a place there is a bare text. -/
def PlacedIn (g : Grammar) (ts : List Token) (e : ParseError) : Prop :=
  match e.place with
  | some (.token t) => ∃ before after, ts = before ++ t :: after ∧
      (g.unread ts = t :: after ∧ Unfinished g before e.cause ∨ FirstText g before t e.cause)
  | some (.endOfInput column) =>
      column = Token.endColumn ts ∧ g.unread ts = [] ∧ Unfinished g ts e.cause
  | none => BareText g ts

/-- The place is the first token that is left behind the beginning of an abbreviation. -/
theorem placedIn_halt (hts : ts = us ++ halt.rest) (hunread : g.unread ts = halt.rest)
    (hstop : Unfinished g us halt.cause) :
    PlacedIn g ts ⟨halt.cause, some (halt.place (Token.endColumn ts))⟩ := by
  obtain ⟨cause, rest⟩ := halt
  cases rest with
  | nil => exact ⟨rfl, hunread, by simpa [hts] using hstop⟩
  | cons t after => exact ⟨us, after, hts, .inl ⟨hunread, hstop⟩⟩

/-- A text that is complained about is the first one, and the generator has no place for it. -/
theorem unsupportedText?_eq_some {generator : Generator} {t : Token}
    (h : g.unsupportedText? ts = some (generator, t)) :
    ∃ before after, ts = before ++ t :: after ∧
      FirstText g before t (.textUnsupported generator.name) := by
  unfold unsupportedText? at h
  split at h
  · next found hgenerator =>
    split at h
    · cases h
    · next hsupports =>
      obtain ⟨u, hfind, hu⟩ := Option.map_eq_some_iff.1 h
      obtain ⟨rfl, rfl⟩ := Prod.mk.inj hu
      obtain ⟨hbraced, before, after, hts, hbefore⟩ := List.find?_eq_some_iff_append.1 hfind
      refine ⟨before, after, hts, ⟨found, hgenerator, by simpa using hsupports, rfl⟩, ?_, ?_⟩
      · split at hbraced
        · next body hlexeme => exact ⟨body, hlexeme⟩
        · cases hbraced
      · rintro u hu body hlexeme
        have := hbefore u hu
        simp [hlexeme] at this
  · cases h

/-- An error is reported at the place among the tokens where it belongs. -/
theorem parseTokens_placedIn {e : ParseError} (h : g.parseTokens ts = .error e) :
    PlacedIn g ts e := by
  unfold parseTokens at h
  dsimp only at h
  split at h
  · next generator t htext =>
    obtain rfl := Except.error.inj h
    obtain ⟨before, after, hts, hfirst⟩ := unsupportedText?_eq_some htext
    exact ⟨before, after, hts, .inr hfirst⟩
  · split at h
    · next halt hread =>
      obtain rfl := Except.error.inj h
      obtain ⟨us, hts, hstop⟩ := abbreviation_stops hread
      exact placedIn_halt hts (by unfold unread; rw [hread]) hstop
    · next a rest hread =>
      obtain ⟨us, hts, hform⟩ := abbreviation_sound hread
      split at h
      · obtain rfl := Except.error.inj h
        exact placedIn_halt hts (by unfold unread; rw [hread]) (.whole hform)
      · next hrest =>
        split at h
        · next hbare =>
          obtain rfl := Except.error.inj h
          obtain rfl : rest = [] := by simpa using hrest
          rw [List.append_nil] at hts
          exact bareText_iff.2 ⟨a, hts ▸ hform, hbare⟩
        · cases h

/-- A bare text is refused as one, if it may hold texts. -/
theorem parseTokens_bareText (hbare : BareText g ts) (htexts : TextsAllowed g ts) :
    g.parseTokens ts = .error ⟨.bareText, none⟩ := by
  obtain ⟨a, hform, hbare⟩ := bareText_iff.1 hbare
  unfold parseTokens
  dsimp only
  rw [unsupportedText?_eq_none_iff.2 htexts, hform.reads]
  simp [hbare]

/-! ## Places in the source -/

/-- A parse error that is reported is the one that came up. -/
theorem eq_of_ofParse {e e' : ParseError} (h : ReadError.ofParse e' = .parse e) : e' = e := by
  unfold ReadError.ofParse at h
  split at h
  · cases h
  · exact ReadError.parse.inj h

/-- A parse error that names a token names one of the source, spelled where its column says, and
the tokens before it are the beginning of an abbreviation. At the end of the input it stands behind
the last token, with no token left. Without a place it is about a source that is a bare text. -/
theorem parse_error_place {source : Text} {e : ParseError}
    (h : g.parse source = .error (.parse e)) :
    ∃ ts, Token.read source = .ok ts ∧ PlacedIn g ts e ∧
      ∀ t, e.place = some (.token t) →
        t.column < source.length ∧ Text.slice t.column t.stop source = t.source := by
  unfold parse at h
  cases hread : Token.read source with
  | error => simp [hread] at h
  | ok ts =>
    cases hparse : g.parseTokens ts with
    | ok => simp [hread, hparse] at h
    | error e' =>
      obtain rfl : e' = e := eq_of_ofParse (by simpa [hread, hparse] using h)
      have hplaced := parseTokens_placedIn hparse
      refine ⟨ts, rfl, hplaced, ?_⟩
      intro t ht
      have hmem : t ∈ ts := by
        unfold PlacedIn at hplaced
        rw [ht] at hplaced
        obtain ⟨before, after, rfl, -⟩ := hplaced
        simp
      have hsegmentation := Token.segmentation_read hread
      exact ⟨hsegmentation.column_lt_length hmem, (hsegmentation.placed t hmem).2⟩

/-- An error of the tokens of a source is a parse error of the source, but for one of size. -/
theorem parse_eq_parse_error {source : Text} {e : ParseError} (hread : Token.read source = .ok ts)
    (h : g.parseTokens ts = .error e) (hcause : ReadError.ofParse e = .parse e) :
    g.parse source = .error (.parse e) := by
  unfold parse
  rw [hread]
  dsimp only
  rw [h]
  exact congrArg Except.error hcause

/-- A class that is missing before an operator, a group that is not closed, and a text alone. -/
theorem parse_error_place_samples :
    (({} : Grammar).parse "a.+b".toList =
        .error (.parse ⟨.expectedClass, some (.token ⟨.operator .sibling, 2⟩)⟩) ∧
      2 < "a.+b".toList.length ∧ Text.slice 2 3 "a.+b".toList = "+".toList) ∧
    (({} : Grammar).parse "(a".toList =
        .error (.parse ⟨.expectedClosing, some (.endOfInput 2)⟩) ∧
      ∃ ts, Token.read "(a".toList = .ok ts ∧ 2 = Token.endColumn ts ∧
        ({} : Grammar).unread ts = [] ∧ Unfinished {} ts .expectedClosing) ∧
    (({} : Grammar).parse "{a}|e".toList = .error (.parse ⟨.bareText, none⟩) ∧
      ∃ ts, Token.read "{a}|e".toList = .ok ts ∧ BareText {} ts) := by
  have hknown : ({} : Grammar).knows ['a'] = true := by decide
  have hclass : ({} : Grammar).parse "a.+b".toList =
      .error (.parse ⟨.expectedClass, some (.token ⟨.operator .sibling, 2⟩)⟩) := by
    have hread : Token.read "a.+b".toList = .ok [⟨.name ['a'], 0⟩, ⟨.punctuation .dot, 1⟩,
        ⟨.operator .sibling, 2⟩, ⟨.name ['b'], 3⟩] := by decide +kernel
    refine parse_eq_parse_error hread ?_ rfl
    simp [parseTokens, unsupportedText?, expression, primary, element, hknown, selectors, selector?,
      bind, Except.bind, Halt.place]
  have hclosing : ({} : Grammar).parse "(a".toList =
      .error (.parse ⟨.expectedClosing, some (.endOfInput 2)⟩) := by
    have hread : Token.read "(a".toList =
        .ok [⟨.punctuation .openParen, 0⟩, ⟨.name ['a'], 1⟩] := by decide +kernel
    refine parse_eq_parse_error hread ?_ rfl
    have hend : Token.endColumn [⟨.punctuation .openParen, 0⟩, ⟨.name ['a'], 1⟩] = 2 := by decide
    simp [parseTokens, unsupportedText?, expression, primary, element, hknown, selectors, selector?,
      inlineText, repetition, bind, Except.bind, Halt.place, hend]
  have hbare : ({} : Grammar).parse "{a}|e".toList = .error (.parse ⟨.bareText, none⟩) := by
    have hread : Token.read "{a}|e".toList =
        .ok [⟨.braced ['a'], 0⟩, ⟨.punctuation .bar, 3⟩, ⟨.name ['e'], 4⟩] := by decide +kernel
    refine parse_eq_parse_error hread ?_ rfl
    simp [parseTokens, unsupportedText?, expression, primary, repetition, suffixed, isBareText,
      Abbreviation.unfiltered, bind, Except.bind]
  refine ⟨⟨hclass, ?_⟩, ⟨hclosing, ?_⟩, ⟨hbare, ?_⟩⟩
  · obtain ⟨ts, -, -, hspelled⟩ := parse_error_place hclass
    exact hspelled ⟨.operator .sibling, 2⟩ rfl
  · obtain ⟨ts, hread, hplaced, -⟩ := parse_error_place hclosing
    exact ⟨ts, hread, hplaced⟩
  · obtain ⟨ts, hread, hplaced, -⟩ := parse_error_place hbare
    exact ⟨ts, hread, hplaced⟩

end Abbrev.Grammar
