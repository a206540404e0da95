import Abbrev.Proofs.Abbreviation.Trailing
import Abbrev.Proofs.Editing.Expand

/-!
# The key is what was typed

An abbreviation that is typed at the start of a text or behind a space is the key before the caret,
so it is what is deleted when it is expanded (`Editing.expand_typed`). The reader of tokens and the
search for the key have to agree about it: outside of its sets of attributes and texts in braces
there have to be characters of abbreviations only, and in its texts brackets have to be paired and
quotes closed. The reader leaves the texts as they are and does not ask for the latter, and where it
is not the case the search goes too far or not far enough (`Editing.trailing_apostrophe`).
-/

namespace Abbrev

/-- The brackets of an abbreviation are paired, whatever the grammar it is accepted by. -/
theorem Grammar.bracketed_of_accepts {g : Grammar} {source : Text} {ts : List Token}
    (haccepts : g.accepts source = .ok true) (hread : Token.read source = .ok ts) :
    Bracketed false ts := by
  obtain ⟨a, hparse⟩ := accepts_eq_ok_true_iff.1 haccepts
  obtain ⟨ts', hread', hparse⟩ := parse_eq_ok_iff.1 hparse
  obtain rfl := Except.ok.inj (hread.symm.trans hread')
  exact (parseTokens_sound hparse).1.bracketed

/-- An abbreviation is passed when going back through it, if its texts in braces are. -/
theorem Trailing.passes_of_accepts {g : Grammar} {key : Text} {ts : List Token}
    (haccepts : g.accepts key = .ok true) (hread : Token.read key = .ok ts)
    (hallowed : AllowedOutside (Token.spans none ts) 0 key)
    (hpaired : ∀ token ∈ ts, ∀ body, token.lexeme = .braced body → Paired 0 body)
    (hlt : '<' ∉ key) : Passes 0 0 key := by
  have hbrackets : Grammar.Bracketed (none : Option Nat).isSome ts :=
    Grammar.bracketed_of_accepts haccepts hread
  exact passes_of_spelled (Token.spelled_readFrom hread) hbrackets hallowed hpaired hlt

namespace Editing

variable {registry : Registry} {b : Buffer} {before key after : Text}

/-! ## Typed abbreviations -/

/-- An abbreviation without `<` that was typed at the start of a text or behind a space, with no `<`
before it, is the key before the caret: it is what is deleted, and what a template takes the place
of when the key is expanded. All that stands outside of its sets of attributes and texts in braces
has to be characters of abbreviations, and brackets have to be paired and quotes closed in its
texts. -/
theorem expand_typed (profile : Profile) {g : Grammar} {ts : List Token}
    (hbefore : before = [] ∨ before.getLast? = some ' ')
    (hltBefore : '<' ∉ before) (haccepts : g.accepts key = .ok true) (hltKey : '<' ∉ key)
    (hread : Token.read key = .ok ts)
    (hallowed : Trailing.AllowedOutside (Token.spans none ts) 0 key)
    (hpaired : ∀ token ∈ ts, ∀ body, token.lexeme = .braced body → Trailing.Paired 0 body)
    (htext : b.text = before ++ key ++ after) (hcaret : b.caret = (before ++ key).length) :
    Abbreviation.trailing (before ++ key) = key ∧ b.key = key ∧
      b.deleteKey b.key = .ok { b with text := before ++ after, caret := before.length } ∧
      (Expands (.ofProfile profile) b b.key → ¬ Oversized (.ofProfile profile) b b.key →
        ∃ t, (expand (.fixed (.ofProfile profile)) b.key).outcome b =
          (.ok (some t), replaced b before after t)) ∧
      (¬ Expands (.ofProfile profile) b b.key → ¬ Oversized (.ofProfile profile) b b.key →
        (expand (.fixed (.ofProfile profile)) b.key).outcome b = (.ok none, b)) ∧
      (Oversized (.ofProfile profile) b b.key →
        ∃ e : Failure, e.OfSize ∧
          (expand (.fixed (.ofProfile profile)) b.key).outcome b = (.error e, b)) := by
  have hspace : ∀ c ∈ before.getLast?, Trailing.isAllowed c = false := by
    rcases hbefore with rfl | hlast
    · simp
    · rw [hlast]
      rintro c ⟨⟩
      decide
  have hpasses := Trailing.passes_of_accepts haccepts hread hallowed hpaired hltKey
  have htrailing := Trailing.trailing_append hspace hltBefore hpasses
  have hkey : b.key = key := by
    rw [Buffer.key, hcaret, htext, Text.upTo_natCast, List.take_left, htrailing]
  rw [hkey]
  refine ⟨htrailing, rfl, Buffer.deleteKey_eq_ok htext hcaret, ?_⟩
  exact ⟨fun hexpands hsize => outcome_expand_of_expands htext hcaret hsize hexpands,
    fun hnot hsize => outcome_expand_of_not_expands hsize hnot,
    outcome_expand_of_oversized htext hcaret⟩

/-- An abbreviation with a set of attributes and a text, in which a `>`, blanks, quotes and braces
come up. -/
def sampleTyped : Text :=
  "p[title='a > b']{c {d}}".toList

/-- The tokens of the sample. -/
def sampleTypedTokens : List Token :=
  [⟨.name "p".toList, 0⟩, ⟨.punctuation .openBracket, 1⟩, ⟨.name "title".toList, 2⟩,
    ⟨.punctuation .equals, 7⟩, ⟨.quoted '\'' "a > b".toList, 8⟩, ⟨.punctuation .closeBracket, 15⟩,
    ⟨.braced "c {d}".toList, 16⟩]

/-- A buffer with the caret behind the sample. -/
def sampleTypedBuffer : Buffer :=
  ⟨"x ".toList ++ sampleTyped ++ " y".toList, 25, none, some "html".toList, .empty, []⟩

/-- The sample is cut into its tokens. -/
theorem read_sampleTyped : Token.read sampleTyped = .ok sampleTypedTokens := by decide +kernel

/-- The sample is read as one element, by any grammar that knows its key and has a place for its
text. -/
theorem parse_sampleTyped {g : Grammar} (hknown : g.knows "p".toList = true)
    (htexts : Grammar.TextsAllowed g sampleTypedTokens) :
    g.parse sampleTyped =
      .ok (.element "p".toList [⟨"title".toList, "a > b".toList⟩] (some "c {d}".toList)) := by
  have hnone : Grammar.Separators [] := List.forall_mem_nil _
  have hform : Grammar.ElementForm g sampleTypedTokens
      (.element "p".toList [⟨"title".toList, "a > b".toList⟩] (some "c {d}".toList)) :=
    .named hknown (.cons (.attributes hnone (.last .quoted) hnone) .nil) .braced
  exact Grammar.parse_eq_ok_iff.2 ⟨_, read_sampleTyped,
    Grammar.parseTokens_complete (.bare (.single (.once (.element hform)))) htexts
      (by rintro value ⟨⟩)⟩

/-- The sample is found, deleted and expanded as it was typed. -/
theorem expand_typed_sample :
    Abbreviation.trailing ("x ".toList ++ sampleTyped) = sampleTyped ∧
      sampleTypedBuffer.key = sampleTyped ∧
      sampleTypedBuffer.deleteKey sampleTypedBuffer.key =
        .ok { sampleTypedBuffer with text := "x  y".toList, caret := 2 } ∧
      ∃ t, (expand (.fixed (.ofProfile {})) sampleTypedBuffer.key).outcome sampleTypedBuffer =
        (.ok (some t), replaced sampleTypedBuffer "x ".toList " y".toList t) := by
  have haccepts : ({} : Grammar).accepts sampleTyped = .ok true :=
    Grammar.accepts_eq_ok_true_iff.2 ⟨_, parse_sampleTyped (by decide) (by rintro generator ⟨⟩)⟩
  have hpaired : ∀ token ∈ sampleTypedTokens, ∀ body, token.lexeme = .braced body →
      Trailing.Paired 0 body := by
    intro token htoken body hbody
    -- There is one text in braces, and it has no marks but braces.
    have hform := (Token.spelled_readFrom read_sampleTyped).wellFormed token htoken
    rw [hbody] at hform
    obtain rfl : body = "c {d}".toList := by
      simp only [sampleTypedTokens, List.mem_cons, List.not_mem_nil, or_false] at htoken
      rcases htoken with rfl | rfl | rfl | rfl | rfl | rfl | rfl <;> cases hbody
      rfl
    exact .of_closesBraces hform (by simp [Trailing.marks])
  have hltBefore : '<' ∉ "x ".toList := by decide
  obtain ⟨htrailing, hkey, hdelete, hexpand, -⟩ :=
    expand_typed {} (b := sampleTypedBuffer) (.inr rfl) hltBefore haccepts (by decide)
      read_sampleTyped (by decide) hpaired rfl rfl
  -- The grammar of the buffer reads the sample as well, and nothing in it is copied.
  have hdefault : (Registry.ofProfile {}).defaultGenerator? sampleTypedBuffer.context false =
      some (.ofDialect {} .html, 0) := rfl
  have hparse :
      (grammar (.ofProfile {}) (.ofDialect {} .html) sampleTypedBuffer).parse sampleTyped = _ :=
    parse_sampleTyped (by decide) (by rintro generator ⟨⟩ ⟨⟩)
  refine ⟨htrailing, hkey, hdelete, hexpand ?_ ?_⟩ <;> rw [hkey]
  · exact (expands_iff_of_some hdefault).2 ⟨_, hparse, rfl⟩
  · rw [oversized_iff hdefault, hparse]
    rintro (⟨e, ⟨⟩⟩ | ⟨a, ⟨⟩, count, ⟨⟩, -⟩)

/-- The tokens of an abbreviation with an apostrophe in its text. -/
def sampleApostropheTokens : List Token :=
  [⟨.name "p".toList, 0⟩, ⟨.braced "it's".toList, 1⟩]

/-- The abbreviation that these tokens spell. -/
def sampleApostrophe : Text :=
  sampleApostropheTokens.flatMap Token.source

/-- An apostrophe in a text in braces counts as a quote when the key is looked for. So the key may
be more than the abbreviation, though this one is accepted, it stands behind a space, and outside of
its text there are characters of abbreviations only. -/
theorem trailing_apostrophe :
    ({} : Grammar).accepts sampleApostrophe = .ok true ∧ '<' ∉ sampleApostrophe ∧
      Token.read sampleApostrophe = .ok sampleApostropheTokens ∧
      Trailing.AllowedOutside (Token.spans none sampleApostropheTokens) 0 sampleApostrophe ∧
      Abbreviation.trailing ("x ".toList ++ sampleApostrophe) = "x ".toList ++ sampleApostrophe ∧
      Abbreviation.trailing ("x ".toList ++ sampleApostrophe) ≠ sampleApostrophe := by
  have hread : Token.read sampleApostrophe = .ok sampleApostropheTokens := by decide +kernel
  have hform : Grammar.ElementForm {} sampleApostropheTokens
      (.element "p".toList [] (some "it's".toList)) := .named (by decide) .nil .braced
  have hparse := Grammar.parse_eq_ok_iff.2 ⟨_, hread, Grammar.parseTokens_complete
    (.bare (.single (.once (.element hform)))) (by rintro generator ⟨⟩) (by rintro value ⟨⟩)⟩
  exact ⟨Grammar.accepts_eq_ok_true_iff.2 ⟨_, hparse⟩, by decide, hread, by decide, by decide,
    by decide⟩

end Editing

end Abbrev
