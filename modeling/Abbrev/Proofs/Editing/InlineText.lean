import Abbrev.Proofs.Editing.Expand
import Abbrev.Proofs.Editing.Group

/-!
# Who checks texts and who writes them

HAML has no place for texts in braces. The check is made where an abbreviation is read, and it asks
the default generator of the context; which generator writes is settled only then, by the suffixes.
This module follows a template back to both (`Editing.Writes`).

The two are the same unless a suffix names another generator. So a template that HAML has written as
the default is one for a key without texts, and the one way past the check is the suffix `haml` in a
context whose default has a place for texts. There a text is read for HTML and dropped by HAML
(`expand_drops_text`).
-/

namespace Abbrev.Editing

variable {registry : Registry} {b after : Buffer} {key : Text} {t : Template} {a : Abbreviation}

/-- Whether there is a text in braces among the tokens of a key. -/
def HasText (key : Text) : Prop :=
  ∃ ts, Token.read key = .ok ts ∧ ∃ t ∈ ts, ∃ body, t.lexeme = .braced body

/-- How a template for a key has come about: `byDefault` is the generator that the key was read for,
`a` what was read, and `generator` the one that has written the template. -/
structure Writes (registry : Registry) (b : Buffer) (key : Text) (byDefault : Generator)
    (a : Abbreviation) (generator : Generator) (t : Template) : Prop where
  readFor : ∃ i, registry.defaultGenerator? b.context false = some (byDefault, i)
  read : (grammar registry byDefault b).parse key = .ok a
  chosen : ∃ i, (registry.selectGenerator a.suffixes b.context false).run.value = .ok (generator, i)
  written : ∃ filters,
    (registry.selectFilters a.suffixes b.context (some generator)).run.value = .ok filters ∧
      t = (generator.assemble (filters.map Prod.fst)
        (a.expand { catalog := b.catalog } 0 none)).value

/-- A template that is inserted is written by the generator that the suffixes or the context choose,
with the filters that these choose. -/
theorem exists_of_outcome_insertExpansion {wrapped : Option Text} {wrapping : Bool}
    (h : (insertExpansion registry a wrapped wrapping).outcome b = (.ok t, after)) :
    ∃ generator filters,
      (registry.selectGenerator a.suffixes b.context wrapping).run.value = .ok generator ∧
      (registry.selectFilters a.suffixes b.context (some generator.1)).run.value = .ok filters ∧
      t = (generator.1.assemble (filters.map Prod.fst)
        (a.expand { catalog := b.catalog } 0 (wrapped.map Text.trim))).value := by
  unfold insertExpansion at h
  rw [Edit.outcome_bind_of_ok b (Edit.outcome_get b)] at h
  obtain ⟨generator, between, hgenerator, h⟩ := Edit.exists_of_outcome_bind b h
  obtain ⟨hgenerator, rfl⟩ := Edit.of_outcome_check b hgenerator
  obtain ⟨filters, between, hfilters, h⟩ := Edit.exists_of_outcome_bind _ h
  obtain ⟨hfilters, rfl⟩ := Edit.of_outcome_check _ hfilters
  refine ⟨generator, filters, hgenerator, hfilters, ?_⟩
  dsimp only at h
  split at h
  · cases h
  next nodes hexpand =>
  obtain rfl := Abbreviation.eq_expand_of_expand? hexpand
  rw [Edit.outcome_bind_of_ok _ (Edit.outcome_record _ _)] at h
  split at h
  · cases h
  · cases h
  · rw [Edit.outcome_bind_of_ok _ (Edit.outcome_logged _ _),
      Edit.outcome_bind_of_ok _ (Edit.outcome_modify _ _), Edit.outcome_pure] at h
    exact (Except.ok.inj (Prod.mk.inj h).1).symm

/-- Where a key is expanded, there is a generator that it was read for, and one that has written the
template. -/
theorem exists_writes (h : (expand (.fixed registry) key).outcome b = (.ok (some t), after)) :
    ∃ byDefault a generator, Writes registry b key byDefault a generator t := by
  unfold expand at h
  rw [outcome_fixed] at h
  split at h
  · cases h
  · next byDefault i hdefault =>
    split at h
    · cases h
    · cases h
    · next a hread =>
      split at h
      · cases h
      · have hinside := Edit.of_outcome_group b h
        rw [Edit.outcome_bind_of_ok b (Edit.outcome_get b)] at hinside
        split at hinside
        · cases hinside
        · next shortened hdeleted =>
          rw [Edit.outcome_bind_of_ok b (Edit.outcome_set b shortened)] at hinside
          obtain ⟨inserted, final, hinsert, hgiven⟩ := Edit.exists_of_outcome_bind _ hinside
          obtain rfl : inserted = t := Option.some.inj (Except.ok.inj (Prod.mk.inj hgiven).1)
          -- Deleting the key has changed neither the context nor the catalog.
          obtain ⟨-, rfl⟩ := Buffer.eq_of_deleteKey hdeleted
          obtain ⟨generator, filters, hgenerator, hfilters, hwritten⟩ :=
            exists_of_outcome_insertExpansion hinsert
          exact ⟨byDefault, a, generator.1, ⟨i, hdefault⟩, hread, ⟨generator.2, hgenerator⟩,
            filters, hfilters, hwritten⟩

/-- A key that is read for a generator without a place for texts has no text. -/
theorem not_hasText {generator : Generator} (htexts : generator.supportsText = false)
    (h : (grammar registry generator b).parse key = .ok a) : ¬ HasText key := by
  obtain ⟨ts, hts, hread⟩ := Grammar.parse_eq_ok_iff.1 h
  have hallowed := (Grammar.parseTokens_sound hread).2.1 generator rfl htexts
  rintro ⟨us, hus, t, ht, body, hbody⟩
  obtain rfl := Except.ok.inj (hts.symm.trans hus)
  exact hallowed t ht body hbody

/-- In a context where HAML applies and something else is the default, the context is one of
HTML. -/
theorem context_of_haml {profile : Profile} {byDefault : Generator} {context : Option Text}
    (hmember : byDefault ∈ (Registry.ofProfile profile).generators)
    (htexts : byDefault.supportsText = true) (hdefault : byDefault.isDefaultFor context = true)
    (happlies : (Generator.ofDialect profile .haml).isApplicable context false = true) :
    context = some "html".toList ∨ context = some "xhtml".toList := by
  obtain ⟨dialect, hdialect, rfl⟩ := Registry.mem_generators_iff.1 hmember
  cases context with
  | none => cases hdefault
  | some name =>
    have hhaml : name = "html".toList ∨ name = "xhtml".toList ∨ name = "haml".toList := by
      simpa [Generator.isApplicable, Generator.ofDialect] using happlies
    cases dialect with
    | html => simpa [Generator.isDefaultFor, Generator.ofDialect] using hdefault
    | xml =>
      have hxml : name = "xml".toList ∨ name = "xsl".toList := by
        simpa [Generator.isDefaultFor, Generator.ofDialect] using hdefault
      obtain rfl | rfl := hxml <;> exact absurd hhaml (by decide)
    | haml => cases htexts
    | textual => exact absurd rfl hdialect

/-- If the generator that has written a template has no place for texts, its key has none, as long
as the key was read for that generator. If the key has a text, it was read for another generator,
and the suffix `haml` has chosen the one that has written the template, in a context of HTML. -/
theorem texts_of_expand (profile : Profile)
    (h : (expand (.fixed (.ofProfile profile)) key).outcome b = (.ok (some t), after)) :
    ∃ byDefault a generator, Writes (.ofProfile profile) b key byDefault a generator t ∧
      (generator.supportsText = false →
        ¬ HasText key ∨
          (byDefault.supportsText = true ∧ "haml".toList ∈ a.suffixes ∧
            (b.context = some "html".toList ∨ b.context = some "xhtml".toList))) := by
  obtain ⟨byDefault, a, generator, hwrites⟩ := exists_writes h
  refine ⟨byDefault, a, generator, hwrites, fun hgenerator => ?_⟩
  cases htexts : byDefault.supportsText with
  | false => exact .inl (not_hasText htexts hwrites.read)
  | true =>
    obtain ⟨i, hdefault⟩ := hwrites.readFor
    obtain ⟨j, hchosen⟩ := hwrites.chosen
    -- The generator is not the default, so a suffix names it, and it is HAML.
    obtain ⟨suffix, hsuffix, hnamed⟩ | hsame := Registry.of_selectGenerator_eq_ok hchosen
    · obtain ⟨hmember, hsuffixed, happlies⟩ := Registry.of_namedGenerator? hnamed
      obtain rfl := Registry.eq_haml_of_supportsText hmember hgenerator
      obtain rfl : "haml".toList = suffix := Option.some.inj hsuffixed
      obtain ⟨hdefaultMember, -, hisDefault⟩ := Registry.of_defaultGenerator? hdefault
      have hcontext := context_of_haml hdefaultMember htexts hisDefault happlies
      exact .inr ⟨rfl, hsuffix, hcontext⟩
    · obtain ⟨rfl, -⟩ := Prod.mk.inj (Option.some.inj (hdefault.symm.trans hsame))
      cases htexts.symm.trans hgenerator

/-- The suffix `haml` is allowed in every context. -/
theorem allowed_haml (profile : Profile) {byDefault : Generator} (b : Buffer) :
    ∀ allowed ∈ (grammar (.ofProfile profile) byDefault b).suffixes, "haml".toList ∈ allowed := by
  have hmember : Generator.ofDialect profile .haml ∈ (Registry.ofProfile profile).generators :=
    Registry.mem_generators_iff.2 ⟨.haml, by decide, rfl⟩
  rintro allowed ⟨⟩
  exact Registry.mem_suffixesFor_iff.2
    (.inl (List.mem_filter.2 ⟨List.mem_filterMap.2 ⟨_, hmember, rfl⟩, rfl⟩))

/-- A buffer with nothing but a key in it that chooses HAML in a context of HTML. -/
def sampleHamlBuffer : Buffer :=
  .atEnd "p.x|haml".toList (some "html".toList) .empty

/-- The key of the sample is written by HAML, and without a text. -/
theorem texts_of_expand_sampleHamlBuffer :
    ∃ t after, (expand (.fixed (.ofProfile {})) "p.x|haml".toList).outcome sampleHamlBuffer =
        (.ok (some t), after) ∧
      ∃ byDefault a generator,
        Writes (.ofProfile {}) sampleHamlBuffer "p.x|haml".toList byDefault a generator t ∧
        (generator.supportsText = false →
          ¬ HasText "p.x|haml".toList ∨
            (byDefault.supportsText = true ∧ "haml".toList ∈ a.suffixes ∧
              (sampleHamlBuffer.context = some "html".toList ∨
                sampleHamlBuffer.context = some "xhtml".toList))) := by
  have hdefault : (Registry.ofProfile {}).defaultGenerator? sampleHamlBuffer.context false =
      some (.ofDialect {} .html, 0) := rfl
  have hcut : Token.read "p.x|haml".toList = .ok (([⟨.name "p".toList, 0⟩] ++
      [⟨.punctuation .dot, 1⟩, ⟨.name "x".toList, 2⟩]) ++
        [⟨.punctuation .bar, 3⟩, ⟨.name "haml".toList, 4⟩]) := by decide +kernel
  have hform : Grammar.ElementForm (grammar (.ofProfile {}) (.ofDialect {} .html) sampleHamlBuffer)
      [⟨.name "p".toList, 0⟩, ⟨.punctuation .dot, 1⟩, ⟨.name "x".toList, 2⟩]
      (.element "p".toList [⟨"class".toList, "x".toList⟩] none) :=
    .named (by decide) (.cons .className .nil) .absent
  have hread : (grammar (.ofProfile {}) (.ofDialect {} .html) sampleHamlBuffer).parse
      "p.x|haml".toList = .ok (.filtered
        (.element "p".toList [⟨"class".toList, "x".toList⟩] none) "haml".toList) :=
    Grammar.parse_of_suffixedForm hcut (.suffix (.bare (.single (.once (.element hform))))
      (allowed_haml {} _)) (by simp) (by rintro value ⟨⟩)
  have htext : sampleHamlBuffer.text = [] ++ "p.x|haml".toList ++ [] := rfl
  obtain ⟨-, t, ht⟩ | ⟨⟨count, hcopies, -⟩, -⟩ :=
    outcome_expand_of_read htext rfl hdefault hread rfl
  · exact ⟨t, _, ht, texts_of_expand {} ht⟩
  · exact hcopies.elim

/-- A buffer with nothing but a key in it that has a text and chooses HAML in a context of HTML. -/
def sampleTextBuffer : Buffer :=
  .atEnd "p{x}|haml".toList (some "html".toList) .empty

/-- What is read from the key of that buffer. -/
def sampleText : Abbreviation :=
  .filtered (.element "p".toList [] (some "x".toList)) "haml".toList

/-- HAML writes a key with a text that was read for HTML, and the text is dropped. -/
theorem expand_drops_text :
    ∃ t after, (expand (.fixed (.ofProfile {})) "p{x}|haml".toList).outcome sampleTextBuffer =
        (.ok (some t), after) ∧ t.text = "%p\n".toList ∧
      ∃ byDefault a generator,
        Writes (.ofProfile {}) sampleTextBuffer "p{x}|haml".toList byDefault a generator t ∧
        generator.supportsText = false ∧ HasText "p{x}|haml".toList := by
  have hdefault : (Registry.ofProfile {}).defaultGenerator? sampleTextBuffer.context false =
      some (.ofDialect {} .html, 0) := rfl
  have hcut : Token.read "p{x}|haml".toList = .ok ([⟨.name "p".toList, 0⟩,
      ⟨.braced "x".toList, 1⟩] ++ [⟨.punctuation .bar, 4⟩, ⟨.name "haml".toList, 5⟩]) := by
    decide +kernel
  have hform : Grammar.ElementForm (grammar (.ofProfile {}) (.ofDialect {} .html) sampleTextBuffer)
      [⟨.name "p".toList, 0⟩, ⟨.braced "x".toList, 1⟩]
      (.element "p".toList [] (some "x".toList)) := .named (by decide) .nil .braced
  have hread : (grammar (.ofProfile {}) (.ofDialect {} .html) sampleTextBuffer).parse
      "p{x}|haml".toList = .ok sampleText :=
    Grammar.parse_eq_ok_iff.2 ⟨_, hcut, Grammar.parseTokens_complete
      (.suffix (.bare (.single (.once (.element hform)))) (allowed_haml {} _))
      (by rintro generator ⟨⟩ ⟨⟩) (by rintro value ⟨⟩)⟩
  have hchosen : ((Registry.ofProfile {}).selectGenerator sampleText.suffixes
      sampleTextBuffer.context false).run.value = .ok (.ofDialect {} .haml, 2) := rfl
  have hfilters : ((Registry.ofProfile {}).selectFilters sampleText.suffixes
      sampleTextBuffer.context (some (.ofDialect {} .haml))).run.value = .ok [] := rfl
  have hhas : HasText "p{x}|haml".toList :=
    ⟨_, hcut, ⟨.braced "x".toList, 1⟩, by decide, "x".toList, rfl⟩
  have htext : sampleTextBuffer.text = [] ++ "p{x}|haml".toList ++ [] := rfl
  obtain ⟨-, t, ht⟩ | ⟨⟨count, hcopies, -⟩, -⟩ :=
    outcome_expand_of_read htext rfl hdefault hread rfl
  case inr => exact hcopies.elim
  obtain ⟨byDefault, a, generator, hwrites⟩ := exists_writes ht
  -- All that the template has come from can be computed.
  obtain ⟨i, hreadFor⟩ := hwrites.readFor
  obtain ⟨rfl, -⟩ := Prod.mk.inj (Option.some.inj (hdefault.symm.trans hreadFor))
  obtain rfl := Except.ok.inj (hread.symm.trans hwrites.read)
  obtain ⟨j, hwriter⟩ := hwrites.chosen
  obtain ⟨rfl, -⟩ := Prod.mk.inj (Except.ok.inj (hchosen.symm.trans hwriter))
  obtain ⟨filters, hnone, hwritten⟩ := hwrites.written
  obtain rfl := Except.ok.inj (hfilters.symm.trans hnone)
  have hempty : t.text = "%p\n".toList := by
    rw [hwritten]
    decide +kernel
  exact ⟨t, _, ht, hempty, _, _, _, hwrites, rfl, hhas⟩

end Abbrev.Editing
