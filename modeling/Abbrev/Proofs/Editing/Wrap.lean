import Abbrev.Proofs.Editing.Expand
import Abbrev.Proofs.Rendering.WrappedLines

/-!
# Wrapping loses no selected text

The selected text is trimmed, and its lines are spread over nodes and put into what is written for
them. All of them come out at the other end: the template shows the lines of the selection
(`Editing.shows_wrap`), whatever snippets and profile are used. What can keep a line from arriving
is only a repetition without a copy, or a filter that changes wrapped text; and filters that are not
asked for by a suffix do not. If something is copied too often, there is no template, and the
selection stays.
-/

namespace Abbrev

/-- Deleting the selection leaves the context alone. -/
theorem Buffer.context_deleteSelection (b : Buffer) : b.deleteSelection.2.context = b.context := by
  unfold deleteSelection
  split <;> rfl

namespace Editing

open Text (Shows)

/-- Where the default generator reads an abbreviation, the selection is deleted, and what it
abbreviates is inserted; if that fails, the buffer is restored. -/
theorem outcome_wrap {registry : Registry} {b : Buffer} {selection abbreviation : Text}
    {chosen : Generator × Nat} {a : Abbreviation}
    (h : registry.defaultGenerator? b.context true = some chosen)
    (hread : (grammar registry chosen.1 b).parse abbreviation = .ok a) :
    (wrap (.fixed registry) selection abbreviation).outcome b =
      match (insertExpansion registry a (some selection) true).outcome b.deleteSelection.2 with
      | (.ok t, inserted) => (.ok t, inserted)
      | (.error e, left) => (.error e, left.restore b) := by
  unfold wrap
  rw [outcome_fixed, h]
  dsimp only
  rw [hread, Edit.outcome_group]
  dsimp only
  rw [Edit.outcome_bind_of_ok b (Edit.outcome_modify b _)]
  obtain ⟨result, left⟩ :=
    (insertExpansion registry a (some selection) true).outcome b.deleteSelection.2
  cases result <;> rfl

/-- A generator that applies for wrapping is not that of HAML. -/
theorem dialect_ne_haml {g : Generator} {context : Option Text}
    (h : g.isApplicable context true = true) : g.dialect ≠ .haml := by
  intro hhaml
  rw [Generator.isApplicable, hhaml] at h
  cases h

/-- What is read in a context and names no filters is inserted around a text as a template that
shows the lines of the text, unless something is copied too often. -/
theorem insertExpansion_shows {profile : Profile} {b : Buffer} {g : Grammar}
    {abbreviation : Text} {a : Abbreviation}
    (hdefault : ((Registry.ofProfile profile).defaultGenerator? b.context true).isSome = true)
    (hread : g.parse abbreviation = .ok a)
    (hsuffixes : ∀ suffix ∈ a.suffixes, suffix ∈ (Registry.ofProfile profile).generatorSuffixes)
    (hcounts : a.CountsPositive) (selection : Text) :
    (∃ t, (insertExpansion (.ofProfile profile) a (some selection) true).outcome b =
        (.ok t, b.start t) ∧ Shows selection.tidyLines t.text) ∨
      (a.Oversized ∧ ∃ e, (insertExpansion (.ofProfile profile) a (some selection) true).outcome b =
        (.error (.size e), b)) := by
  obtain ⟨generator, hgenerator, hmember, happlies⟩ :=
    Registry.selectGenerator_ok a.suffixes hdefault
  obtain ⟨filters, hfilters, hmembers⟩ :=
    Registry.selectFilters_of_generatorSuffixes (some generator.1) hsuffixes
  have hfilter {p : Filter → Prop} (h : ∀ f ∈ filters, p f.1) : ∀ f ∈ filters.map Prod.fst, p f :=
    List.forall_mem_map.2 h
  have hfault := Generator.fault?_eq_none (Registry.dialect_ne_textual hmember)
    (hfilter fun f hf => Registry.failure?_eq_none (hmembers f hf).1)
  rw [outcome_insertExpansion_eq hgenerator hfilters (hfault _)]
  obtain ⟨-, hexpand⟩ | ⟨hsize, e, hexpand⟩ :=
    a.expand?_outcome { catalog := b.catalog } 0 ((some selection).map Text.trim) <;> rw [hexpand]
  · refine .inl ⟨_, rfl, ?_⟩
    -- All lines are in the nodes, and only in nodes without children.
    obtain ⟨ts, -, hts⟩ := Grammar.parse_eq_ok_iff.1 hread
    have hkeeps : a.Keeps { catalog := b.catalog } :=
      Abbreviation.keeps_of_suffixedForm (Grammar.parseTokens_sound hts).1 hcounts
    have hlines : Node.linesIn (a.expand { catalog := b.catalog } 0 (some selection.trim)) =
        selection.tidyLines :=
      (hkeeps.carries 0 (some selection.trim)).linesIn_flatten.trans
        (Text.tidyLines_trim selection)
    have hleaves : (a.expansion { catalog := b.catalog } 0 (some selection.trim)).Everywhere
        (Node.Takes (some selection.trim)) :=
      a.everywhere_expansion 0 (some selection.trim)
    rw [← hlines]
    exact Generator.shows_assemble (dialect_ne_haml happlies)
      (hfilter fun f hf => Registry.wrapped_prepare_of_isDefaultFor (hmembers f hf).1
        (hmembers f hf).2)
      (hleaves.flatten.imp fun _ htakes => htakes.imp_right And.right)
  · exact .inr ⟨hsize, e, rfl⟩

/-- Wrapping never loses selected text. An abbreviation that is accepted, in which every fixed
number of copies is positive and every suffix names a generator, is expanded around the selection,
and the template shows the lines of the selection: each of them as a whole, in their order, and
apart from each other. If there cannot be so many copies, it fails. -/
theorem shows_wrap (profile : Profile) {b : Buffer} (selection : Text) {abbreviation : Text}
    {chosen : Generator × Nat} {a : Abbreviation}
    (hdefault : (Registry.ofProfile profile).defaultGenerator? b.context true = some chosen)
    (hread : (grammar (.ofProfile profile) chosen.1 b).parse abbreviation = .ok a)
    (hsuffixes : ∀ suffix ∈ a.suffixes, suffix ∈ (Registry.ofProfile profile).generatorSuffixes)
    (hcounts : a.CountsPositive) :
    (∃ t after, (wrap (.fixed (.ofProfile profile)) selection abbreviation).outcome b =
        (.ok t, after) ∧ Shows selection.tidyLines t.text) ∨
      (a.Oversized ∧ ∃ e after,
        (wrap (.fixed (.ofProfile profile)) selection abbreviation).outcome b =
          (.error (.size e), after)) := by
  have hisSome : ((Registry.ofProfile profile).defaultGenerator? b.deleteSelection.2.context
      true).isSome = true := by
    rw [b.context_deleteSelection, hdefault]
    rfl
  rw [outcome_wrap hdefault hread]
  obtain ⟨t, hinsert, hshows⟩ | ⟨hsize, e, hinsert⟩ :=
    insertExpansion_shows hisSome hread hsuffixes hcounts selection <;> rw [hinsert]
  · exact .inl ⟨t, _, rfl, hshows⟩
  · exact .inr ⟨hsize, e, _, rfl⟩

/-- A buffer in which two lines are selected. -/
def sampleSelection : Buffer :=
  .allSelected "a\n b ".toList (some "html".toList) .empty

/-- What is read from `ul>li*|haml`. -/
def sampleEntries : Abbreviation :=
  .filtered (.child (.element "ul".toList [] none)
    (.repeated (.element "li".toList [] none) .perLine)) "haml".toList

/-- Both lines of the sample are shown when it is wrapped in copies of a list entry, one for each
line; HAML cannot wrap, so its suffix leaves the choice to the context. -/
theorem shows_wrap_sampleSelection :
    ∃ t after, (wrap (.fixed (.ofProfile {})) "a\n b ".toList "ul>li*|haml".toList).outcome
        sampleSelection = (.ok t, after) ∧ Shows ["a".toList, "b".toList] t.text := by
  have hdefault : (Registry.ofProfile {}).defaultGenerator? sampleSelection.context true =
      some (.ofDialect {} .html, 0) := rfl
  have hcut : Token.read "ul>li*|haml".toList = .ok ([⟨.name "ul".toList, 0⟩,
      ⟨.operator .child, 2⟩, ⟨.name "li".toList, 3⟩, ⟨.operator .times, 5⟩] ++
        [⟨.punctuation .bar, 6⟩, ⟨.name "haml".toList, 7⟩]) := by decide +kernel
  have hsuffix :
      ∀ allowed ∈ (grammar (.ofProfile {}) (.ofDialect {} .html) sampleSelection).suffixes,
        "haml".toList ∈ allowed := by
    rintro allowed ⟨⟩
    exact Registry.mem_suffixesFor_iff.2 (.inl (by decide))
  have hread : (grammar (.ofProfile {}) (.ofDialect {} .html) sampleSelection).parse
      "ul>li*|haml".toList = .ok sampleEntries :=
    Grammar.parse_of_suffixedForm hcut (.suffix (.bare (.child (.once (.key (by decide)))
      (.single (.perLine (.key (by decide)) (.other (by simp)))))) hsuffix) (by simp)
      (by rintro value ⟨⟩)
  have hlines : Text.tidyLines "a\n b ".toList = ["a".toList, "b".toList] := by decide
  rw [← hlines]
  obtain hshows | ⟨⟨count, hcopies, -⟩, -⟩ :=
    shows_wrap {} _ hdefault hread (by decide) ⟨trivial, trivial⟩
  · exact hshows
  · exact absurd hcopies (by simp [sampleEntries, Abbreviation.Copies])

end Editing

end Abbrev
