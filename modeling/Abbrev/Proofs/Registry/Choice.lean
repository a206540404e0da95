import Abbrev.Proofs.Grammar.Exactness
import Abbrev.Proofs.Registry.Selection

/-!
# What can be read can be chosen

A suffix is looked at twice. The reader asks whether it is in the list of those that the context
allows, and the choice of generator and filters walks the suffixes again, by rules of its own. The
two agree in every registry, whatever suffixes its generators and filters share or lack: for what
has been read, a generator and filters can be chosen (`Registry.exists_choice`).

That a choice succeeds follows from the list of allowed suffixes; that all that is chosen applies in
the context, and that no suffix is passed over, holds of any choice that succeeds.
-/

namespace Abbrev.Registry

variable {r : Registry} {context : Option Text} {generator : Option Generator}
  {suffixes : List Text}

/-- A filter that a suffix names has that suffix, and applies. -/
theorem of_mem_namedFilters {suffix : Text} {f : Filter × Nat}
    (h : f ∈ r.namedFilters context suffix) :
    f.1.suffix = suffix ∧ f.1.isApplicable context = true := by
  have hboth := (List.mem_filter.1 h).2
  rwa [Bool.and_eq_true, beq_iff_eq] at hboth

/-- Where filters are found for suffixes, the first suffix names a generator and is skipped, or it
names filters that come before those of the other suffixes. -/
theorem explicitFilters_cons_cases {suffix : Text} {found : List (Filter × Nat)}
    (h : r.explicitFilters context generator (suffix :: suffixes) = .ok found) :
    (r.namesGenerator generator suffix = true ∧
        r.explicitFilters context generator suffixes = .ok found) ∨
      ∃ first rest, first ∈ r.namedFilters context suffix ∧
        r.explicitFilters context generator suffixes = .ok rest ∧
        found = r.namedFilters context suffix ++ rest := by
  rw [explicitFilters] at h
  split at h
  · next hgenerator => exact .inl ⟨hgenerator, h⟩
  · split at h
    · cases h
    · next hne =>
      obtain ⟨first, hfirst⟩ := List.exists_mem_of_ne_nil _ hne
      cases hrest : r.explicitFilters context generator suffixes with
      | error e =>
        rw [hrest] at h
        cases h
      | ok rest =>
        rw [hrest] at h
        exact .inr ⟨first, rest, hfirst, rfl, (Except.ok.inj h).symm⟩

/-- The filters that suffixes name apply, and there is one for each suffix that names no
generator. -/
theorem of_explicitFilters_eq_ok {found : List (Filter × Nat)}
    (h : r.explicitFilters context generator suffixes = .ok found) :
    (∀ f ∈ found, f.1.isApplicable context = true) ∧
      ∀ suffix ∈ suffixes,
        r.namesGenerator generator suffix = true ∨ ∃ f ∈ found, f.1.suffix = suffix := by
  induction suffixes generalizing found with
  | nil =>
    obtain rfl := Except.ok.inj h
    exact ⟨List.forall_mem_nil _, List.forall_mem_nil _⟩
  | cons suffix more ih =>
    obtain ⟨hgenerator, hmore⟩ | ⟨first, rest, hfirst, hmore, rfl⟩ := explicitFilters_cons_cases h
    · obtain ⟨happlies, hcovered⟩ := ih hmore
      exact ⟨happlies, List.forall_mem_cons.2 ⟨.inl hgenerator, hcovered⟩⟩
    · obtain ⟨happlies, hcovered⟩ := ih hmore
      refine ⟨?_, List.forall_mem_cons.2 ⟨?_, ?_⟩⟩
      · exact List.forall_mem_append.2 ⟨fun f hf => (of_mem_namedFilters hf).2, happlies⟩
      · exact .inr ⟨first, List.mem_append_left _ hfirst, (of_mem_namedFilters hfirst).1⟩
      · intro other hother
        refine (hcovered other hother).imp_right ?_
        rintro ⟨f, hf, hsuffix⟩
        exact ⟨f, List.mem_append_right _ hf, hsuffix⟩

/-- All filters that are chosen apply, whether a suffix names them or the context uses them by
default, and there is one for each suffix that names no generator. -/
theorem of_selectFilters_eq_ok {filters : List (Filter × Nat)}
    (h : (r.selectFilters suffixes context generator).run.value = .ok filters) :
    (∀ f ∈ filters, f.1.isApplicable context = true) ∧
      ∀ suffix ∈ suffixes,
        r.namesGenerator generator suffix = true ∨ ∃ f ∈ filters, f.1.suffix = suffix := by
  unfold selectFilters at h
  split at h
  · cases h
  · next explicit hexplicit =>
    obtain ⟨happlies, hcovered⟩ := of_explicitFilters_eq_ok hexplicit
    have hmem {f : Filter × Nat} : f ∈ filters ↔
        f ∈ explicit ∨ f ∈ r.defaultFilters context (explicit.map Prod.snd) := by
      rw [← Except.ok.inj h, List.mem_reverse, List.mem_append]
    refine ⟨?_, ?_⟩
    · intro f hf
      rcases hmem.1 hf with hf | hf
      · exact happlies f hf
      · have hdefault := (List.mem_filter.1 hf).2
        rw [Bool.and_eq_true, Bool.and_eq_true] at hdefault
        exact hdefault.1.1
    · intro suffix hsuffix
      refine (hcovered suffix hsuffix).imp_right ?_
      rintro ⟨f, hf, heq⟩
      exact ⟨f, hmem.2 (.inl hf), heq⟩

/-- What can be read can be chosen. Let a context have a default generator, and let a text be read
with the suffixes that the registry allows in the context. Then a generator of the registry is
chosen that applies there, and filters of the registry are chosen for it that apply as well. No
suffix is lost: it names a generator, or one of the filters that are chosen. -/
theorem exists_choice (r : Registry) (context : Option Text) (wrapping : Bool) {g : Grammar}
    (source : Text) {a : Abbreviation}
    (hdefault : (r.defaultGenerator? context wrapping).isSome = true)
    (hsuffixes : g.suffixes = some (r.suffixesFor context)) (hread : g.parse source = .ok a) :
    ∃ chosen filters,
      (r.selectGenerator a.suffixes context wrapping).run.value = .ok chosen ∧
      chosen.1 ∈ r.generators ∧ chosen.1.isApplicable context wrapping = true ∧
      (r.selectFilters a.suffixes context (some chosen.1)).run.value = .ok filters ∧
      (∀ f ∈ filters, f.1 ∈ r.filters ∧ f.1.isApplicable context = true) ∧
      ∀ suffix ∈ a.suffixes,
        r.namesGenerator (some chosen.1) suffix = true ∨ ∃ f ∈ filters, f.1.suffix = suffix := by
  obtain ⟨ts, -, hts⟩ := Grammar.parse_eq_ok_iff.1 hread
  have hallowed : ∀ suffix ∈ a.suffixes, suffix ∈ r.suffixesFor context :=
    Grammar.suffixes_allowed (Grammar.parseTokens_sound hts).1 hsuffixes
  obtain ⟨chosen, hchosen, hmember, happlies⟩ := selectGenerator_ok a.suffixes hdefault
  obtain ⟨filters, hfilters, hmembers⟩ := selectFilters_ok (some chosen.1) hallowed
  obtain ⟨hfiltersApply, hcovered⟩ := of_selectFilters_eq_ok hfilters
  exact ⟨chosen, filters, hchosen, hmember, happlies, hfilters,
    fun f hf => ⟨hmembers f hf, hfiltersApply f hf⟩, hcovered⟩

/-- A registry in which a suffix names both a generator that cannot wrap and a filter. -/
def sampleRegistry : Registry :=
  ⟨[.ofDialect {} .html, { Generator.ofDialect {} .haml with suffix := some "e".toList }],
    [.escape, .custom "x".toList ["html".toList] [] none]⟩

/-- For wrapping in the sample, the shared suffix leaves the choice of the generator to the context
and is skipped when filters are chosen. -/
theorem exists_choice_sampleRegistry :
    (sampleRegistry.defaultGenerator? (some "html".toList) true).isSome = true ∧
    ∃ a, ({ suffixes := some (sampleRegistry.suffixesFor (some "html".toList)) } : Grammar).parse
        "p|x|e".toList = .ok a ∧
      ∃ chosen filters,
        (sampleRegistry.selectGenerator a.suffixes (some "html".toList) true).run.value =
          .ok chosen ∧
        chosen.1 ∈ sampleRegistry.generators ∧
        (sampleRegistry.selectFilters a.suffixes (some "html".toList) (some chosen.1)).run.value =
          .ok filters ∧
        ∀ f ∈ filters, f.1 ∈ sampleRegistry.filters := by
  have hdefault : (sampleRegistry.defaultGenerator? (some "html".toList) true).isSome = true := rfl
  have hcut : Token.read "p|x|e".toList = .ok ([⟨.name "p".toList, 0⟩] ++
      [⟨.punctuation .bar, 1⟩, ⟨.name "x".toList, 2⟩] ++
        [⟨.punctuation .bar, 3⟩, ⟨.name "e".toList, 4⟩]) := by decide +kernel
  have hfilter : "x".toList ∈ sampleRegistry.suffixesFor (some "html".toList) :=
    mem_suffixesFor_iff.2 (.inr (by decide))
  have hshared : "e".toList ∈ sampleRegistry.suffixesFor (some "html".toList) :=
    mem_suffixesFor_iff.2 (.inl (by decide))
  have hread : ({ suffixes := some (sampleRegistry.suffixesFor (some "html".toList)) } :
      Grammar).parse "p|x|e".toList =
        .ok (.filtered (.filtered (.element "p".toList [] none) "x".toList) "e".toList) := by
    refine Grammar.parse_of_suffixedForm hcut
      (.suffix (.suffix (.bare (.single (.once (.key (by decide))))) ?_) ?_) (by simp)
      (by rintro value ⟨⟩) <;> rintro allowed ⟨⟩
    · exact hfilter
    · exact hshared
  obtain ⟨chosen, filters, hchosen, hmember, -, hfilters, hall, -⟩ :=
    exists_choice sampleRegistry (some "html".toList) true _ hdefault rfl hread
  exact ⟨hdefault, _, hread, chosen, filters, hchosen, hmember, hfilters,
    fun f hf => (hall f hf).1⟩

end Abbrev.Registry
