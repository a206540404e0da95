import Abbrev.Proofs.Registry.Selection

/-!
# The order in which filters run

The filters for an abbreviation are collected from its last suffix to its first one, then those that
the context uses by default, and the whole list is turned round. What comes of that is said here
from the front (`Registry.selectFilters_order`): first the filters by default, then those that the
suffixes name, suffix by suffix as they are written. Among the filters of one suffix, as among those
by default, the last registered comes first. A filter that a suffix names is not used by default
once more.

A suffix that some generator has names no filter. Of the others, the last one without a filter is
the one that is reported, as the search begins at the end.
-/

namespace Abbrev.Registry

variable {r : Registry} {context : Option Text} {generator : Option Generator} {suffix : Text}

/-- A suffix is that of a generator of the registry, or of the given one. A registered generator
with an empty suffix has none. -/
def IsGeneratorSuffix (r : Registry) (generator : Option Generator) (suffix : Text) : Prop :=
  (suffix ≠ [] ∧ ∃ g ∈ r.generators, g.suffix = some suffix) ∨
    generator.bind Generator.suffix = some suffix

instance (r : Registry) (generator : Option Generator) (suffix : Text) :
    Decidable (r.IsGeneratorSuffix generator suffix) := by
  unfold IsGeneratorSuffix
  infer_instance

/-- The suffixes of an abbreviation that are to name filters, in the order in which they are
written. -/
def filterSuffixes (r : Registry) (generator : Option Generator) (a : Abbreviation) : List Text :=
  a.suffixes.reverse.filter fun suffix => ¬ r.IsGeneratorSuffix generator suffix

/-- Some filter with the suffix applies in the context. -/
def HasFilter (r : Registry) (context : Option Text) (suffix : Text) : Prop :=
  ∃ f ∈ r.filters, f.suffix = suffix ∧ f.isApplicable context = true

/-- The filters that apply in a context with their positions, the last registered first. -/
def applicableFilters (r : Registry) (context : Option Text) : List (Filter × Nat) :=
  (r.filters.zipIdx.filter fun f => f.1.isApplicable context).reverse

/-- The suffixes that are passed over are those of generators. -/
theorem namesGenerator_iff :
    r.namesGenerator generator suffix = true ↔ r.IsGeneratorSuffix generator suffix := by
  unfold namesGenerator generatorSuffixes IsGeneratorSuffix
  rw [Bool.or_eq_true, List.contains_iff_mem, List.mem_filter, List.mem_filterMap, and_comm]
  cases generator with
  | none => simp
  | some g => simp

/-- The filters that a suffix names, turned round, are the filters that apply, less those with
another suffix. -/
theorem reverse_namedFilters (r : Registry) (context : Option Text) (suffix : Text) :
    (r.namedFilters context suffix).reverse =
      (r.applicableFilters context).filter (·.1.suffix = suffix) := by
  rw [applicableFilters, List.filter_reverse, List.filter_filter, namedFilters]
  refine congrArg List.reverse (List.filter_congr fun f _ => ?_)
  simp only [Bool.beq_eq_decide_eq]

/-- A suffix names no filters if there is none for it. -/
theorem namedFilters_eq_nil_iff :
    r.namedFilters context suffix = [] ↔ ¬ r.HasFilter context suffix := by
  constructor
  · rintro hnil ⟨f, hf, rfl, happlies⟩
    exact namedFilters_suffix_ne_nil hf happlies hnil
  · intro hnone
    refine List.filter_eq_nil_iff.2 fun f hf hboth => hnone ?_
    rw [Bool.and_eq_true, beq_iff_eq] at hboth
    exact ⟨f.1, List.fst_mem_of_mem_zipIdx hf, hboth⟩

/-- The filters that suffixes name are those of each suffix that is not passed over, unless there is
none for one of these. Then the first such suffix is reported. -/
theorem explicitFilters_eq (r : Registry) (context : Option Text) (generator : Option Generator)
    (suffixes : List Text) :
    r.explicitFilters context generator suffixes =
      let named := suffixes.filter fun suffix => ¬ r.IsGeneratorSuffix generator suffix
      match named.find? fun suffix => r.namedFilters context suffix = [] with
      | some suffix => .error suffix
      | none => .ok (named.flatMap (r.namedFilters context)) := by
  induction suffixes with
  | nil => rfl
  | cons suffix more ih =>
    rw [explicitFilters, ih]
    dsimp only
    by_cases hgenerator : r.IsGeneratorSuffix generator suffix
    · rw [if_pos (namesGenerator_iff.2 hgenerator), List.filter_cons_of_neg (by simpa)]
    · rw [if_neg (mt namesGenerator_iff.1 hgenerator), List.filter_cons_of_pos (by simpa)]
      split
      · next hnil => rw [List.find?_cons_of_pos (by simpa)]
      · next found hne =>
        rw [List.find?_cons_of_neg (by simpa using hne), List.flatMap_cons]
        split <;> rfl

/-- Among the filters of a registry, a filter is one of some others exactly if its position is that
of one of them. -/
theorem contains_positions_iff {fs : List (Filter × Nat)} (hfs : ∀ f ∈ fs, f ∈ r.filters.zipIdx)
    {f : Filter × Nat} (hf : f ∈ r.filters.zipIdx) :
    (fs.map Prod.snd).contains f.2 = true ↔ f ∈ fs := by
  rw [List.contains_iff_mem, List.mem_map]
  constructor
  · rintro ⟨other, hother, hposition⟩
    -- There is only one filter at a position.
    have hfilter := List.mem_zipIdx_iff_getElem?.1 (hfs other hother)
    rw [hposition, List.mem_zipIdx_iff_getElem?.1 hf] at hfilter
    rwa [← Prod.ext (Option.some.inj hfilter).symm hposition]
  · exact fun h => ⟨f, h, rfl⟩

/-- The filters by default, turned round, are those that apply and are not among some others. -/
theorem reverse_defaultFilters {fs : List (Filter × Nat)} (hfs : ∀ f ∈ fs, f ∈ r.filters.zipIdx) :
    (r.defaultFilters context (fs.map Prod.snd)).reverse =
      (r.applicableFilters context).filter fun f => f.1.isDefaultFor context ∧ f ∉ fs := by
  rw [applicableFilters, List.filter_reverse, List.filter_filter, defaultFilters]
  refine congrArg List.reverse (List.filter_congr fun f hf => ?_)
  have hposition := contains_positions_iff hfs hf
  rw [Bool.eq_iff_iff]
  simp only [Bool.and_eq_true, Bool.not_eq_true', ← Bool.not_eq_true, hposition,
    decide_eq_true_eq]
  rw [and_assoc, and_comm]

/-- The filters that suffixes name are some of the registry. -/
theorem mem_zipIdx_of_mem_flatMap {suffixes : List Text} {f : Filter × Nat}
    (h : f ∈ suffixes.flatMap (r.namedFilters context)) : f ∈ r.filters.zipIdx := by
  obtain ⟨suffix, -, hf⟩ := List.mem_flatMap.1 h
  exact (List.mem_filter.1 hf).1

/-- What is searched from the end and found there is the last of its kind. -/
theorem find?_reverse_eq_some_iff {named : List Text} :
    (named.reverse.find? fun suffix => r.namedFilters context suffix = []) = some suffix ↔
      ∃ before after, named = before ++ suffix :: after ∧ ¬ r.HasFilter context suffix ∧
        ∀ later ∈ after, r.HasFilter context later := by
  rw [List.find?_eq_some_iff_append]
  simp only [decide_eq_true_eq, namedFilters_eq_nil_iff, Bool.not_eq_true', decide_eq_false_iff_not,
    Classical.not_not]
  constructor
  · rintro ⟨hnone, later, earlier, hnamed, hlater⟩
    refine ⟨earlier.reverse, later.reverse, ?_, hnone, ?_⟩
    · rw [← List.reverse_reverse named, hnamed]
      simp
    · simpa using hlater
  · rintro ⟨before, after, rfl, hnone, hafter⟩
    exact ⟨hnone, after.reverse, before.reverse, by simp, by simpa using hafter⟩

/-- Nothing is found if there is a filter for every suffix. -/
theorem find?_reverse_eq_none_iff {named : List Text} :
    (named.reverse.find? fun suffix => r.namedFilters context suffix = []) = none ↔
      ∀ suffix ∈ named, r.HasFilter context suffix := by
  simp only [List.find?_eq_none, List.mem_reverse, decide_eq_true_eq, namedFilters_eq_nil_iff,
    Classical.not_not]

/-- What the choice of filters comes to, told in the order in which suffixes are written. -/
theorem selectFilters_value (r : Registry) (context : Option Text) (generator : Option Generator)
    (a : Abbreviation) :
    let named := r.filterSuffixes generator a
    let applicable := r.applicableFilters context
    let explicit := named.flatMap fun suffix => applicable.filter (·.1.suffix = suffix)
    let defaults := applicable.filter fun f => f.1.isDefaultFor context ∧ f ∉ explicit
    (r.selectFilters a.suffixes context generator).run.value =
      match named.reverse.find? fun suffix => r.namedFilters context suffix = [] with
      | some suffix => .error (.noFilter suffix context)
      | none => .ok (defaults ++ explicit) := by
  intro named applicable explicit defaults
  have hnamed : (a.suffixes.filter fun suffix => ¬ r.IsGeneratorSuffix generator suffix) =
      named.reverse := by
    simp only [named, filterSuffixes, List.filter_reverse, List.reverse_reverse]
  -- Turning the whole list round turns round the suffixes, and the filters of each of them.
  have hexplicit : (named.reverse.flatMap (r.namedFilters context)).reverse = explicit := by
    rw [List.reverse_flatMap, List.reverse_reverse]
    exact congrArg (named.flatMap ·) (funext fun suffix => reverse_namedFilters r context suffix)
  have hdefaults : (r.defaultFilters context
      ((named.reverse.flatMap (r.namedFilters context)).map Prod.snd)).reverse = defaults := by
    have hmem (f : Filter × Nat) :
        f ∈ named.reverse.flatMap (r.namedFilters context) ↔ f ∈ explicit := by
      rw [← hexplicit, List.mem_reverse]
    rw [reverse_defaultFilters fun f => mem_zipIdx_of_mem_flatMap]
    simp only [hmem]
    rfl
  rw [← hdefaults, ← hexplicit, ← List.reverse_append]
  unfold selectFilters
  rw [explicitFilters_eq, hnamed]
  dsimp only
  cases named.reverse.find? fun suffix => r.namedFilters context suffix = [] <;> rfl

/-- The order of filters. Take the suffixes of an abbreviation in the order in which they are
written, without those of generators. The choice of filters fails exactly if there is none for some
of these, and reports the last such suffix. Otherwise the filters that the context uses by default
come first, then those of each suffix in turn, with the last registered first among both. No filter
that a suffix names is also among those by default. -/
theorem selectFilters_order (r : Registry) (context : Option Text) (generator : Option Generator)
    (a : Abbreviation) :
    let named := r.filterSuffixes generator a
    let applicable := r.applicableFilters context
    let explicit := named.flatMap fun suffix => applicable.filter (·.1.suffix = suffix)
    let defaults := applicable.filter fun f => f.1.isDefaultFor context ∧ f ∉ explicit
    let outcome := (r.selectFilters a.suffixes context generator).run.value
    (∀ e, outcome = .error e ↔
        ∃ before suffix after, named = before ++ suffix :: after ∧
          ¬ r.HasFilter context suffix ∧ (∀ later ∈ after, r.HasFilter context later) ∧
          e = .noFilter suffix context) ∧
      (∀ filters, outcome = .ok filters ↔
        (∀ suffix ∈ named, r.HasFilter context suffix) ∧ filters = defaults ++ explicit) ∧
      ∀ f ∈ explicit, f ∉ defaults := by
  intro named applicable explicit defaults outcome
  have houtcome : outcome = _ := r.selectFilters_value context generator a
  rw [houtcome]
  refine ⟨fun e => ?_, fun filters => ?_, fun f hf hdefault => ?_⟩
  · cases hfind : named.reverse.find? fun suffix => r.namedFilters context suffix = [] with
    | none =>
      refine ⟨nofun, ?_⟩
      rintro ⟨before, suffix, after, hnamed, hnone, -, -⟩
      have hall := find?_reverse_eq_none_iff.1 hfind
      exact absurd (hall suffix (by simp [hnamed])) hnone
    | some suffix =>
      constructor
      · intro herror
        obtain ⟨before, after, hnamed, hnone, hafter⟩ := find?_reverse_eq_some_iff.1 hfind
        exact ⟨before, suffix, after, hnamed, hnone, hafter, (Except.error.inj herror).symm⟩
      · rintro ⟨before, last, after, hnamed, hnone, hafter, rfl⟩
        have hlast := find?_reverse_eq_some_iff.2 ⟨before, after, hnamed, hnone, hafter⟩
        rw [Option.some.inj (hfind.symm.trans hlast)]
  · cases hfind : named.reverse.find? fun suffix => r.namedFilters context suffix = [] with
    | none =>
      have hall := find?_reverse_eq_none_iff.1 hfind
      exact ⟨fun hok => ⟨hall, (Except.ok.inj hok).symm⟩, fun h => congrArg _ h.2.symm⟩
    | some suffix =>
      refine ⟨nofun, fun h => ?_⟩
      rw [find?_reverse_eq_none_iff.2 h.1] at hfind
      cases hfind
  · exact (of_decide_eq_true (List.mem_filter.1 hdefault).2).2 hf

/-- The filter of XSL, which the context uses by default, runs before those of suffixes. -/
example : ((ofProfile {}).selectFilters ["t".toList, "haml".toList, "e".toList]
    (some "xsl".toList) none).run.value = .ok [(.xsl, 3), (.escape, 0), (.trim, 2)] := by
  rfl

end Abbrev.Registry
