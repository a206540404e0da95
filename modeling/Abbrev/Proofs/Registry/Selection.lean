import Abbrev.Proofs.Text.Distinct
import Abbrev.Registry

/-!
# What can be named can be chosen

The suffixes that a context allows are those of generators, and those of filters that apply there.
With such suffixes no choice fails: a suffix that names a generator names no filter, whether or not
that generator is used, and for every other one there is a filter (`selectFilters_ok`). A generator
is found as soon as the context has one by default (`selectGenerator_ok`). If no suffix names a
filter, only those run that the context uses by default (`selectFilters_of_generatorSuffixes`).
-/

namespace Abbrev.Registry

variable {r : Registry} {context : Option Text} {wrapping : Bool} {suffix : Text}

/-- The default generator of a context is one of the registry that applies there by default. -/
theorem of_defaultGenerator? {chosen : Generator × Nat}
    (h : r.defaultGenerator? context wrapping = some chosen) :
    chosen.1 ∈ r.generators ∧ chosen.1.isApplicable context wrapping = true ∧
      chosen.1.isDefaultFor context = true := by
  have hfits := List.find?_some h
  rw [Bool.and_eq_true] at hfits
  exact ⟨List.fst_mem_of_mem_zipIdx (List.mem_of_find?_eq_some h), hfits⟩

/-- A generator that a suffix names is one of the registry with that suffix, and applies. -/
theorem of_namedGenerator? {chosen : Generator × Nat}
    (h : r.namedGenerator? context wrapping suffix = some chosen) :
    chosen.1 ∈ r.generators ∧ chosen.1.suffix = some suffix ∧
      chosen.1.isApplicable context wrapping = true := by
  have hfits := List.find?_some h
  rw [Bool.and_eq_true, beq_iff_eq] at hfits
  exact ⟨List.fst_mem_of_mem_zipIdx (List.mem_of_find?_eq_some h), hfits⟩

/-- The generator that is chosen is one that a suffix names, or the default of the context. -/
theorem of_selectGenerator_eq_ok {suffixes : List Text} {chosen : Generator × Nat}
    (h : (r.selectGenerator suffixes context wrapping).run.value = .ok chosen) :
    (∃ suffix ∈ suffixes, r.namedGenerator? context wrapping suffix = some chosen) ∨
      r.defaultGenerator? context wrapping = some chosen := by
  unfold selectGenerator at h
  dsimp only at h
  split at h
  · next suffix found hnamed =>
    obtain ⟨other, hmem, hother⟩ := List.exists_of_findSome?_eq_some hnamed
    obtain ⟨candidate, hcandidate, heq⟩ := Option.map_eq_some_iff.1 hother
    obtain ⟨-, rfl⟩ := Prod.mk.inj heq
    obtain rfl := Except.ok.inj h
    exact .inl ⟨other, hmem, hcandidate⟩
  · split at h
    · next found hdefault =>
      obtain rfl := Except.ok.inj h
      exact .inr hdefault
    · exact nomatch h

/-- The generator that is chosen is one of the registry, and applies. -/
theorem mem_of_selectGenerator_eq_ok {suffixes : List Text} {chosen : Generator × Nat}
    (h : (r.selectGenerator suffixes context wrapping).run.value = .ok chosen) :
    chosen.1 ∈ r.generators ∧ chosen.1.isApplicable context wrapping = true := by
  obtain ⟨suffix, -, hnamed⟩ | hdefault := of_selectGenerator_eq_ok h
  · obtain ⟨hmember, -, happlies⟩ := of_namedGenerator? hnamed
    exact ⟨hmember, happlies⟩
  · obtain ⟨hmember, happlies, -⟩ := of_defaultGenerator? hdefault
    exact ⟨hmember, happlies⟩

/-- Where there is a default generator, some generator of the registry is chosen that applies. -/
theorem selectGenerator_ok (suffixes : List Text)
    (h : (r.defaultGenerator? context wrapping).isSome = true) :
    ∃ chosen, (r.selectGenerator suffixes context wrapping).run.value = .ok chosen ∧
      chosen.1 ∈ r.generators ∧ chosen.1.isApplicable context wrapping = true := by
  obtain ⟨byDefault, hdefault⟩ := Option.isSome_iff_exists.1 h
  have hok : ∃ chosen, (r.selectGenerator suffixes context wrapping).run.value = .ok chosen := by
    unfold selectGenerator
    dsimp only
    split
    · exact ⟨_, rfl⟩
    · rw [hdefault]
      exact ⟨byDefault, rfl⟩
  obtain ⟨chosen, hchosen⟩ := hok
  exact ⟨chosen, hchosen, mem_of_selectGenerator_eq_ok hchosen⟩

/-- A suffix that is allowed in a context names a generator or a filter that applies there. -/
theorem mem_suffixesFor_iff : suffix ∈ r.suffixesFor context ↔
    suffix ∈ r.generatorSuffixes ∨
      ∃ f ∈ r.filters, f.isApplicable context = true ∧ f.suffix = suffix := by
  unfold suffixesFor
  rw [Text.mem_sortDistinct, List.mem_append, List.mem_map]
  simp only [List.mem_filter, and_assoc]

/-- The suffix of a filter that applies names filters, that one at least. -/
theorem namedFilters_suffix_ne_nil {f : Filter} (hf : f ∈ r.filters)
    (happlies : f.isApplicable context = true) : r.namedFilters context f.suffix ≠ [] := by
  obtain ⟨i, hi⟩ := List.mem_iff_getElem?.1 hf
  have hposition : (f, i) ∈ r.filters.zipIdx := List.mk_mem_zipIdx_iff_getElem?.2 hi
  refine List.ne_nil_of_mem (List.mem_filter.2 ⟨hposition, ?_⟩)
  simp [happlies]

/-- A suffix that is allowed in a context and names no generator names filters. -/
theorem namedFilters_ne_nil {generator : Option Generator}
    (h : suffix ∈ r.suffixesFor context) (hgenerator : r.namesGenerator generator suffix = false) :
    r.namedFilters context suffix ≠ [] := by
  rcases mem_suffixesFor_iff.1 h with hmem | ⟨f, hf, happlies, rfl⟩
  · -- The suffix of any generator names one, also of a generator that is not the chosen one.
    simp [namesGenerator, hmem] at hgenerator
  · exact namedFilters_suffix_ne_nil hf happlies

/-- Allowed suffixes name filters of the registry, as far as they name filters. -/
theorem explicitFilters_ok (generator : Option Generator) {suffixes : List Text}
    (h : ∀ suffix ∈ suffixes, suffix ∈ r.suffixesFor context) :
    ∃ found, r.explicitFilters context generator suffixes = .ok found ∧
      ∀ f ∈ found, f.1 ∈ r.filters := by
  induction suffixes with
  | nil => exact ⟨[], rfl, by rintro f ⟨⟩⟩
  | cons suffix more ih =>
    obtain ⟨hsuffix, hmore⟩ := List.forall_mem_cons.1 h
    obtain ⟨found, hfound, hmem⟩ := ih hmore
    rw [explicitFilters]
    split
    · exact ⟨found, hfound, hmem⟩
    · next hgenerator =>
      have hne := namedFilters_ne_nil hsuffix (by simpa using hgenerator)
      split
      · next hnil => exact absurd hnil hne
      · refine ⟨r.namedFilters context suffix ++ found, by rw [hfound]; rfl, ?_⟩
        intro f hf
        rcases List.mem_append.1 hf with hf | hf
        · exact List.fst_mem_of_mem_zipIdx (List.mem_filter.1 hf).1
        · exact hmem f hf

/-- With allowed suffixes, filters of the registry are chosen. -/
theorem selectFilters_ok (generator : Option Generator) {suffixes : List Text}
    (h : ∀ suffix ∈ suffixes, suffix ∈ r.suffixesFor context) :
    ∃ chosen, (r.selectFilters suffixes context generator).run.value = .ok chosen ∧
      ∀ f ∈ chosen, f.1 ∈ r.filters := by
  obtain ⟨found, hfound, hmem⟩ := explicitFilters_ok generator h
  unfold selectFilters
  rw [hfound]
  refine ⟨_, rfl, ?_⟩
  intro f hf
  rcases List.mem_append.1 (List.mem_reverse.1 hf) with hf | hf
  · exact hmem f hf
  · exact List.fst_mem_of_mem_zipIdx (List.mem_filter.1 hf).1

/-- Suffixes that all name generators name no filters. -/
theorem explicitFilters_eq_nil (generator : Option Generator) {suffixes : List Text}
    (h : ∀ suffix ∈ suffixes, suffix ∈ r.generatorSuffixes) :
    r.explicitFilters context generator suffixes = .ok [] := by
  induction suffixes with
  | nil => rfl
  | cons suffix more ih =>
    obtain ⟨hsuffix, hmore⟩ := List.forall_mem_cons.1 h
    rw [explicitFilters, if_pos (by simp [namesGenerator, hsuffix]), ih hmore]

/-- With suffixes that all name generators, the filters are those that the context uses by
default. -/
theorem selectFilters_of_generatorSuffixes (generator : Option Generator) {suffixes : List Text}
    (h : ∀ suffix ∈ suffixes, suffix ∈ r.generatorSuffixes) :
    ∃ chosen, (r.selectFilters suffixes context generator).run.value = .ok chosen ∧
      ∀ f ∈ chosen, f.1 ∈ r.filters ∧ f.1.isDefaultFor context = true := by
  unfold selectFilters
  rw [explicitFilters_eq_nil generator h]
  refine ⟨_, rfl, ?_⟩
  intro f hf
  obtain ⟨hposition, hdefault⟩ := List.mem_filter.1 (List.mem_reverse.1 hf)
  rw [Bool.and_eq_true, Bool.and_eq_true] at hdefault
  exact ⟨List.fst_mem_of_mem_zipIdx hposition, hdefault.1.2⟩

end Abbrev.Registry
