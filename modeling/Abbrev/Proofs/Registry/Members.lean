import Abbrev.Registry
import Abbrev.Rendering

/-!
# The members of the registry

What sets the generators and filters of this library apart from others that a registry may hold:
each generator has a form for elements, only HAML writes no snippets, and no filter refuses a node.
So writing a forest with them does not fail (`Generator.fault?_eq_none`).
-/

namespace Abbrev

/-- A generator with a form for elements writes any forest, with filters that refuse nothing. -/
theorem Generator.fault?_eq_none {g : Generator} {filters : List Filter} (hg : g.dialect ≠ .textual)
    (hfilters : ∀ f ∈ filters, f.failure? = none) (nodes : List Node) :
    g.fault? filters nodes = none := by
  have hnone : filters.findSome? Filter.failure? = none := List.findSome?_eq_none_iff.2 hfilters
  unfold fault?
  rw [hnone]
  cases nodes with
  | nil => rfl
  | cons node rest => simp [hg]

namespace Registry

variable {profile : Profile} {g : Generator}

/-- A generator of this library is that of a dialect but the textual one. -/
theorem mem_generators_iff : g ∈ (ofProfile profile).generators ↔
    ∃ dialect, dialect ≠ .textual ∧ g = .ofDialect profile dialect := by
  simp only [ofProfile, List.mem_cons, List.not_mem_nil, or_false]
  constructor
  · rintro (rfl | rfl | rfl)
    · exact ⟨.html, by decide, rfl⟩
    · exact ⟨.xml, by decide, rfl⟩
    · exact ⟨.haml, by decide, rfl⟩
  · rintro ⟨dialect, hdialect, rfl⟩
    cases dialect with
    | html => exact .inl rfl
    | xml => exact .inr (.inl rfl)
    | haml => exact .inr (.inr rfl)
    | textual => exact absurd rfl hdialect

/-- Every generator of this library has a form for elements. -/
theorem dialect_ne_textual (h : g ∈ (ofProfile profile).generators) : g.dialect ≠ .textual := by
  obtain ⟨dialect, hdialect, rfl⟩ := mem_generators_iff.1 h
  cases dialect <;> exact hdialect

/-- Elements in HAML are not written as snippets. -/
theorem usesSnippets_eq_false (h : g ∈ (ofProfile profile).generators) (hhaml : g.dialect = .haml) :
    g.usesSnippets = false := by
  obtain ⟨dialect, -, rfl⟩ := mem_generators_iff.1 h
  cases dialect with
  | haml => rfl
  | _ => cases hhaml

/-- HAML is the only generator of this library that has no place for texts. -/
theorem eq_haml_of_supportsText (h : g ∈ (ofProfile profile).generators)
    (htexts : g.supportsText = false) : g = .ofDialect profile .haml := by
  obtain ⟨dialect, -, rfl⟩ := mem_generators_iff.1 h
  cases dialect with
  | haml => rfl
  | _ => cases htexts

/-- Every generator of this library has the profile of the registry. -/
theorem profile_eq (h : g ∈ (ofProfile profile).generators) : g.profile = profile := by
  obtain ⟨dialect, -, rfl⟩ := mem_generators_iff.1 h
  cases dialect <;> rfl

/-- No filter of this library refuses a node. -/
theorem failure?_eq_none {f : Filter} (h : f ∈ (ofProfile profile).filters) :
    f.failure? = none := by
  simp only [ofProfile, List.mem_cons, List.not_mem_nil, or_false] at h
  rcases h with rfl | rfl | rfl | rfl <;> rfl

/-- The only filter of this library that a context uses by default is that of XSL, which leaves
wrapped text as it is. -/
theorem wrapped_prepare_of_isDefaultFor {f : Filter} {context : Option Text}
    (h : f ∈ (ofProfile profile).filters) (hdefault : f.isDefaultFor context = true) (node : Node) :
    (f.prepare node).wrapped = node.wrapped := by
  have hnone {f : Filter} (hcontexts : f.defaultContexts = [])
      (hdefault : f.isDefaultFor context = true) : False := by
    rw [Filter.isDefaultFor, hcontexts] at hdefault
    cases context <;> cases hdefault
  simp only [ofProfile, List.mem_cons, List.not_mem_nil, or_false] at h
  rcases h with rfl | rfl | rfl | rfl
  · exact (hnone rfl hdefault).elim
  · rfl
  · exact (hnone rfl hdefault).elim
  · unfold Filter.prepare
    dsimp only
    split
    · split <;> rfl
    · rfl

/-- Writing a forest with generators and filters of this library does not fail. -/
theorem fault?_eq_none (h : g ∈ (ofProfile profile).generators) {filters : List Filter}
    (hfilters : ∀ f ∈ filters, ∃ p, f ∈ (ofProfile p).filters) (nodes : List Node) :
    g.fault? filters nodes = none := by
  refine Generator.fault?_eq_none (dialect_ne_textual h) ?_ nodes
  intro f hf
  obtain ⟨p, hp⟩ := hfilters f hf
  exact failure?_eq_none hp

end Registry

end Abbrev
