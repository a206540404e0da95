import Abbrev.Proofs.Editing.Outcome
import Abbrev.Proofs.Forest.Outline
import Abbrev.Proofs.Registry.Members
import Abbrev.Proofs.Registry.Order
import Abbrev.Proofs.Rendering.Placement
import Abbrev.Proofs.Rendering.Values
import Abbrev.Proofs.Text.ListMarkers

/-!
# Trimming and escaping in either order

The filters `trim` and `escape` may be run in either order, next to each other among any others
(`Editing.trim_escape_comm`). Both change the wrapped text of a node before it is written, and there
the two orders come to the same by `Text.trimListMarkers_escape`. All else that is escaped is not
trimmed.

What filters do to a forest is all in what they do to a node before it is written and to what is
written for it. So lists of filters that do the same to each node write the same
(`Filter.Agree`), with the same records.
-/

namespace Abbrev

namespace Filter

variable {filters others : List Filter}

/-! ## Filters that do the same -/

/-- Two lists of filters refuse nodes with the same message, hand on the same nodes, and leave the
same of what is written for a node. -/
structure Agree (filters others : List Filter) : Prop where
  refuse : filters.findSome? failure? = others.findSome? failure?
  prepare : ∀ node, prepareAll filters node = prepareAll others node
  finish : ∀ node own, finishAll filters node own = finishAll others node own

/-- Filters that do the same do so behind others. -/
theorem Agree.append_left (h : Agree filters others) (before : List Filter) :
    Agree (before ++ filters) (before ++ others) := by
  refine ⟨?_, fun node => ?_, fun node own => ?_⟩
  · rw [List.findSome?_append, List.findSome?_append, h.refuse]
  · rw [prepareAll_append, prepareAll_append, h.prepare]
  · rw [finishAll_append, finishAll_append, h.finish]

/-- Removing list markers and escaping do the same in either order. -/
theorem agree_trim_escape : Agree [trim, escape] [escape, trim] := by
  refine ⟨rfl, fun node => ?_, fun _ _ => rfl⟩
  have hwrapped : (node.wrapped.map Text.trimListMarkers).map Text.escape =
      (node.wrapped.map Text.escape).map Text.trimListMarkers := by
    rw [Option.map_map, Option.map_map]
    exact congrArg (node.wrapped.map ·) (funext fun t => (Text.trimListMarkers_escape t).symm)
  exact congrArg (fun wrapped => { escape.prepare node with wrapped }) hwrapped

end Filter

variable {g : Generator} {filters others : List Filter}

/-- Filters that do the same write the same for each node of a forest. -/
theorem Node.renderAll_congr (h : Filter.Agree filters others) (forest : List Node) :
    Node.renderAll g filters forest = Node.renderAll g others forest := by
  induction forest using Node.forest_induction with
  | nil => rfl
  | cons node rest ihChildren ihRest =>
    obtain ⟨kind, index, text, wrapped, children⟩ := node
    have hfinish (node : Node) : Filter.finishAll filters node = Filter.finishAll others node :=
      funext (h.finish node)
    rw [Node.renderAll, Node.renderAll, ihRest, Node.render, Node.render, ihChildren, h.prepare,
      hfinish]

namespace Generator

/-- Filters that do the same write the same template, with the same records. -/
theorem assemble_congr (h : Filter.Agree filters others) (forest : List Node) :
    g.assemble filters forest = g.assemble others forest := by
  unfold assemble
  rw [Node.renderAll_congr h]

/-- Filters that do the same fail alike. -/
theorem fault?_congr (h : Filter.Agree filters others) (forest : List Node) :
    g.fault? filters forest = g.fault? others forest := by
  unfold fault?
  rw [h.refuse]

end Generator

namespace Registry

variable {r : Registry} {profile : Profile} {context : Option Text} {wrapping : Bool}

/-! ## The choice of the two filters -/

/-- A suffix that names no generator leaves the choice of the generator to the others. -/
theorem selectGenerator_cons_of_none {suffix : Text} (suffixes : List Text)
    (h : r.namedGenerator? context wrapping suffix = none) :
    r.selectGenerator (suffix :: suffixes) context wrapping =
      r.selectGenerator suffixes context wrapping := by
  unfold selectGenerator
  rw [List.findSome?_cons, h]
  rfl

/-- Filters by default are all that are not at one of the positions, in whatever order these are
given. -/
theorem defaultFilters_congr {positions more : List Nat} (h : ∀ n, n ∈ positions ↔ n ∈ more) :
    r.defaultFilters context positions = r.defaultFilters context more := by
  unfold defaultFilters
  have hcontains (n : Nat) : positions.contains n = more.contains n := by
    rw [Bool.eq_iff_iff, List.contains_iff_mem, List.contains_iff_mem, h]
  simp only [hcontains]

/-- Where a generator of this library applies, the filters `escape` and `trim` do. -/
theorem contains_allContexts (hg : g ∈ (ofProfile profile).generators)
    (happlies : g.isApplicable context wrapping = true) :
    context.any allContexts.contains = true := by
  rw [Generator.isApplicable, Bool.and_eq_true] at happlies
  obtain ⟨dialect, hdialect, rfl⟩ := mem_generators_iff.1 hg
  have hsubset : (Generator.ofDialect profile dialect).contexts ⊆ allContexts := by
    cases dialect with
    | haml =>
      change ["html".toList, "xhtml".toList, "haml".toList] ⊆ allContexts
      decide
    | _ => exact List.subset_append_left markupContexts _
  cases context with
  | none => exact happlies.2
  | some name => exact List.contains_iff_mem.2 (hsubset (List.contains_iff_mem.1 happlies.2))

/-- The suffix of `escape` names that filter alone. -/
theorem namedFilters_escape (h : context.any allContexts.contains = true) :
    (ofProfile profile).namedFilters context "e".toList = [(.escape, 0)] := by
  have happlies : Filter.escape.isApplicable context = true := h
  simp [namedFilters, ofProfile, happlies, Filter.suffix]

/-- The suffix of `trim` names that filter alone. -/
theorem namedFilters_trim (h : context.any allContexts.contains = true) :
    (ofProfile profile).namedFilters context "t".toList = [(.trim, 2)] := by
  have happlies : Filter.trim.isApplicable context = true := h
  simp [namedFilters, ofProfile, happlies, Filter.suffix]

/-- No generator of this library has the suffix of `escape` or that of `trim`. -/
theorem suffix_ne (hg : g ∈ (ofProfile profile).generators) {suffix : Text}
    (h : suffix = "e".toList ∨ suffix = "t".toList) : g.suffix ≠ some suffix := by
  obtain ⟨dialect, -, rfl⟩ := mem_generators_iff.1 hg
  rcases h with rfl | rfl <;> cases dialect <;> exact nofun

/-- The suffixes of `escape` and of `trim` choose no generator of this library. -/
theorem namedGenerator?_eq_none {suffix : Text} (h : suffix = "e".toList ∨ suffix = "t".toList) :
    (ofProfile profile).namedGenerator? context wrapping suffix = none := by
  cases hnamed : (ofProfile profile).namedGenerator? context wrapping suffix with
  | none => rfl
  | some chosen =>
    obtain ⟨hmember, hsuffix, -⟩ := of_namedGenerator? hnamed
    exact absurd hsuffix (suffix_ne hmember h)

/-- The suffixes of `escape` and of `trim` are not passed over. -/
theorem namesGenerator_eq_false (hg : g ∈ (ofProfile profile).generators) {suffix : Text}
    (h : suffix = "e".toList ∨ suffix = "t".toList) :
    (ofProfile profile).namesGenerator (some g) suffix = false := by
  rw [← Bool.not_eq_true, namesGenerator_iff]
  rintro (⟨-, other, hother, hsuffix⟩ | hsuffix)
  · exact suffix_ne hother h hsuffix
  · exact suffix_ne hg h hsuffix

/-- A suffix that names one filter puts it before those of the other suffixes. -/
theorem explicitFilters_cons {generator : Option Generator} {suffix : Text} {f : Filter × Nat}
    (hgenerator : r.namesGenerator generator suffix = false)
    (hnamed : r.namedFilters context suffix = [f]) (suffixes : List Text) :
    r.explicitFilters context generator (suffix :: suffixes) =
      (r.explicitFilters context generator suffixes).map (f :: ·) := by
  rw [explicitFilters, hgenerator, if_neg Bool.false_ne_true, hnamed]
  rfl

/-- The choice of filters for two abbreviations whose outermost suffixes name the same two filters,
one in each order: it fails with the same error, or gives the same filters but for these two, which
run last. -/
theorem selectFilters_swap {generator : Option Generator} {first second : Text}
    {f h : Filter × Nat} (hfirst : r.namesGenerator generator first = false)
    (hsecond : r.namesGenerator generator second = false)
    (hf : r.namedFilters context first = [f]) (hh : r.namedFilters context second = [h])
    (suffixes : List Text) :
    (∃ e, (r.selectFilters (first :: second :: suffixes) context generator).run.value =
        .error e ∧
      (r.selectFilters (second :: first :: suffixes) context generator).run.value = .error e) ∨
    ∃ before, (r.selectFilters (first :: second :: suffixes) context generator).run.value =
        .ok (before ++ [h, f]) ∧
      (r.selectFilters (second :: first :: suffixes) context generator).run.value =
        .ok (before ++ [f, h]) := by
  unfold selectFilters
  rw [explicitFilters_cons hfirst hf, explicitFilters_cons hsecond hh,
    explicitFilters_cons hsecond hh, explicitFilters_cons hfirst hf]
  cases r.explicitFilters context generator suffixes with
  | error suffix => exact .inl ⟨.noFilter suffix context, rfl, rfl⟩
  | ok found =>
    have hpositions (n : Nat) : n ∈ (f :: h :: found).map Prod.snd ↔
        n ∈ (h :: f :: found).map Prod.snd := by
      simp only [List.map_cons, List.mem_cons, or_left_comm]
    -- Both are among the filters that a suffix names, so none of them is used by default.
    have hdefaults : r.defaultFilters context _ = r.defaultFilters context _ :=
      defaultFilters_congr hpositions
    have hlast (f h : Filter × Nat) : (f :: h :: found ++ r.defaultFilters context
        ((f :: h :: found).map Prod.snd)).reverse =
          (found ++ r.defaultFilters context ((f :: h :: found).map Prod.snd)).reverse ++
            [h, f] := by
      rw [List.cons_append, List.cons_append, List.reverse_cons, List.reverse_cons,
        List.append_assoc]
      rfl
    refine .inr ⟨(found ++ r.defaultFilters context ((f :: h :: found).map Prod.snd)).reverse,
      congrArg Except.ok (hlast f h), ?_⟩
    rw [hdefaults]
    exact congrArg Except.ok (hlast h f)

end Registry

/-- A suffix makes no difference to the forest, nor to whether there is one. -/
theorem Abbreviation.expand?_filtered (a : Abbreviation) (suffix : Text) :
    (filtered a suffix).expand? = a.expand? := by
  funext setting index wrapped
  rw [expand?, oversized?, expand, expansion, ← expand, ← expand?]

namespace Editing

variable {b : Buffer}

/-! ## Both orders in an abbreviation -/

/-- Two abbreviations that expand into the same forest or into none have the same outcome if the
same generator is chosen for them, and filters that do the same or none at all. -/
theorem outcome_insertExpansion_congr {registry : Registry} {a other : Abbreviation}
    {wrapping : Bool} (hexpand : a.expand? = other.expand?)
    (hgenerator : (registry.selectGenerator a.suffixes b.context wrapping).run.value =
      (registry.selectGenerator other.suffixes b.context wrapping).run.value)
    (hfilters : ∀ generator,
      (registry.selectGenerator other.suffixes b.context wrapping).run.value = .ok generator →
      (∃ e, (registry.selectFilters a.suffixes b.context (some generator.1)).run.value = .error e ∧
        (registry.selectFilters other.suffixes b.context (some generator.1)).run.value =
          .error e) ∨
      ∃ fs gs, (registry.selectFilters a.suffixes b.context (some generator.1)).run.value = .ok fs ∧
        (registry.selectFilters other.suffixes b.context (some generator.1)).run.value = .ok gs ∧
        Filter.Agree (fs.map Prod.fst) (gs.map Prod.fst)) (wrapped : Option Text) :
    (insertExpansion registry a wrapped wrapping).outcome b =
      (insertExpansion registry other wrapped wrapping).outcome b := by
  unfold insertExpansion
  rw [Edit.outcome_bind_of_ok b (Edit.outcome_get b),
    Edit.outcome_bind_of_ok b (Edit.outcome_get b), Edit.outcome_bind, Edit.outcome_bind,
    Edit.outcome_check_eq, Edit.outcome_check_eq, hgenerator]
  cases hvalue : (registry.selectGenerator other.suffixes b.context wrapping).run.value with
  | error e => rfl
  | ok generator =>
    dsimp only [Except.mapError]
    rw [Edit.outcome_bind, Edit.outcome_bind, Edit.outcome_check_eq, Edit.outcome_check_eq]
    obtain ⟨e, ha, hother⟩ | ⟨fs, gs, ha, hother, hagree⟩ := hfilters generator hvalue
    · rw [ha, hother]
      rfl
    · rw [ha, hother]
      dsimp only [Except.mapError]
      simp only [hexpand, Generator.fault?_congr hagree, Node.misplacedIn?_eq_none,
        Generator.assemble_congr hagree]

/-- Two suffixes for `trim` and `escape` may be written in either order. -/
theorem outcome_insertExpansion_trim_escape (profile : Profile) (a : Abbreviation)
    (wrapped : Option Text) (wrapping : Bool) (b : Buffer) :
    (insertExpansion (.ofProfile profile) (.filtered (.filtered a "t".toList) "e".toList) wrapped
        wrapping).outcome b =
      (insertExpansion (.ofProfile profile) (.filtered (.filtered a "e".toList) "t".toList) wrapped
        wrapping).outcome b := by
  have hexpand (first second : Text) :
      (Abbreviation.filtered (.filtered a first) second).expand? = a.expand? := by
    rw [Abbreviation.expand?_filtered, Abbreviation.expand?_filtered]
  refine outcome_insertExpansion_congr ((hexpand _ _).trans (hexpand _ _).symm) ?_ ?_ wrapped
  · -- Neither suffix has a say in the choice of the generator.
    change ((Registry.ofProfile profile).selectGenerator ("e".toList :: "t".toList :: a.suffixes)
        b.context wrapping).run.value =
      ((Registry.ofProfile profile).selectGenerator ("t".toList :: "e".toList :: a.suffixes)
        b.context wrapping).run.value
    rw [Registry.selectGenerator_cons_of_none _ (Registry.namedGenerator?_eq_none (.inl rfl)),
      Registry.selectGenerator_cons_of_none _ (Registry.namedGenerator?_eq_none (.inr rfl)),
      Registry.selectGenerator_cons_of_none _ (Registry.namedGenerator?_eq_none (.inr rfl)),
      Registry.selectGenerator_cons_of_none _ (Registry.namedGenerator?_eq_none (.inl rfl))]
  · intro generator hgenerator
    obtain ⟨hmember, happlies⟩ := Registry.mem_of_selectGenerator_eq_ok hgenerator
    -- A context in which a generator applies is one of those of both filters.
    have hall := Registry.contains_allContexts hmember happlies
    obtain ⟨e, ha, hother⟩ | ⟨before, ha, hother⟩ := Registry.selectFilters_swap
      (Registry.namesGenerator_eq_false hmember (.inl rfl))
      (Registry.namesGenerator_eq_false hmember (.inr rfl)) (Registry.namedFilters_escape hall)
      (Registry.namedFilters_trim hall) a.suffixes
    · exact .inl ⟨e, ha, hother⟩
    · refine .inr ⟨_, _, ha, hother, ?_⟩
      rw [List.map_append, List.map_append]
      exact Filter.agree_trim_escape.append_left _

/-- The order of `trim` and `escape` makes no difference. A generator of this library writes every
forest with both of them without failing, and the same template in either order, since list markers
may be removed before or after a text is escaped. So the two suffixes may be written in either order
at the end of an abbreviation: all that is expanded or wrapped with it, and each failure, is the
same. -/
theorem trim_escape_comm (profile : Profile) {g : Generator}
    (hg : g ∈ (Registry.ofProfile profile).generators) (forest : List Node) :
    (∀ filters ∈ [[Filter.trim, .escape], [.escape, .trim]],
        g.fault? filters forest = none ∧ Node.misplacedIn? g filters forest = none) ∧
      g.assemble [.trim, .escape] forest = g.assemble [.escape, .trim] forest ∧
      (∀ t : Text, t.escape.trimListMarkers = t.trimListMarkers.escape) ∧
      ∀ (a : Abbreviation) (wrapped : Option Text) (wrapping : Bool) (b : Buffer),
        (insertExpansion (.ofProfile profile) (.filtered (.filtered a "t".toList) "e".toList)
            wrapped wrapping).outcome b =
          (insertExpansion (.ofProfile profile) (.filtered (.filtered a "e".toList) "t".toList)
            wrapped wrapping).outcome b := by
  refine ⟨?_, Generator.assemble_congr Filter.agree_trim_escape forest,
    Text.trimListMarkers_escape, outcome_insertExpansion_trim_escape profile⟩
  intro filters hfilters
  have hrefuse : ∀ f ∈ filters, f.failure? = none := by
    simp only [List.mem_cons, List.not_mem_nil, or_false] at hfilters
    rcases hfilters with rfl | rfl <;> simp [Filter.failure?]
  exact ⟨Generator.fault?_eq_none (Registry.dialect_ne_textual hg) hrefuse forest,
    Node.misplacedIn?_eq_none g filters forest⟩

/-- A list entry with two lines of wrapped text. -/
def sampleEntry : List Node :=
  [⟨.element "li".toList [] none, 0, none, some " * a<b\n10.\t<c".toList, []⟩]

/-- In the sample, both list markers are removed, and what follows them is escaped. -/
theorem trim_escape_comm_sampleEntry :
    Generator.ofDialect {} .xml ∈ (Registry.ofProfile {}).generators ∧
      ((Generator.ofDialect {} .xml).assemble [.escape, .trim] sampleEntry).value.text =
        "&lt;li&gt;\n\ta&lt;b\n\t&lt;c\n&lt;/li&gt;".toList := by
  have hg : Generator.ofDialect {} .xml ∈ (Registry.ofProfile {}).generators :=
    List.mem_cons_of_mem _ List.mem_cons_self
  obtain ⟨-, hsame, -⟩ := trim_escape_comm {} hg sampleEntry
  refine ⟨hg, ?_⟩
  rw [← hsame]
  decide +kernel

end Editing

end Abbrev
