import Abbrev.Log

/-!
# Registries

A registry holds generators and filters in an order. The suffixes of an abbreviation and the context
decide which of them are used: the generator is the first one that fits, and filters are collected
from the outermost suffix inwards, followed by those used by default, and then run in reverse.

Members are chosen together with their positions, since two filters of a registry may be alike. A
position stands for the identity of a member: filters at two positions are two filters, even if they
are equal as values. So a registry in which one and the same filter is registered twice is not
represented here.
-/

namespace Abbrev

/-- Why no generator or filter can be chosen. -/
inductive SelectionError where
  /-- No generator is the default in the context. -/
  | noGenerator (context : Option Text)
  /-- No generator is the default for wrapping in the context. -/
  | cannotWrap (context : Option Text)
  /-- No filter with the suffix applies in the context. -/
  | noFilter (suffix : Text) (context : Option Text)
  deriving DecidableEq, Repr

/-- The wording of an error. -/
def SelectionError.message : SelectionError → String
  | .noGenerator context => s!"No generator applicable to context {Event.contextName context}"
  | .cannotWrap context => s!"No generator can wrap in context {Event.contextName context}"
  | .noFilter suffix context =>
    s!"No filter '{suffix.str}' applicable to context {Event.contextName context}"

/-- The suffix that an error is about. -/
def SelectionError.suffix? : SelectionError → Option Text
  | .noFilter suffix _ => some suffix
  | _ => none

/-- The generators and filters at hand. -/
structure Registry where
  generators : List Generator
  filters : List Filter

namespace Registry

/-- The registry of all generators and filters of this library. -/
def ofProfile (profile : Profile) : Registry :=
  ⟨[.ofDialect profile .html, .ofDialect profile .xml, .ofDialect profile .haml],
    [.escape, .comment profile.newline, .trim, .xsl]⟩

/-- The registry for the profile that the environment sets, with records of both. -/
def ofEnvironment (env : Environment) : ExceptT ProfileError Logged Registry := do
  let overrides ← (Overrides.ofEnvironment env : Except ProfileError Overrides)
  if !overrides.isEmpty then ExceptT.lift (Logged.record (.overridden overrides))
  let profile ← (Profile.override {} overrides : Except ProfileError Profile)
  let registry := ofProfile profile
  ExceptT.lift (Logged.record (.registered registry.generators registry.filters))
  return registry

/-- The suffixes that name generators. -/
def generatorSuffixes (r : Registry) : List Text :=
  (r.generators.filterMap Generator.suffix).filter fun suffix => !suffix.isEmpty

/-- All suffixes. -/
def suffixes (r : Registry) : List Text :=
  Text.sortDistinct (r.generatorSuffixes ++ r.filters.map Filter.suffix)

/-- The suffixes that can be used in a context: those of all generators, as one that does not apply
leaves the choice to the context, and those of the filters that apply. -/
def suffixesFor (r : Registry) (context : Option Text) : List Text :=
  Text.sortDistinct
    (r.generatorSuffixes ++ (r.filters.filter (·.isApplicable context)).map Filter.suffix)

/-- The first generator that applies in a context and is the default there, with its position. -/
def defaultGenerator? (r : Registry) (context : Option Text) (wrapping : Bool) :
    Option (Generator × Nat) :=
  r.generators.zipIdx.find? fun (g, _) => g.isApplicable context wrapping && g.isDefaultFor context

/-- The first generator that a suffix names and that applies, with its position. -/
def namedGenerator? (r : Registry) (context : Option Text) (wrapping : Bool) (suffix : Text) :
    Option (Generator × Nat) :=
  r.generators.zipIdx.find? fun (g, _) =>
    g.suffix == some suffix && g.isApplicable context wrapping

/-- The generator for an abbreviation with the given suffixes, the outermost first: the first that a
suffix names, or else the default. -/
def selectGenerator (r : Registry) (suffixes : List Text) (context : Option Text)
    (wrapping : Bool) : ExceptT SelectionError Logged (Generator × Nat) := do
  let named := suffixes.findSome? fun suffix =>
    (r.namedGenerator? context wrapping suffix).map fun chosen => (suffix, chosen)
  match named with
  | some (suffix, chosen) =>
    ExceptT.lift (Logged.record (.generatorNamed chosen.1 suffix))
    return chosen
  | none =>
    match r.defaultGenerator? context wrapping with
    | some chosen =>
      ExceptT.lift (Logged.record (.generatorByDefault chosen.1 context))
      return chosen
    | none =>
      ExceptT.lift (Logged.record (.noGenerator context wrapping))
      throw (.noGenerator context)

/-- The filters that a suffix names and that apply, with their positions. -/
def namedFilters (r : Registry) (context : Option Text) (suffix : Text) : List (Filter × Nat) :=
  r.filters.zipIdx.filter fun (f, _) => f.suffix == suffix && f.isApplicable context

/-- Whether a suffix names a generator: one of the registry, or the one in use. -/
def namesGenerator (r : Registry) (generator : Option Generator) (suffix : Text) : Bool :=
  r.generatorSuffixes.contains suffix || generator.any fun g => g.suffix == some suffix

/-- The filters that suffixes name, or the first suffix that names none. -/
def explicitFilters (r : Registry) (context : Option Text) (generator : Option Generator) :
    List Text → Except Text (List (Filter × Nat))
  | [] => .ok []
  | suffix :: more =>
    if r.namesGenerator generator suffix then r.explicitFilters context generator more
    else
      match r.namedFilters context suffix with
      | [] => .error suffix
      | found => (r.explicitFilters context generator more).map (found ++ ·)

/-- The filters that a context uses by default, but for those at the given positions. -/
def defaultFilters (r : Registry) (context : Option Text) (positions : List Nat) :
    List (Filter × Nat) :=
  r.filters.zipIdx.filter fun (f, position) =>
    f.isApplicable context && f.isDefaultFor context && !positions.contains position

/-- The filters for an abbreviation with the given suffixes, in the order in which they run. -/
def selectFilters (r : Registry) (suffixes : List Text) (context : Option Text)
    (generator : Option Generator) : ExceptT SelectionError Logged (List (Filter × Nat)) := do
  match r.explicitFilters context generator suffixes with
  | .error suffix =>
    ExceptT.lift (Logged.record (.noFilter suffix context))
    throw (.noFilter suffix context)
  | .ok explicit =>
    let chosen := (explicit ++ r.defaultFilters context (explicit.map Prod.snd)).reverse
    ExceptT.lift (Logged.record (.filtersSelected context (chosen.map Prod.fst)))
    return chosen

end Registry

end Abbrev
