import Abbrev.Abbreviation.Parser
import Abbrev.Filter
import Abbrev.Profile.Environment

/-!
# Records of what is done

The steps of an expansion leave records. Errors are always shown, and the other records on request.
`Logged` is the monad of values with the records made on the way to them; what a value is never
depends on the records (`Logged.value_bind`).
-/

namespace Abbrev

/-- Something worth a record. -/
inductive Event where
  | overridden (overrides : Overrides)
  | registered (generators : List Generator) (filters : List Filter)
  | generatorNamed (generator : Generator) (suffix : Text)
  | generatorByDefault (generator : Generator) (context : Option Text)
  | noGenerator (context : Option Text) (wrapping : Bool)
  | filtersSelected (context : Option Text) (filters : List Filter)
  | noFilter (suffix : Text) (context : Option Text)
  | expanded (nodes : Nat)
  | renamed (renames : List (Text × Text))
  | assembled (nodes length : Nat) (names : List Text)
  | rolledBack
  | noDefault (context : Option Text)
  | notAnAbbreviation (key : Text) (error : ReadError)
  | ambiguous (key : Text)
  | cannotWrap (context : Option Text)

namespace Event

/-- Whether the event is an error. -/
def isError : Event → Bool
  | noGenerator _ _ | noFilter _ _ | cannotWrap _ => true
  | _ => false

/-- The part of the program that an event belongs to. -/
def origin : Event → String
  | overridden _ => "zen_ref.settings"
  | registered _ _ | generatorNamed _ _ | generatorByDefault _ _ | noGenerator _ _
  | filtersSelected _ _ | noFilter _ _ => "zen_ref.registry"
  | expanded _ => "zen_ref.expander"
  | renamed _ | assembled _ _ _ => "zen_ref.builder"
  | rolledBack => "zen_ref.host"
  | noDefault _ | notAnAbbreviation _ _ | ambiguous _ | cannotWrap _ => "zen_ref.runner"

/-- Descriptions with commas between them. -/
def listed {α : Type} (description : α → Text) (items : List α) : String :=
  (Text.join ", ".toList (items.map description)).str

/-- A context in messages. -/
def contextName (context : Option Text) : String :=
  (Text.quotedOrNone context).str

/-- The wording of an event. -/
def message : Event → String
  | overridden overrides => s!"profile overrides from environment: {overrides.description.str}"
  | registered generators filters =>
    let generators := listed Generator.description generators
    let filters := listed Filter.description filters
    s!"registry: generators=({generators}) filters=({filters})"
  | generatorNamed generator suffix =>
    s!"generator {generator.description.str} selected by suffix '{suffix.str}'"
  | generatorByDefault generator context =>
    s!"default generator {generator.description.str} for context {contextName context}"
  | noGenerator context wrapping =>
    let wrapping := if wrapping then "True" else "False"
    s!"no generator applicable to context {contextName context} (wrapping={wrapping})"
  | filtersSelected context filters =>
    s!"filters for context {contextName context}: [{listed Filter.description filters}]"
  | noFilter suffix context =>
    s!"no filter '{suffix.str}' applicable to context {contextName context}"
  | expanded nodes => s!"expanded into {nodes} top-level node(s)"
  | renamed renames =>
    let entry := fun (pair : Text × Text) =>
      Text.quoted pair.1 ++ ": ".toList ++ Text.quoted pair.2
    s!"renamed clashing variables: \x7b{listed entry renames}\x7d"
  | assembled nodes length names =>
    let names := (Text.quotedList names).str
    s!"assembled {nodes} node(s) into {length} chars, variables [{names}]"
  | rolledBack => "edit group rolled back"
  | noDefault context => s!"no default generator for context {contextName context}"
  | notAnAbbreviation key error =>
    s!"not an abbreviation: {(Text.quoted key).str} ({error.message})"
  | ambiguous key =>
    s!"{(Text.quoted key).str} has several catalog candidates, leaving it to the host"
  | cannotWrap context => s!"no generator can wrap in context {contextName context}"

/-- The line that shows an event. -/
def line (e : Event) : String :=
  let level := if e.isError then "ERROR" else "DEBUG"
  s!"[{level}] {e.origin}: {e.message}\n"

/-- The lines of the events that are shown: errors, and all events if `debug` holds. -/
def shown (debug : Bool) (events : List Event) : String :=
  String.join ((events.filter fun e => debug || e.isError).map line)

end Event

/-- A value with the records made on the way to it. -/
structure Logged (α : Type) where
  value : α
  events : List Event

namespace Logged

/-- Goes on from a value, and appends the records made then. -/
def bind {α β : Type} (x : Logged α) (f : α → Logged β) : Logged β :=
  let y := f x.value
  ⟨y.value, x.events ++ y.events⟩

instance : Monad Logged where
  pure a := ⟨a, []⟩
  bind := bind

/-- Records collect in the order in which they are made, however the steps are bracketed. -/
instance : LawfulMonad Logged :=
  .mk' Logged
    (fun x => congrArg (Logged.mk x.value) (List.append_nil x.events))
    (fun _ _ => rfl)
    (fun x _ _ => congrArg (Logged.mk _) (List.append_assoc x.events _ _))

/-- A record and no value. -/
def record (e : Event) : Logged Unit :=
  ⟨(), [e]⟩

/-- A value that is just given has no records. -/
@[simp] theorem value_pure {α : Type} (a : α) : (pure a : Logged α).value = a := rfl

/-- The value of a sequence does not depend on records. -/
@[simp] theorem value_bind {α β : Type} (x : Logged α) (f : α → Logged β) :
    (x >>= f).value = (f x.value).value := rfl

/-- Mapping acts on the value. -/
@[simp] theorem value_map {α β : Type} (f : α → β) (x : Logged α) :
    (f <$> x).value = f x.value := rfl

/-- The value of a fold is the fold of the values. -/
theorem value_foldlM {α β : Type} (f : β → α → Logged β) (start : β) (items : List α) :
    (items.foldlM f start).value = items.foldl (fun b a => (f b a).value) start := by
  induction items generalizing start with
  | nil => rfl
  | cons item rest ih => rw [List.foldlM_cons, value_bind, ih, List.foldl_cons]

/-- The values of a list of steps. -/
theorem value_mapM {α β : Type} (f : α → Logged β) (items : List α) :
    (items.mapM f).value = items.map fun a => (f a).value := by
  induction items with
  | nil => rfl
  | cons item rest ih =>
    rw [List.mapM_cons, value_bind, value_bind, value_pure, ih, List.map_cons]

end Logged

end Abbrev
