import Abbrev.Buffer
import Abbrev.Expansion
import Abbrev.Registry
import Abbrev.Rendering

/-!
# Expanding and wrapping in a buffer

An edit changes a buffer and may fail; the changes made before a failure stay, unless the edit is
run as a group (`Edit.group`). Expanding replaces the abbreviation before the caret by its template;
wrapping replaces the selection by a template around it. Both are groups, so a failure leaves the
buffer as it was.
-/

namespace Abbrev

/-- Why an edit fails. -/
inductive Failure where
  | read (e : ReadError)
  | selection (e : SelectionError)
  | profile (e : ProfileError)
  | render (e : RenderError)
  | buffer (e : BufferError)
  /-- There are too many copies. -/
  | size (e : SizeError)
  /-- The edit was called off. -/
  | aborted (message : Text)
  deriving DecidableEq, Repr

/-- The wording of a failure. -/
def Failure.message : Failure → String
  | .read e => e.message
  | .selection e => e.message
  | .profile e => e.message
  | .render e => e.message
  | .buffer e => e.message
  | .size e => e.message
  | .aborted message => message.str

/-- A change to a buffer that may fail and leaves records. -/
abbrev Edit := ExceptT Failure (StateT Buffer Logged)

namespace Edit

/-- An edit given by what it does to a buffer. -/
def of {α : Type} (run : Buffer → Logged (Except Failure α × Buffer)) : Edit α :=
  ExceptT.mk run

/-- The outcome of an edit and the buffer after it. -/
def apply {α : Type} (edit : Edit α) (b : Buffer) : Logged (Except Failure α × Buffer) :=
  (ExceptT.run edit).run b

/-- Leaves a record. -/
def record (e : Event) : Edit Unit :=
  of fun b => do
    Logged.record e
    return (.ok (), b)

/-- Leaves the records of a value and gives the value. -/
def logged {α : Type} (x : Logged α) : Edit α :=
  of fun b => do return (.ok (← x), b)

/-- Gives a value or fails. -/
def check {ε α : Type} (failure : ε → Failure) (x : ExceptT ε Logged α) : Edit α :=
  of fun b => do
    match ← ExceptT.run x with
    | .ok a => return (.ok a, b)
    | .error e => return (.error (failure e), b)

/-- Runs edits as a group: if they fail, the buffer is restored. -/
def group {α : Type} (edits : Edit α) : Edit α :=
  of fun before => do
    let (outcome, after) ← edits.apply before
    match outcome with
    | .ok a => return (.ok a, after)
    | .error e =>
      Logged.record .rolledBack
      return (.error e, after.restore before)

end Edit

/-- Where the generators and filters come from. -/
inductive Setup where
  /-- From a registry that was made before. -/
  | fixed (registry : Registry)
  /-- From the environment, anew for each edit. -/
  | environment (env : Environment)

namespace Setup

/-- The registry to use. -/
def registry : Setup → Edit Registry
  | fixed registry => return registry
  | environment env => Edit.check .profile (Registry.ofEnvironment env)

end Setup

namespace Editing

/-- The grammar for a generator in a buffer. -/
def grammar (registry : Registry) (generator : Generator) (b : Buffer) : Grammar :=
  { catalog := b.catalog
    generator := some generator
    suffixes := some (registry.suffixesFor b.context) }

/-- Whether some generator is the default in the context of a buffer. -/
def isApplicable (setup : Setup) (wrapping : Bool) : Edit Bool := do
  let registry ← setup.registry
  return (registry.defaultGenerator? (← get).context wrapping).isSome

/-- Whether a text is an abbreviation in the context of a buffer. -/
def accepts (setup : Setup) (key : Text) (wrapping : Bool) : Edit Bool := do
  let registry ← setup.registry
  let b ← get
  match registry.defaultGenerator? b.context wrapping with
  | none => return false
  | some (generator, _) =>
    match (grammar registry generator b).accepts key with
    | .ok accepted => return accepted
    | .error e => throw (.read (.size e))

/-- Writes an abbreviation as a template, around the wrapped text if there is one, and starts it. -/
def insertExpansion (registry : Registry) (a : Abbreviation) (wrapped : Option Text)
    (wrapping : Bool) : Edit Template := do
  let b ← get
  let (generator, _) ←
    Edit.check .selection (registry.selectGenerator a.suffixes b.context wrapping)
  let filters ←
    Edit.check .selection (registry.selectFilters a.suffixes b.context (some generator))
  let filters := filters.map Prod.fst
  match a.expand? { catalog := b.catalog } 0 (wrapped.map Text.trim) with
  | .error e => throw (.size e)
  | .ok nodes =>
    Edit.record (.expanded nodes.length)
    -- A refusal is met at the first node, before any of them is written.
    match generator.fault? filters nodes, Node.misplacedIn? generator filters nodes with
    | some e, _ => throw (.render e)
    | none, some e => throw (.buffer (.misplaced e))
    | none, none =>
      let template ← Edit.logged (generator.assemble filters nodes)
      modify (·.start template)
      return template

/-- Whether an abbreviation is just a key of the catalog that begins other keys. -/
def isAmbiguous (a : Abbreviation) (key : Text) (catalog : Catalog) : Bool :=
  match a with
  | .element name _ _ =>
    name == key && (catalog.find? key).isSome && 1 < (catalog.keysFrom key).length
  | _ => false

/-- Replaces the key before the caret by what it abbreviates. There is no result if the key is no
abbreviation, or if the host has to choose among keys of the catalog. -/
def expand (setup : Setup) (key : Text) : Edit (Option Template) := do
  let registry ← setup.registry
  let b ← get
  match registry.defaultGenerator? b.context false with
  | none =>
    Edit.record (.noDefault b.context)
    return none
  | some (generator, _) =>
    match (grammar registry generator b).parse key with
    | .error (.size e) => throw (.read (.size e))
    | .error e =>
      Edit.record (.notAnAbbreviation key e)
      return none
    | .ok a =>
      if isAmbiguous a key b.catalog then
        Edit.record (.ambiguous key)
        return none
      -- The key is deleted first, so a failure from here on has to bring it back.
      Edit.group do
        match (← get).deleteKey key with
        | .error e => throw (.buffer e)
        | .ok shortened =>
          set shortened
          return some (← insertExpansion registry a none false)

/-- Replaces the selection by an abbreviation around the text `selection`. -/
def wrap (setup : Setup) (selection abbreviation : Text) : Edit Template := do
  let registry ← setup.registry
  let b ← get
  match registry.defaultGenerator? b.context true with
  | none =>
    Edit.record (.cannotWrap b.context)
    throw (.selection (.cannotWrap b.context))
  | some (generator, _) =>
    Edit.group do
      match (grammar registry generator b).parse abbreviation with
      | .error e => throw (.read e)
      | .ok a =>
        modify fun b => b.deleteSelection.2
        insertExpansion registry a (some selection) true

end Editing

end Abbrev
