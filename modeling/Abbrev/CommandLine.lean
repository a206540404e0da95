import Abbrev.Editing
import Abbrev.FileTree
import Abbrev.Fragment.Source

/-!
# The command line

The command expands one abbreviation, or wraps it around the text of a file or of the standard
input, and prints the result. What it does depends on its arguments, the environment and the files
that it can read, all of which are given here as values.
-/

namespace Abbrev.CommandLine

/-- What the arguments ask for. -/
structure Options where
  context : Text
  /-- The file whose text is wrapped; a hyphen is the standard input. -/
  wrap : Option Text
  /-- Whether tab stops are shown. -/
  snippet : Bool
  abbreviation : Text

/-- What is wrong with the arguments. -/
inductive UsageError where
  | contextWithoutName
  | wrapWithoutFile
  | unexpected (argument : Text)
  | noAbbreviation
  deriving DecidableEq, Repr

/-- The wording of an error. -/
def UsageError.message : UsageError → String
  | .contextWithoutName => "--context flag requires a name"
  | .wrapWithoutFile => "--wrap flag requires a file or '-'"
  | .unexpected argument => s!"Unexpected argument: {argument.str}"
  | .noAbbreviation => "usage: zen-ref ABBR [--context NAME] [--wrap FILE|-] [--snippet]"

/-- Options while arguments are read, when the abbreviation may still be missing. -/
structure Draft where
  context : Text := "html".toList
  wrap : Option Text := none
  snippet : Bool := false
  abbreviation : Option Text := none

/-- The value in an argument that begins with a flag and an equals sign. -/
def valueOf? (flag : String) (argument : Text) : Option Text :=
  let start := flag.toList ++ ['=']
  if start.isPrefixOf argument then some (argument.drop start.length) else none

/-- Reads arguments one after the other; a later flag overrides an earlier one. -/
def readArguments (draft : Draft) : List Text → Except UsageError Draft
  | [] => .ok draft
  | argument :: more =>
    if argument = "--snippet".toList then readArguments { draft with snippet := true } more
    else
      match valueOf? "--context" argument, valueOf? "--wrap" argument with
      | some context, _ => readArguments { draft with context } more
      | none, some file => readArguments { draft with wrap := some file } more
      | none, none =>
        if argument = "--context".toList then
          match more with
          | context :: rest => readArguments { draft with context } rest
          | [] => .error .contextWithoutName
        else if argument = "--wrap".toList then
          match more with
          | file :: rest => readArguments { draft with wrap := some file } rest
          | [] => .error .wrapWithoutFile
        else if draft.abbreviation.isNone then
          readArguments { draft with abbreviation := some argument } more
        else .error (.unexpected argument)

/-- The options that arguments stand for. -/
def parse (arguments : List Text) : Except UsageError Options := do
  let draft ← readArguments {} arguments
  match draft.abbreviation with
  | some abbreviation => .ok ⟨draft.context, draft.wrap, draft.snippet, abbreviation⟩
  | none => .error .noAbbreviation

/-- How the command ends when it prints no result. -/
inductive Stop where
  /-- With a message. -/
  | message (text : String)
  /-- With a failure that has no message of its own. -/
  | failure (f : Failure)
  | file (e : FileError)

/-- What the command leaves behind. -/
structure Result where
  stop : Option Stop
  out : String
  err : String

/-- What the command works in. -/
structure World where
  environment : Environment
  input : Text
  /-- The text of a file, by its path. -/
  file : Text → Except FileError Text
  catalog : Catalog

/-- How a failure ends the command. -/
def stopOf : Failure → Stop
  | .read (.size e) => .failure (.read (.size e))
  | .read e => .message s!"Error: {e.message}"
  | .selection e => .message s!"Error: {e.message}"
  | failure => .failure failure

/-- Why there is no template for an abbreviation. -/
def missing (options : Options) (catalog : Catalog) : Stop :=
  let key := options.abbreviation
  let candidates := catalog.keysFrom key
  if (catalog.find? key).isSome && 1 < candidates.length then
    let list := (Text.join ", ".toList candidates).str
    .message s!"'{key.str}' is ambiguous: {list}"
  else
    let context := (Text.quoted options.context).str
    .message s!"'{key.str}' is not an abbreviation in context {context}"

/-- The text to wrap, if one is asked for; every line break in it is a line feed. -/
def selection (options : Options) (world : World) : Except FileError (Option Text) :=
  match options.wrap with
  | none => .ok none
  | some ['-'] => .ok (some (Text.unifyNewlines world.input))
  | some path => (world.file path).map fun text => some (Text.unifyNewlines text)

/-- The template for an abbreviation, around the text to wrap if there is one. -/
def template (options : Options) (world : World) (selection : Option Text) :
    Logged (Except Failure (Option Template)) := do
  let setup := Setup.environment world.environment
  match selection with
  | some text =>
    let edit := Editing.wrap setup text options.abbreviation
    let (outcome, _) ← edit.apply (.allSelected text (some options.context) world.catalog)
    return outcome.map some
  | none =>
    let edit := Editing.expand setup options.abbreviation
    let (outcome, _) ←
      edit.apply (.atEnd options.abbreviation (some options.context) world.catalog)
    return outcome

/-- Runs the command with the given options. -/
def runOptions (options : Options) (world : World) : Result :=
  match selection options world with
  | .error e => ⟨some (.file e), "", ""⟩
  | .ok selection =>
    let result := template options world selection
    let records := Event.shown world.environment.debug result.events
    match result.value with
    | .error failure => ⟨some (stopOf failure), "", records⟩
    | .ok none => ⟨some (missing options world.catalog), "", records⟩
    | .ok (some t) =>
      ⟨none, (if options.snippet then t.toSource else t.text).str ++ "\n", records⟩

/-- Runs the command. -/
def run (arguments : List Text) (world : World) : Result :=
  match parse arguments with
  | .error e => ⟨some (.message e.message), "", ""⟩
  | .ok options => runOptions options world

end Abbrev.CommandLine
