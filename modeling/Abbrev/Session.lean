import Abbrev.Editing
import Abbrev.Fragment.Source

/-!
# The interactive session

A session reads lines. A line that begins with a slash is a command and changes the settings of the
session; any other line is an abbreviation, which is expanded, or wrapped around the text set
before. A session ends when its input ends, when the environment asks for a profile that does not
exist, or when something is too large.
-/

namespace Abbrev

/-- The settings of a session. -/
structure Session where
  context : Text := "html".toList
  /-- The text that abbreviations are wrapped around. -/
  wrapText : Option Text := none
  /-- Whether tab stops are shown. -/
  showTabStops : Bool := true
  environment : Environment
  /-- Whether all records are shown. The environment decides it when the session starts. -/
  debug : Bool
  catalog : Catalog

/-- What the prompt gives. -/
inductive Input where
  | line (t : Text)
  /-- The user breaks off the line. -/
  | interrupt
  | endOfInput

/-- What a session says to one input. -/
structure Reply where
  out : String
  err : String
  /-- The failure that ends the session, if one does. -/
  raised : Option Failure := none
  /-- The session after the input, unless it has ended. -/
  next : Option Session

namespace Session

/-- A session in an environment. -/
def start (environment : Environment) (catalog : Catalog) : Session :=
  { environment, debug := environment.debug, catalog }

/-- What a session says before the first prompt. -/
def greeting : String := "zen-ref repl - Ctrl-D to exit, / for commands\n"

/-- The prompt, which shows the context. -/
def prompt (s : Session) : String :=
  s!"{s.context.str}> "

/-- The commands with their descriptions. -/
def commands : List (String × String) :=
  [("/clear", "Clear the terminal screen"),
    ("/context", "Show or set the document context"),
    ("/wrap", "Wrap text with the following abbreviations"),
    ("/snippet", "Toggle showing tab stops as $NAME$"),
    ("/py-traceback", "Toggle Python traceback on errors")]

/-- The commands that the text before the cursor begins, with their descriptions. -/
def completions (t : Text) : List (String × String) :=
  match t with
  | '/' :: _ => commands.filter fun command => t.isPrefixOf command.1.toList
  | _ => []

/-- The words that switch something on. -/
def onWords : List Text :=
  ["on", "1", "true", "yes"].map String.toList

/-- The switch after a command with an argument: set by a word, or changed if there is none. -/
def toggle (argument : Text) (current : Bool) : Option Bool :=
  let word := Text.lower argument
  if onWords.contains word then some true
  else if Environment.offWords.contains word then some false
  else if argument.isEmpty then some !current
  else none

/-- The characters that leave no trace in a line: those of no width, the no-break space, and the
carriage return. -/
def invisible : List Char :=
  ['\u200b', '\u200c', '\u200d', '\ufeff', '\u00a0', '\r']

/-- A line without invisible characters. -/
def normalize (t : Text) : Text :=
  t.filter fun c => !invisible.contains c

/-- A reply on the standard output. -/
def say (s : Session) (out : String) : Reply :=
  { out, err := "", next := some s }

/-- A reply on the standard error. -/
def complain (s : Session) (err : String) : Reply :=
  { out := "", err, next := some s }

/-- The word for a switch. -/
def onOff (b : Bool) : String :=
  if b then "on" else "off"

/-- Runs a command with its argument. -/
def command (s : Session) (name argument : Text) : Reply :=
  match name.str with
  | "/clear" => s.say "<clear>\n"
  | "/context" =>
    let context := if argument.isEmpty then s.context else argument
    { s with context }.say s!"Context: {context.str}\n"
  | "/wrap" =>
    if argument.isEmpty || Environment.offWords.contains (Text.lower argument) then
      { s with wrapText := none }.say "Wrapping: off\n"
    else
      -- A backslash and an `n` separate lines.
      let text := Text.replacePair '\\' 'n' ['\n'] argument
      { s with wrapText := some text }.say s!"Wrapping: {(Text.quoted text).str}\n"
  | "/snippet" =>
    match toggle argument s.showTabStops with
    | none => s.complain "Usage: /snippet [on|off]\n"
    | some showTabStops =>
      { s with showTabStops }.say s!"Show tab stops: {onOff showTabStops}\n"
  | "/py-traceback" =>
    match toggle argument s.environment.trace with
    | none => s.complain "Usage: /py-traceback [on|off]\n"
    | some trace =>
      let environment :=
        if trace then s.environment.set Environment.traceVariable ['1']
        else s.environment.unset Environment.traceVariable
      { s with environment }.say s!"Python traceback: {onOff environment.trace}\n"
  | unknown => s.complain s!"Unknown command: {unknown}\n"

/-- The template for an abbreviation: around the text to wrap if there is one. -/
def template (s : Session) (abbreviation : Text) :
    Logged (Except Failure (Option Template)) := do
  match ← (Registry.ofEnvironment s.environment).run with
  | .error e => return .error (.profile e)
  | .ok registry =>
    let setup := Setup.fixed registry
    match s.wrapText with
    | some selection =>
      let edit := Editing.wrap setup selection abbreviation
      let (outcome, _) ← edit.apply (.allSelected selection (some s.context) s.catalog)
      return outcome.map some
    | none =>
      let edit := Editing.expand setup abbreviation
      let (outcome, _) ← edit.apply (.atEnd abbreviation (some s.context) s.catalog)
      return outcome

/-- How a template is shown. -/
def shown (s : Session) (t : Template) : String :=
  (if s.showTabStops then t.toSource else t.text).str ++ "\n"

/-- What follows the message of an error when it shows where it came from. -/
def traceText : String :=
  "\nPython traceback:\n<traceback>\n"

/-- Whether a failure is reported to the user; any other failure ends the session. -/
def isReported : Failure → Bool
  | .read (.lex _) | .read (.parse _) | .selection _ => true
  | _ => false

/-- Expands or wraps an abbreviation. -/
def abbreviation (s : Session) (t : Text) : Reply :=
  let result := s.template t
  let records := Event.shown s.debug result.events
  match result.value with
  | .ok (some template) => { out := s.shown template, err := records, next := some s }
  | .ok none =>
    let candidates := s.catalog.keysFrom t
    if (s.catalog.find? t).isSome && 1 < candidates.length then
      let list := (Text.join ", ".toList candidates).str
      { out := s!"Candidates: {list}\n", err := records, next := some s }
    else { out := "", err := records ++ "Not an abbreviation\n", next := some s }
  | .error failure =>
    if isReported failure then
      let trace := if s.environment.trace then traceText else ""
      { out := "", err := s!"{records}Error: {failure.message}\n{trace}", next := some s }
    else { out := "", err := records, raised := some failure, next := none }

/-- Answers a line. -/
def line (s : Session) (t : Text) : Reply :=
  let t := Text.trim (normalize t)
  match t with
  | [] => s.say ""
  | '/' :: _ =>
    s.command (t.takeWhile (!Text.isBlank ·)) (Text.trimLeft (t.dropWhile (!Text.isBlank ·)))
  | _ => s.abbreviation t

/-- Answers an input. -/
def answer (s : Session) : Input → Reply
  | .line t => s.line t
  | .interrupt => s.say "KeyboardInterrupt\n"
  | .endOfInput => { out := "\n", err := "", next := none }

/-- Answers inputs, each with the prompt that it was given at, as long as the session lasts. -/
def run (s : Session) : List Input → List (String × Reply)
  | [] => []
  | input :: more =>
    let reply := s.answer input
    (s.prompt, reply) ::
      match reply.next with
      | some next => next.run more
      | none => []

end Session

end Abbrev
