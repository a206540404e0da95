import Abbrev.CommandLine
import Abbrev.Session

/-!
# The program

Connects the command line and the interactive session with the terminal, the files and the
environment. Run under a name that ends in `repl`, the program is the interactive session.
-/

namespace Abbrev.Program

/-- The variables of the environment that the program looks at. -/
def variableNames : List String :=
  ["ZEN_REF_INDENT", "ZEN_REF_ATTR_QUOTE", "ZEN_REF_SELF_CLOSING", "ZEN_REF_FORMAT",
    "ZEN_REF_DEBUG", Environment.traceVariable]

/-- The environment of the process. -/
def environment : IO Environment := do
  let found ← variableNames.filterMapM fun name => do
    return (← IO.getEnv name).map fun value => (name, value.toList)
  return ⟨found⟩

/-- All of the standard input. -/
partial def readAll (stream : IO.FS.Stream) (text : String) : IO String := do
  let line ← stream.getLine
  if line.isEmpty then return text else readAll stream (text ++ line)

/-- What is wrong with a path, given the error that reading it ended in. -/
def pathFault : IO.Error → PathFault
  | .inappropriateType _ code _ =>
    -- The number may come with a sign, depending on the layer that found the error.
    if code.toInt32.toInt.natAbs = PathFault.isDirectory.number then .isDirectory
    else .notADirectory
  | .invalidArgument _ _ _ => .nameTooLong
  | .permissionDenied _ _ _ => .denied
  | _ => .notFound

/-- The text of the file that the arguments ask for, if they ask for one. -/
def file (arguments : List Text) : IO (Except FileError Text) := do
  match CommandLine.parse arguments with
  | .ok { wrap := some path, .. } =>
    if path.contains '\x00' then return .error .nullInPath
    let path := FilePath.simplest path
    try
      return .ok (← IO.FS.readFile path.str).toList
    catch e => return .error (.fault (pathFault e) path)
  | _ => return .ok []

/-- The standard input, as far as the arguments ask for it. -/
def input (arguments : List Text) : IO Text := do
  match CommandLine.parse arguments with
  | .ok { wrap := some ['-'], .. } => return (← readAll (← IO.getStdin) "").toList
  | _ => return []

/-- Runs the command. -/
def command (arguments : List Text) : IO UInt32 := do
  let text ← file arguments
  let world : CommandLine.World :=
    { environment := ← environment
      input := ← input arguments
      file := fun _ => text
      catalog := .builtIn }
  let result := CommandLine.run arguments world
  IO.print result.out
  IO.eprint result.err
  match result.stop with
  | none => return 0
  | some (.message text) => IO.eprintln text
  | some (.failure f) => IO.eprintln f.message
  | some (.file e) => IO.eprintln e.message
  return 1

/-- Runs a session on the standard input. -/
partial def converse (stream : IO.FS.Stream) (session : Session) : IO UInt32 := do
  IO.print session.prompt
  (← IO.getStdout).flush
  let line ← stream.getLine
  let given := if line.isEmpty then Input.endOfInput else .line (line.toList.filter (· ≠ '\n'))
  let reply := session.answer given
  IO.print reply.out
  IO.eprint reply.err
  match reply.next, reply.raised with
  | some next, _ => converse stream next
  | none, some failure => do
    IO.eprintln failure.message
    return 1
  | none, none => return 0

end Abbrev.Program

/-- The program: the command, or the session under its name. -/
def main (arguments : List String) : IO UInt32 := do
  let name := ((← IO.appPath).fileStem.getD "").toList
  if "repl".toList.isSuffixOf name then
    IO.print Abbrev.Session.greeting
    Abbrev.Program.converse (← IO.getStdin)
      (Abbrev.Session.start (← Abbrev.Program.environment) .builtIn)
  else Abbrev.Program.command (arguments.map String.toList)
