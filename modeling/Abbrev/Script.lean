import Abbrev.Editing

/-!
# Scripts of editing steps

A host drives the library by steps, and steps can be grouped: a failing step ends its group, and the
group leaves the buffer as it was. The generators and filters are those of the script, or of a step.
-/

namespace Abbrev

/-- A step of a host. -/
inductive Step where
  /-- Asks for the abbreviation before the caret. -/
  | currentKey
  /-- Expands a key, or the abbreviation before the caret. -/
  | expand (key : Option Text)
  /-- Wraps a text, or the selected one. -/
  | wrap (abbreviation : Text) (selection : Option Text)
  | accepts (key : Text) (wrapping : Bool)
  | applicable (wrapping : Bool)
  | setCaret (caret : Int)
  | setSelection (selection : Option (Int × Int))
  | setContext (context : Option Text)
  /-- Adds a snippet to the catalog. -/
  | define (key source : Text)
  | type (text : Text)
  /-- Asks for the selected text. -/
  | selected
  /-- Asks for the snippet under a key. -/
  | find (key : Text)
  /-- Asks for the keys of the catalog with a beginning. -/
  | keysFrom (beginning : Text)
  | deleteKey (key : Text)
  | deleteSelection
  | start (template : Template)
  /-- Runs a step with generators and filters of its own. -/
  | under (setup : Setup) (step : Step)
  /-- Runs steps as a group, and calls the group off in the end if `failure` is given. -/
  | group (steps : List Step) (failure : Option Text)

/-- The answer to a step. -/
inductive Answer where
  | nothing
  | text (t : Text)
  | texts (ts : List Text)
  | flag (b : Bool)
  | template (t : Template)
  | answers (answers : List Answer)

namespace Answer

/-- The answer with a text, if there is one. -/
def ofText? : Option Text → Answer
  | some t => text t
  | none => nothing

/-- The answer with a template, if there is one. -/
def ofTemplate? : Option Template → Answer
  | some t => template t
  | none => nothing

end Answer

namespace Step

mutual

/-- Runs a step. -/
def run (setup : Setup) : Step → Edit Answer
  | currentKey => return .text (← get).key
  | expand key => do
    let key := key.getD (← get).key
    return .ofTemplate? (← Editing.expand setup key)
  | wrap abbreviation selection => do
    let selection := (selection <|> (← get).selectedText?).getD []
    return .template (← Editing.wrap setup selection abbreviation)
  | accepts key wrapping => return .flag (← Editing.accepts setup key wrapping)
  | applicable wrapping => return .flag (← Editing.isApplicable setup wrapping)
  | setCaret caret => do
    modify fun b => { b with caret }
    return .nothing
  | setSelection selection => do
    modify fun b => { b with selection }
    return .nothing
  | setContext context => do
    modify fun b => { b with context }
    return .nothing
  | define key source => do
    modify fun b => { b with catalog := b.catalog.insert key source }
    return .nothing
  | type text => do
    modify (·.type text)
    return .nothing
  | selected => return .ofText? (← get).selectedText?
  | find key => return .ofText? ((← get).catalog.find? key)
  | keysFrom beginning => return .texts ((← get).catalog.keysFrom beginning)
  | deleteKey key => do
    match (← get).deleteKey key with
    | .error e => throw (.buffer e)
    | .ok b =>
      set b
      return .nothing
  | deleteSelection => do
    let (removed, b) := (← get).deleteSelection
    set b
    return .text removed
  | start template => do
    modify (·.start template)
    return .nothing
  | under own step => step.run own
  | group steps failure =>
    Edit.group do
      let answers ← runAll setup steps
      match failure with
      | some message => throw (.aborted message)
      | none => return .answers answers

/-- Runs steps one after the other, up to the first that fails. -/
def runAll (setup : Setup) : List Step → Edit (List Answer)
  | [] => return []
  | step :: more => do
    let answer ← step.run setup
    return answer :: (← runAll setup more)

end

end Step

end Abbrev
