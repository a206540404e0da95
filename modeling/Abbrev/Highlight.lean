import Abbrev.Text.Lines
import Abbrev.Token.Lexer

/-!
# Highlighting

A line of an abbreviation is shown in colours: it is cut into runs of one style each, which together
are the line. A line that cannot be cut into tokens is one run in the style of errors.
-/

namespace Abbrev.Highlight

/-- What a run of characters is. -/
inductive Style where
  | tag
  | number
  | string
  | text
  | selector
  | operator
  | filter
  | error
  /-- Anything without a style of its own. -/
  | plain
  deriving DecidableEq, Repr

/-- The terminal attributes of a style. -/
def Style.attributes : Style → String
  | .tag => "bold ansicyan"
  | .number => "ansimagenta"
  | .string => "ansigreen"
  | .text => "ansiyellow"
  | .selector => "ansiblue"
  | .operator => "bold"
  | .filter => "italic ansimagenta"
  | .error => "bold ansired"
  | .plain => ""

/-- Characters in one style. -/
structure Run where
  style : Style
  text : Text
  deriving DecidableEq, Repr

/-- The style of a name after the lexeme `previous`, inside of `depth` brackets. -/
def nameStyle (previous : Option Lexeme) (depth : Nat) : Style :=
  match previous with
  | some (.punctuation .dot) | some (.punctuation .hash) => .selector
  | some (.punctuation .bar) => .filter
  | some (.punctuation .equals) => if 0 < depth then .string else .tag
  | _ => if 0 < depth then .plain else .tag

/-- The style of a lexeme after the lexeme `previous`, inside of `depth` brackets. -/
def styleOf (previous : Option Lexeme) (depth : Nat) : Lexeme → Style
  | .name _ => nameStyle previous depth
  | .number _ => .number
  | .quoted _ _ => .string
  | .braced _ => .text
  | .operator _ => .operator
  | .punctuation .bar => .filter
  | .punctuation .dot | .punctuation .hash => .selector
  | .punctuation _ => .plain

/-- The depth of brackets after a lexeme. -/
def depthAfter (depth : Nat) : Lexeme → Nat
  | .punctuation .openBracket => depth + 1
  | .punctuation .closeBracket => depth - 1
  | _ => depth

/-- A text without a style, if there is any. -/
def gap (t : Text) : List Run :=
  if t = [] then [] else [⟨.plain, t⟩]

/-- The runs of a line from column `start` on, for the tokens there. A token that begins before that
column or has no characters is passed over. -/
def runsFrom (line : Text) (start : Nat) (previous : Option Lexeme) (depth : Nat) :
    List Token → List Run
  | [] => gap (line.drop start)
  | t :: more =>
    let depth := depthAfter depth t.lexeme
    if t.column < start ∨ t.source = [] then runsFrom line start (some t.lexeme) depth more
    else
      gap ((line.take t.column).drop start) ++ ⟨styleOf previous depth t.lexeme, t.source⟩ ::
        runsFrom line t.stop (some t.lexeme) depth more

/-- The runs of a line. -/
def line (t : Text) : List Run :=
  if t = [] then [⟨.plain, []⟩]
  else
    match Token.read t with
    | .error _ => [⟨.error, t⟩]
    | .ok tokens => runsFrom t 0 none 0 tokens

/-- A line before the first one was asked for. -/
inductive LineError where
  | beforeFirst
  deriving DecidableEq, Repr

/-- The wording of the error. -/
def LineError.message : LineError → String
  | .beforeFirst => "list index out of range"

/-- The runs of a line of a text. Lines are counted from zero, or back from the end if the number is
negative. Lines behind the last one are empty, and there is none before the first one. -/
def lineAt (t : Text) (number : Int) : Except LineError (List Run) :=
  let lines := Text.splitAt '\n' t
  if number < -lines.length then .error .beforeFirst
  else
    let position := if number < 0 then lines.length + number else number
    .ok (line (lines[position.toNat]?.getD []))

end Abbrev.Highlight
