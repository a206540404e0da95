import Abbrev.Text.Basic
import Abbrev.Text.Character

/-!
# The abbreviation before the caret

An abbreviation is picked out of running text by going back from its end as far as characters of
abbreviations reach. Inside brackets and braces every character counts. A `>` that ends a tag of
markup ends the search.

Whether a text ends in a tag is decided by running all ways to read a tag side by side
(`TagState`), beginning anew at each `<`.
-/

namespace Abbrev.Trailing

/-- What may come next in a tag. -/
inductive TagState where
  /-- After the opening `<`. -/
  | opened
  /-- After a slash at the start. -/
  | slashed
  /-- In the name. -/
  | name
  /-- After blanks behind the name or a value. -/
  | gap
  /-- In the name of an attribute. -/
  | attributeName
  /-- After blanks behind the name of an attribute. -/
  | attributeGap
  /-- After an equals sign. -/
  | equals
  /-- Between double quotes. -/
  | doubleQuoted
  /-- Between single quotes. -/
  | singleQuoted
  /-- In a value without quotes. -/
  | bare
  /-- Behind the closing quote of a value. -/
  | valueEnd
  /-- Behind a slash at the end. -/
  | closing
  /-- Behind the closing `>`. -/
  | closed
  deriving DecidableEq, Repr

/-- Whether `c` may stand in the names of tags and attributes. -/
def isTagNamePart (c : Char) : Bool :=
  Text.isWord c || c == ':' || c == '-'

/-- How a tag goes on where it may end. -/
def ending (c : Char) : List TagState :=
  if c = '/' then [.closing] else if c = '>' then [.closed] else []

/-- The ways to go on with `c`. -/
def TagState.step (c : Char) : TagState → List TagState
  | .opened =>
    if c = '/' then [.slashed] else if isTagNamePart c then [.name] else []
  | .slashed => if isTagNamePart c then [.name] else []
  | .name =>
    if isTagNamePart c then [.name] else if Text.isBlank c then [.gap] else ending c
  | .gap =>
    if isTagNamePart c then [.attributeName] else if Text.isBlank c then [.gap] else ending c
  | .attributeName =>
    if isTagNamePart c then [.attributeName]
    else if Text.isBlank c then [.attributeGap]
    else if c = '=' then [.equals]
    else ending c
  | .attributeGap =>
    if isTagNamePart c then [.attributeName]
    else if Text.isBlank c then [.attributeGap]
    else if c = '=' then [.equals]
    else ending c
  | .equals =>
    -- A quote may open a quoted value or be the first character of a bare one.
    if Text.isBlank c then [.equals]
    else if c = '"' then [.doubleQuoted, .bare]
    else if c = '\'' then [.singleQuoted, .bare]
    else if c = '>' then []
    else [.bare]
  | .doubleQuoted => if c = '"' then [.valueEnd] else [.doubleQuoted]
  | .singleQuoted => if c = '\'' then [.valueEnd] else [.singleQuoted]
  | .bare => if Text.isBlank c then [.gap] else if c = '>' then [.closed] else [.bare]
  | .valueEnd => if Text.isBlank c then [.gap] else ending c
  | .closing => if c = '>' then [.closed] else []
  | .closed => []

/-- All ways to read a tag up to and with `c`, a tag that begins here included. -/
def readTag (states : List TagState) (c : Char) : List TagState :=
  let next := (states.flatMap (TagState.step c)).eraseDups
  if c = '<' then .opened :: next else next

/-- Whether a text ends in a tag of markup. -/
def endsTag (t : Text) : Bool :=
  (t.foldl readTag []).contains .closed

/-- The signs that may stand in an abbreviation outside brackets and braces. -/
def signs : List Char :=
  ['#', '.', '>', '+', '*', '^', ':', '$', '-', '_', '!', '@', '[', ']', '(', ')', '|', '{', '}']

/-- Whether `c` may stand in an abbreviation outside brackets and braces. -/
def isAllowed (c : Char) : Bool :=
  Text.isAlphanumeric c || signs.contains c

/-- Goes back through a text, given from its end; `depth` brackets and braces and perhaps a quote
are open, and `found` is what has been passed. -/
def collect (depth : Nat) (quote : Option Char) (found : Text) : Text → Text
  | [] => found
  | c :: before =>
    match quote with
    | some q => collect depth (if c = q then none else some q) (c :: found) before
    | none =>
      if c = ']' ∨ c = '}' then collect (depth + 1) none (c :: found) before
      else if c = '[' ∨ c = '{' then
        if depth = 0 then found else collect (depth - 1) none (c :: found) before
      else if depth ≠ 0 then
        collect depth (if c = '"' ∨ c = '\'' then some c else none) (c :: found) before
      else if !isAllowed c then found
      else if c = '>' && endsTag (c :: before).reverse then found
      else collect 0 none (c :: found) before

end Abbrev.Trailing

namespace Abbrev.Abbreviation

/-- The abbreviation that a text ends in; nothing if it ends in none. -/
def trailing (t : Text) : Text :=
  Trailing.collect 0 none [] t.reverse

end Abbrev.Abbreviation
