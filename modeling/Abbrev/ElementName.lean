import Abbrev.Text.Basic
import Abbrev.Text.Character

/-!
# Element names

A name for an element starts with a letter, an underscore or a colon and goes on with letters,
numerals and the four signs of `nameSigns`.
-/

namespace Abbrev.ElementName

/-- The characters of names that are neither letters nor numerals. -/
def nameSigns : List Char :=
  ['_', ':', '.', '-']

/-- Whether `c` may start a name. -/
def isStart (c : Char) : Bool :=
  Text.isLetter c || c == '_' || c == ':'

/-- Whether `c` may stand in a name. -/
def isPart (c : Char) : Bool :=
  Text.isAlphanumeric c || nameSigns.contains c

/-- Whether the key of an abbreviation can name an element. A dollar, which stands for the number of
a copy, counts as a digit. -/
def isValid (key : Text) : Bool :=
  let name := key.map fun c => if c = '$' then '1' else c
  match name with
  | [] => false
  | c :: _ => isStart c && name.all isPart

end Abbrev.ElementName
