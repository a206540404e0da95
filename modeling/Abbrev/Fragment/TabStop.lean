import Abbrev.Text.Character
import Abbrev.Text.Lowercase

/-!
# Names of tab stops

An attribute without a value becomes a tab stop, named after the attribute: in lower case, with
underscores for characters that do not belong to words, and with an underscore before a digit.
-/

namespace Abbrev.Fragment

/-- The name of the tab stop for an attribute. -/
def tabStopName (attributeName : List Char) : List Char :=
  let name := (Text.lower attributeName).map fun c => if Text.isWord c then c else '_'
  match name with
  | [] => ['_']
  | c :: _ => if Text.isDigit c then '_' :: name else name

end Abbrev.Fragment
