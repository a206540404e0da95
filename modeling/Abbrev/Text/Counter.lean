import Abbrev.Text.Numeral

/-!
# Counters

In the names and texts of an abbreviation a run of dollars stands for the number of the copy, and
the length of the run is the least width of the numeral. A backslash before a dollar takes the
dollar as it is.
-/

namespace Abbrev.Text

/-- The numeral that a run of `width` dollars stands for; nothing if there is no run. -/
def counterNumeral (number : Int) : Nat → Text
  | 0 => []
  | width => zeroPad width (ofInt number)

/-- Replaces counters in a text that follows a run of `run` dollars. -/
def replaceCounterAfter (number : Int) (run : Nat) : Text → Text
  | [] => counterNumeral number run
  | '$' :: rest => replaceCounterAfter number (run + 1) rest
  | '\\' :: '$' :: rest => counterNumeral number run ++ '$' :: replaceCounterAfter number 0 rest
  | c :: rest => counterNumeral number run ++ c :: replaceCounterAfter number 0 rest

/-- The text with `number` in place of its counters. -/
def replaceCounter (number : Int) (t : Text) : Text :=
  replaceCounterAfter number 0 t

end Abbrev.Text
