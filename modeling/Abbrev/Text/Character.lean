import Abbrev.Text.Letter
import Abbrev.Text.Digit

/-!
# Classes of characters

The classes in which the rules of this library are stated, over all scripts: blanks, line breaks,
letters with numerals, and the characters of words.
-/

namespace Abbrev.Text

/-- The blanks: white space of every kind, the four information separators among it. -/
def blankRanges : List (Nat × Nat) :=
  [(0x9, 0xd), (0x1c, 0x20), (0x85, 0x85), (0xa0, 0xa0), (0x1680, 0x1680), (0x2000, 0x200a),
  (0x2028, 0x2029), (0x202f, 0x202f), (0x205f, 0x205f), (0x3000, 0x3000)]

/-- Whether `c` is a blank. -/
def isBlank (c : Char) : Bool :=
  inRanges blankRanges c.toNat

/-- Whether `c` is a letter or a numeral. -/
def isAlphanumeric (c : Char) : Bool :=
  isLetter c || isNumeral c

/-- Whether `c` belongs to a word: a letter, a numeral or the underscore. -/
def isWord (c : Char) : Bool :=
  isAlphanumeric c || c == '_'

/-- The characters that end a line. -/
def lineBreakRanges : List (Nat × Nat) :=
  [(0xa, 0xd), (0x1c, 0x1e), (0x85, 0x85), (0x2028, 0x2029)]

/-- Whether `c` ends a line. -/
def isLineBreak (c : Char) : Bool :=
  inRanges lineBreakRanges c.toNat

end Abbrev.Text
