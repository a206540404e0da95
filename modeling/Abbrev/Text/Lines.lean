import Abbrev.Text.Basic
import Abbrev.Text.Character

/-!
# Lines and margins

A text is cut into lines after each line break, where a carriage return and the line feed after it
are one break. Trimming removes blanks at an end of a text.
-/

namespace Abbrev.Text

/-- The lines of a text without their breaks; a break at the very end opens no further line. -/
def lines : Text → List Text
  | [] => []
  | '\r' :: '\n' :: rest => [] :: lines rest
  | c :: rest =>
    if isLineBreak c then [] :: lines rest
    else
      match lines rest with
      | [] => [[c]]
      | line :: more => (c :: line) :: more

/-- The text without the blanks at its start. -/
def trimLeft (t : Text) : Text :=
  t.dropWhile isBlank

/-- The text without the blanks at its end. -/
def trimRight (t : Text) : Text :=
  (trimLeft t.reverse).reverse

/-- The text without the blanks at both ends. -/
def trim (t : Text) : Text :=
  trimRight (trimLeft t)

/-- Whether the text holds blanks only. -/
def isAllBlank (t : Text) : Bool :=
  t.all isBlank

/-- The lines of a text that hold more than blanks. -/
def nonBlankLines (t : Text) : List Text :=
  (lines t).filter fun line => !isAllBlank line

/-- Every carriage return, with the line feed after it if there is one, becomes a line feed. -/
def unifyNewlines : Text → Text
  | [] => []
  | '\r' :: '\n' :: rest => '\n' :: unifyNewlines rest
  | c :: rest => (if c = '\r' then '\n' else c) :: unifyNewlines rest

/-- The pieces of a text between occurrences of a character; there is always a last one. -/
def splitAt (separator : Char) : Text → List Text
  | [] => [[]]
  | c :: rest =>
    if c = separator then [] :: splitAt separator rest
    else
      match splitAt separator rest with
      | [] => [[c]]
      | piece :: more => (c :: piece) :: more

end Abbrev.Text
