import Abbrev.Text.Lines

/-!
# List markers

Lines of a list may begin with a star, a hyphen, or a number with a point. A marker needs a blank
after it; it is removed with the blanks on both sides of it.
-/

namespace Abbrev.Text

/-- What follows the sign of a list marker at the start of a text. -/
def afterMarker? (t : Text) : Option Text :=
  match t with
  | '*' :: rest => some rest
  | '-' :: rest => some rest
  | c :: _ =>
    if isDecimal c then
      match t.dropWhile isDecimal with
      | '.' :: rest => some rest
      | _ => none
    else none
  | [] => none

/-- The line without its list marker. -/
def trimListMarker (line : Text) : Text :=
  match afterMarker? (trimLeft line) with
  | some (c :: rest) => if isBlank c then trimLeft rest else line
  | _ => line

/-- The text with all lines without their list markers, joined by line feeds. -/
def trimListMarkers (t : Text) : Text :=
  join ['\n'] ((lines t).map trimListMarker)

end Abbrev.Text
