import Abbrev.Text.Basic

/-!
# Markup shown as text

The three characters that markup gives a meaning to are written as entities, so that a reader sees
the markup itself.
-/

namespace Abbrev.Text

/-- A character as markup shows it. -/
def escapeChar (c : Char) : Text :=
  if c = '<' then "&lt;".toList
  else if c = '>' then "&gt;".toList
  else if c = '&' then "&amp;".toList
  else [c]

/-- A text as markup shows it. -/
def escape (t : Text) : Text :=
  t.flatMap escapeChar

end Abbrev.Text
