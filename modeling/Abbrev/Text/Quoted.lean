import Abbrev.Text.Basic
import Abbrev.Text.Printable

/-!
# Quoted text

Messages show a text between quotes. The quotes are single unless the text holds a single quote
and no double one. The backslash and the enclosing quote are escaped by a backslash, the line feed,
the carriage return and the tab by a letter, and every other character that is not printable by
its code point in two, four or eight hexadecimal digits.
-/

namespace Abbrev.Text

/-- The quote that encloses a text. -/
def enclosingQuote (t : Text) : Char :=
  if t.contains '\'' && !t.contains '"' then '"' else '\''

/-- The last `width` hexadecimal digits of a number, with leading zeros. -/
def hexDigits (width n : Nat) : Text :=
  let digits := Nat.toDigits 16 n
  List.replicate (width - digits.length) '0' ++ digits

/-- How one character is written between the quotes `quote`. -/
def quotedChar (quote c : Char) : Text :=
  if c = '\\' || c = quote then ['\\', c]
  else if c = '\n' then ['\\', 'n']
  else if c = '\r' then ['\\', 'r']
  else if c = '\t' then ['\\', 't']
  else if isPrintable c then [c]
  else if c.toNat < 0x100 then '\\' :: 'x' :: hexDigits 2 c.toNat
  else if c.toNat < 0x10000 then '\\' :: 'u' :: hexDigits 4 c.toNat
  else '\\' :: 'U' :: hexDigits 8 c.toNat

/-- The text between quotes. -/
def quoted (t : Text) : Text :=
  let quote := enclosingQuote t
  quote :: t.flatMap (quotedChar quote) ++ [quote]

/-- A text or its absence, for messages. -/
def quotedOrNone : Option Text → Text
  | some t => quoted t
  | none => "None".toList

/-- The quoted texts with commas between them. -/
def quotedList (ts : List Text) : Text :=
  join ", ".toList (ts.map quoted)

end Abbrev.Text
