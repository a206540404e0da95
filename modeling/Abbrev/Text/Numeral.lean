import Abbrev.Size
import Abbrev.Text.Basic
import Abbrev.Text.Character

/-!
# Numerals

Writing an integer in decimal, padding it with zeros, and reading one. A readable integer may have
blanks around it, a sign, and single underscores between digits; the digits may be the decimal
digits of any script, but there may not be too many of them.
-/

namespace Abbrev.Text

/-- The decimal numeral of an integer. -/
def ofInt (n : Int) : Text :=
  match n with
  | .ofNat k => Nat.toDigits 10 k
  | .negSucc k => '-' :: Nat.toDigits 10 (k + 1)

/-- Zeros up to the given width, put after the sign if there is one. -/
def zeroPad (width : Nat) (numeral : Text) : Text :=
  let zeros := List.replicate (width - numeral.length) '0'
  match numeral with
  | '-' :: digits => '-' :: zeros ++ digits
  | '+' :: digits => '+' :: zeros ++ digits
  | _ => zeros ++ numeral

/-- Blanks that may surround a numeral: those of ASCII without the information separators, and all
beyond ASCII. -/
def isNumeralMargin (c : Char) : Bool :=
  isBlank c && !(0x1c ≤ c.toNat && c.toNat ≤ 0x1f)

/-- The value of digits read after `value`; an underscore needs a digit on either side, and
`afterDigit` tells whether a digit was just read. -/
def digitsValue? (value : Nat) (afterDigit : Bool) : Text → Option Nat
  | [] => if afterDigit then some value else none
  | c :: rest =>
    match decimalValue? c with
    | some d => digitsValue? (10 * value + d) true rest
    | none => if c = '_' && afterDigit then digitsValue? value false rest else none

/-- A text without the blanks around it. -/
def withoutMargins (t : Text) : Text :=
  ((t.dropWhile isNumeralMargin).reverse.dropWhile isNumeralMargin).reverse

/-- The integer that a text denotes, however many digits it has. -/
def readInt? (t : Text) : Option Int :=
  match withoutMargins t with
  | '-' :: digits => (digitsValue? 0 false digits).map fun n => -(n : Int)
  | '+' :: digits => (digitsValue? 0 false digits).map Int.ofNat
  | digits => (digitsValue? 0 false digits).map Int.ofNat

/-- How many digits stand at the front of a text, with `count` read before; there is no number of
them if an underscore among them has no digit on either side. -/
def leadingDigits? (count : Nat) (afterDigit : Bool) : Text → Option Nat
  | [] => if afterDigit then some count else none
  | c :: rest =>
    if isDecimal c then leadingDigits? (count + 1) true rest
    else if !afterDigit then none
    else if c = '_' then leadingDigits? count false rest
    else some count

/-- A numeral without its sign. -/
def unsigned : Text → Text
  | '-' :: digits => digits
  | '+' :: digits => digits
  | digits => digits

/-- Why a text is not read as an integer although it may denote one: it has too many digits. They
are counted before what follows them is looked at. -/
def overlong? (t : Text) : Option SizeError :=
  match leadingDigits? 0 false (unsigned (withoutMargins t)) with
  | some count => if SizeError.digitLimit < count then some (.digits count) else none
  | none => none

/-- The wording for something that denotes no integer, given as it is shown: the first 200
characters of that are repeated. -/
def noIntegerMessage (shown : Text) : String :=
  s!"invalid literal for int() with base 10: {Text.str (shown.take 200)}"

/-- The number that a run of ASCII digits denotes, unless they are too many. -/
def readNatural (digits : Text) : Except SizeError Nat :=
  if SizeError.digitLimit < digits.length then .error (.digits digits.length)
  else .ok (Nat.ofDigitChars 10 digits 0)

/-- Whether the text is a run of one or more ASCII digits. -/
def isNatural (t : Text) : Bool :=
  !t.isEmpty && t.all Char.isDigit

end Abbrev.Text
