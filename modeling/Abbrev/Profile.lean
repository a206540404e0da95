import Abbrev.Text.Numeral
import Abbrev.Text.Quoted

/-!
# Profiles

A profile says how generated markup is laid out. Its quote and the way it closes elements without
content are choices among a few, so a profile made from texts may be refused
(`Profile.withTexts`).
-/

namespace Abbrev

/-- The quote around attribute values. -/
inductive Quote where
  | single
  | double
  deriving DecidableEq, Repr

/-- The character of a quote. -/
def Quote.sign : Quote → Char
  | .single => '\''
  | .double => '"'

/-- What stands for the quote inside a value. -/
def Quote.entity : Quote → Text
  | .single => "&#39;".toList
  | .double => "&quot;".toList

/-- The quote written as the given text. -/
def Quote.ofText? (t : Text) : Option Quote :=
  if t = ['"'] then some .double else if t = ['\''] then some .single else none

/-- How the tag of an element without content ends. -/
inductive ClosingStyle where
  /-- `<br>` -/
  | html
  /-- `<br />` -/
  | xhtml
  /-- `<br/>` -/
  | xml
  deriving DecidableEq, Repr

namespace ClosingStyle

/-- The name of a style. -/
def name : ClosingStyle → Text
  | .html => "html".toList
  | .xhtml => "xhtml".toList
  | .xml => "xml".toList

/-- The style of a name. -/
def ofName? (t : Text) : Option ClosingStyle :=
  [html, xhtml, xml].find? fun style => style.name = t

/-- The end of the tag of an element without content. -/
def tagEnd : ClosingStyle → Text
  | .html => ">".toList
  | .xhtml => " />".toList
  | .xml => "/>".toList

end ClosingStyle

/-- How generated markup is laid out. -/
structure Profile where
  /-- What one level of indentation is written as. -/
  indent : Text := ['\t']
  /-- What a line break is written as. -/
  newline : Text := ['\n']
  quote : Quote := .double
  closing : ClosingStyle := .html
  /-- Whether blocks stand on lines of their own. -/
  format : Bool := true
  deriving DecidableEq, Repr

/-- Why a profile cannot be made. -/
inductive ProfileError where
  /-- The name of the closing style is unknown. -/
  | unknownClosing (name : Text)
  /-- The text for the quote is no quote. -/
  | notAQuote (text : Text)
  /-- The indent consists of digits that form no decimal numeral. -/
  | badIndent (text : Text)
  /-- The indent is too large. -/
  | size (e : SizeError)
  deriving DecidableEq, Repr

/-- The wording of an error. -/
def ProfileError.message : ProfileError → String
  | .unknownClosing name =>
    s!"self_closing must be one of ('html', 'xhtml', 'xml'), got {(Text.quoted name).str}"
  | .notAQuote text => s!"attr_quote must be a quote character, got {(Text.quoted text).str}"
  | .badIndent text => Text.noIntegerMessage (Text.quoted text)
  | .size e => e.message

namespace Profile

/-- The profile with a quote and a closing style given as texts. The style is looked at first. -/
def withTexts (profile : Profile) (quote closing : Text) : Except ProfileError Profile :=
  match ClosingStyle.ofName? closing with
  | none => .error (.unknownClosing closing)
  | some closing =>
    match Quote.ofText? quote with
    | none => .error (.notAQuote quote)
    | some quote => .ok { profile with quote, closing }

end Profile

end Abbrev
