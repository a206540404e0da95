import Abbrev.Profile
import Abbrev.Text.Lines
import Abbrev.Text.Lowercase
import Abbrev.Text.Numeral

/-!
# Settings from the environment

Four variables of the environment override the fields of a profile, and two more are flags. The
values are free texts; `Overrides.ofEnvironment` says what they mean, and `Profile.override` refuses
a quote or a closing style that does not exist.
-/

namespace Abbrev

/-- The variables of the environment that are set. -/
structure Environment where
  entries : List (String × Text)

namespace Environment

/-- The value of a variable, if it is set. -/
def get? (env : Environment) (name : String) : Option Text :=
  env.entries.lookup name

/-- The environment without a variable. -/
def unset (env : Environment) (name : String) : Environment :=
  ⟨env.entries.filter fun entry => entry.1 ≠ name⟩

/-- The environment with a variable set to a value. -/
def set (env : Environment) (name : String) (value : Text) : Environment :=
  ⟨(name, value) :: (env.unset name).entries⟩

/-- The words that switch something off. -/
def offWords : List Text :=
  ["0", "false", "no", "off"].map String.toList

/-- Whether a flag is set and neither empty nor switched off. -/
def flag (env : Environment) (name : String) : Bool :=
  match env.get? name with
  | none => false
  | some value =>
    let word := Text.lower (Text.trim value)
    !word.isEmpty && !offWords.contains word

/-- Whether records of what is done are shown. -/
def debug (env : Environment) : Bool :=
  env.flag "ZEN_REF_DEBUG"

/-- The variable that shows where an error came from. -/
def traceVariable : String := "ZEN_REF_DEBUG_PY_TRACE"

/-- Whether an error shows where it came from. -/
def trace (env : Environment) : Bool :=
  env.flag traceVariable

end Environment

/-- The fields of a profile that the environment sets, as far as it sets them. -/
structure Overrides where
  indent : Option Text
  /-- The text for the quote. -/
  quote : Option Text
  /-- The name of the closing style. -/
  closing : Option Text
  format : Option Bool

namespace Overrides

/-- So many spaces, a byte each, unless they are too many. -/
def spaces (count : Nat) : Except SizeError Text :=
  match SizeError.ofCopies? 1 49 count with
  | some e => .error e
  | none => .ok (List.replicate count ' ')

/-- The indent that a text asks for: digits ask for that many spaces, and any other text for itself,
where a backslash and a `t` are a tab. -/
def indentOf (t : Text) : Except ProfileError Text :=
  if !t.isEmpty && t.all Text.isDigit then
    match Text.overlong? t, Text.readInt? t with
    | some e, _ => .error (.size e)
    | none, some n => (spaces n.toNat).mapError .size
    | none, none => .error (.badIndent t)
  else .ok (Text.replacePair '\\' 't' ['\t'] t)

/-- The quote that a text asks for: by name in any case, or by itself. -/
def quoteOf (t : Text) : Text :=
  let word := Text.lower t
  if word = "single".toList then [Quote.single.sign]
  else if word = "double".toList then [Quote.double.sign]
  else t

/-- What the variables of the environment set. -/
def ofEnvironment (env : Environment) : Except ProfileError Overrides := do
  let indent ← (env.get? "ZEN_REF_INDENT").mapM indentOf
  return {
    indent
    quote := (env.get? "ZEN_REF_ATTR_QUOTE").map quoteOf
    closing := (env.get? "ZEN_REF_SELF_CLOSING").map Text.lower
    format := (env.get? "ZEN_REF_FORMAT").map fun t =>
      !Environment.offWords.contains (Text.lower (Text.trim t)) }

/-- Whether nothing is set. -/
def isEmpty (o : Overrides) : Bool :=
  o.indent.isNone && o.quote.isNone && o.closing.isNone && o.format.isNone

/-- The fields that are set, for records of what was done. -/
def description (o : Overrides) : Text :=
  let entry := fun (name : String) (value : Text) =>
    Text.quoted name.toList ++ ": ".toList ++ value
  let entries :=
    (o.indent.map fun t => entry "indent" (Text.quoted t)).toList ++
    (o.quote.map fun t => entry "attr_quote" (Text.quoted t)).toList ++
    (o.closing.map fun t => entry "self_closing" (Text.quoted t)).toList ++
    (o.format.map fun b => entry "format" (if b then "True".toList else "False".toList)).toList
  '{' :: Text.join ", ".toList entries ++ ['}']

end Overrides

/-- The profile with the fields that are set replaced. -/
def Profile.override (profile : Profile) (o : Overrides) : Except ProfileError Profile :=
  { profile with
    indent := o.indent.getD profile.indent
    format := o.format.getD profile.format }.withTexts
      (o.quote.getD [profile.quote.sign]) (o.closing.getD profile.closing.name)

end Abbrev
