import Abbrev.Abbreviation
import Abbrev.Catalog
import Abbrev.ElementName
import Abbrev.Generator
import Abbrev.Token.Lexer

/-!
# Reading abbreviations

The grammar, with the operators that bind least first:

    abbreviation := expression ('|' name)*
    expression   := '^' expression | term | term ('+' | '>' | '^') expression
    term         := primary ['*' [number]]
    primary      := '(' expression ')' | braced | element
    element      := [name] selector* [braced]          (a selector if there is no name)
    selector     := '.' name | '#' name | '[' attributes ']'
    attributes   := separator* attribute (separator+ attribute)* separator*
    attribute    := name ['=' [name | number | quoted]]
    separator    := ' ' | ','

Each function reads from the front of a list of tokens and returns what is left, with a proof that
it is shorter. A function that cannot go on returns the tokens at which it stopped, and the error is
reported at the first of them. Where it stops for the size of a number, the tokens may well form an
abbreviation, so this is no parse error but one of its own (`ReadError.size`).
-/

namespace Abbrev

/-- What the grammar leaves to its surroundings. -/
structure Grammar where
  /-- The keys of the catalog are names of elements, whatever they look like. -/
  catalog : Catalog := .empty
  /-- The generator that the abbreviation is meant for. -/
  generator : Option Generator := none
  /-- The suffixes that may follow a bar; any if there is no list. -/
  suffixes : Option (List Text) := none

/-- Why tokens do not form an abbreviation. -/
inductive ParseCause where
  | expectedElement
  | invalidElement (key : Text)
  | expectedClass
  | expectedId
  | expectedAttribute
  | expectedSeparator
  | emptyAttributes
  | expectedValue
  | expectedClosing
  | unexpectedOperator (op : Operator)
  | expectedFilter
  | unknownFilter (name : Text)
  | unexpected
  | textUnsupported (generator : Text)
  | bareText
  /-- The number of copies cannot be read, whether or not the tokens form an abbreviation. -/
  | size (e : SizeError)
  deriving DecidableEq, Repr

/-- Where an error is reported. -/
inductive Place where
  | token (t : Token)
  | endOfInput (column : Nat)
  deriving DecidableEq, Repr

/-- The name of what stands at a place, in messages. -/
def Place.kind : Place → String
  | .token t => t.lexeme.kind
  | .endOfInput _ => "EOF"

/-- The column of a place. -/
def Place.column : Place → Nat
  | .token t => t.column
  | .endOfInput column => column

/-- A failure to read an abbreviation from its tokens. -/
structure ParseError where
  cause : ParseCause
  place : Option Place
  deriving DecidableEq, Repr

/-- The wording of a cause, where `found` names what was found instead. -/
def ParseCause.message (found : String) : ParseCause → String
  | .expectedElement => s!"Expected element name, got {found}"
  | .invalidElement key => s!"'{key.str}' is not a valid element name"
  | .expectedClass => "Expected class name after '.'"
  | .expectedId => "Expected id after '#'"
  | .expectedAttribute => "Expected attribute name"
  | .expectedSeparator => "Expected ']' or attribute separator"
  | .emptyAttributes => "Empty attribute list"
  | .expectedValue => "Expected attribute value"
  | .expectedClosing => "Expected ')'"
  | .unexpectedOperator op => s!"Unexpected operator '{op.sign}'"
  | .expectedFilter => "Expected filter name after '|'"
  | .unknownFilter name => s!"Unknown filter '{name.str}'"
  | .unexpected => s!"Unexpected {found}"
  | .textUnsupported generator => s!"Generator '{generator.str}' does not support text"
  | .bareText => "Bare text is not an abbreviation"
  | .size e => e.message

/-- The wording of an error; the column is given unless the input is at its end. -/
def ParseError.message (e : ParseError) : String :=
  match e.place with
  | none => e.cause.message ""
  | some (.endOfInput column) => e.cause.message (Place.endOfInput column).kind
  | some (.token t) => s!"{e.cause.message (Place.token t).kind} at col {t.column}"

/-- Why a text is not read as an abbreviation. -/
inductive ReadError where
  | lex (e : LexError)
  | parse (e : ParseError)
  /-- A number is too large; the text may be an abbreviation. -/
  | size (e : SizeError)
  deriving DecidableEq, Repr

/-- The error of a text that was not read from its tokens. -/
def ReadError.ofParse (e : ParseError) : ReadError :=
  match e.cause with
  | .size e => .size e
  | _ => .parse e

/-- The wording of an error. -/
def ReadError.message : ReadError → String
  | .lex e => e.message
  | .parse e => e.message
  | .size e => e.message

namespace Grammar

/-- Where and why reading stopped. -/
structure Halt where
  cause : ParseCause
  /-- The tokens from the one that did not fit. -/
  rest : List Token

/-- The place at which reading stopped, in tokens that end at column `stop`. -/
def Halt.place (stop : Nat) (h : Halt) : Place :=
  match h.rest with
  | t :: _ => .token t
  | [] => .endOfInput stop

/-- The tokens that are left after some of `ts` were read. -/
abbrev Shorter (ts : List Token) :=
  { rest : List Token // rest.length < ts.length }

/-- The tokens that are left after none or some of `ts` were read. -/
abbrev NoLonger (ts : List Token) :=
  { rest : List Token // rest.length ≤ ts.length }

/-- Whether a token separates attributes. -/
def isSeparator (t : Token) : Bool :=
  t.lexeme == .punctuation .space || t.lexeme == .punctuation .comma

/-- Whether tokens go on with a separator or the end of an attribute list. -/
def endsAttribute : List Token → Bool
  | [] => false
  | t :: _ => isSeparator t || t.lexeme == .punctuation .closeBracket

/-- What follows the first token that is not skipped is shorter than the tokens skipped from. -/
theorem length_lt_of_dropWhile {p : Token → Bool} {ts rest : List Token} {t : Token}
    (h : ts.dropWhile p = t :: rest) : rest.length < ts.length := by
  have := (List.dropWhile_sublist p (l := ts)).length_le
  rwa [h] at this

/-- What stands after the name of an attribute: its value, which is empty if there is none. -/
def attributeValue : (ts : List Token) → Except Halt (Text × NoLonger ts)
  | ⟨.punctuation .equals, _⟩ :: ts =>
    match ts with
    | ⟨.quoted _ body, _⟩ :: rest => .ok (body, ⟨rest, Nat.le_add_right _ 2⟩)
    | ⟨.name value, _⟩ :: rest => .ok (value, ⟨rest, Nat.le_add_right _ 2⟩)
    | ⟨.number value, _⟩ :: rest => .ok (value, ⟨rest, Nat.le_add_right _ 2⟩)
    | rest =>
      if endsAttribute rest then .ok ([], ⟨rest, Nat.le_succ _⟩) else .error ⟨.expectedValue, rest⟩
  | ts => .ok ([], ⟨ts, Nat.le_refl _⟩)

/-- The attributes up to the closing bracket. -/
def attributesUntilClose (ts : List Token) : Except Halt (List Attribute × Shorter ts) :=
  match h : ts.dropWhile isSeparator with
  | ⟨.punctuation .closeBracket, _⟩ :: rest =>
    .ok ([], ⟨rest, length_lt_of_dropWhile h⟩)
  | ⟨.name name, _⟩ :: afterName => do
    let (value, rest) ← attributeValue afterName
    if endsAttribute rest.1 then
      have shorter : rest.1.length < ts.length :=
        Nat.lt_of_le_of_lt rest.2 (length_lt_of_dropWhile h)
      let (more, last) ← attributesUntilClose rest.1
      .ok (⟨name, value⟩ :: more, ⟨last.1, Nat.lt_trans last.2 shorter⟩)
    else .error ⟨.expectedSeparator, rest.1⟩
  | other => .error ⟨.expectedAttribute, other⟩
termination_by ts.length

/-- The attributes after an opening bracket, of which there must be one. -/
def attributeList (ts : List Token) : Except Halt (List Attribute × Shorter ts) := do
  let (attributes, rest) ← attributesUntilClose ts
  if attributes.isEmpty then .error ⟨.emptyAttributes, rest.1⟩ else .ok (attributes, rest)

/-- The attributes that one selector stands for, if the tokens begin with a selector. -/
def selector? : (ts : List Token) → Except Halt (Option (List Attribute × Shorter ts))
  | ⟨.punctuation .dot, _⟩ :: ts =>
    match ts with
    | ⟨.name value, _⟩ :: rest =>
      .ok (some ([⟨"class".toList, value⟩], ⟨rest, Nat.lt_add_of_pos_right Nat.two_pos⟩))
    | rest => .error ⟨.expectedClass, rest⟩
  | ⟨.punctuation .hash, _⟩ :: ts =>
    match ts with
    | ⟨.name value, _⟩ :: rest =>
      .ok (some ([⟨"id".toList, value⟩], ⟨rest, Nat.lt_add_of_pos_right Nat.two_pos⟩))
    | rest => .error ⟨.expectedId, rest⟩
  | ⟨.punctuation .openBracket, _⟩ :: ts => do
    let (attributes, rest) ← attributeList ts
    .ok (some (attributes, ⟨rest.1, Nat.lt_trans rest.2 (Nat.lt_succ_self _)⟩))
  | _ => .ok none

/-- Whether tokens begin with a selector. -/
def startsSelector : List Token → Bool
  | [] => false
  | t :: _ => [.dot, .hash, .openBracket].any fun sign => t.lexeme == .punctuation sign

/-- The attributes of all selectors that follow each other. -/
def selectors (ts : List Token) : Except Halt (List Attribute × NoLonger ts) := do
  match ← selector? ts with
  | none => .ok ([], ⟨ts, Nat.le_refl _⟩)
  | some (attributes, rest) =>
    let (more, last) ← selectors rest.1
    .ok (attributes ++ more, ⟨last.1, Nat.le_trans last.2 (Nat.le_of_lt rest.2)⟩)
termination_by ts.length
decreasing_by exact rest.2

/-- The text in braces that may end an element. -/
def inlineText : (ts : List Token) → Option Text × NoLonger ts
  | ⟨.braced body, _⟩ :: rest => (some body, ⟨rest, Nat.le_succ _⟩)
  | ts => (none, ⟨ts, Nat.le_refl _⟩)

/-- Whether a key names an element: the catalog knows it, or it looks like a name. -/
def knows (g : Grammar) (key : Text) : Bool :=
  (g.catalog.find? key).isSome || ElementName.isValid key

/-- The element that a selector without a name stands for. -/
def defaultTag (g : Grammar) : Text :=
  match g.generator with
  | some generator => generator.defaultTag
  | none => "div".toList

/-- An element: a name, selectors or both, and a text if one follows. -/
def element (g : Grammar) (ts : List Token) : Except Halt (Abbreviation × Shorter ts) :=
  match ts with
  | ⟨.name key, column⟩ :: afterKey => do
    if !g.knows key then .error ⟨.invalidElement key, ⟨.name key, column⟩ :: afterKey⟩
    let (attributes, rest) ← selectors afterKey
    let (text, last) := inlineText rest.1
    .ok (.element key attributes text,
      ⟨last.1, Nat.lt_of_le_of_lt (Nat.le_trans last.2 rest.2) (Nat.lt_succ_self _)⟩)
  | ts => do
    -- The default tag is a key like any other, but it takes a selector to need one.
    if startsSelector ts && !g.knows g.defaultTag then
      .error ⟨.invalidElement g.defaultTag, ts⟩
    match ← selector? ts with
    | none => .error ⟨.expectedElement, ts⟩
    | some (first, afterFirst) =>
      let (more, rest) ← selectors afterFirst.1
      let (text, last) := inlineText rest.1
      .ok (.element g.defaultTag (first ++ more) text,
        ⟨last.1, Nat.lt_of_le_of_lt (Nat.le_trans last.2 rest.2) afterFirst.2⟩)

/-- A part as it stands under a repetition: a bare text is put into a group. -/
def repeatable : Abbreviation → Abbreviation
  | .text value => .group (.text value)
  | a => a

/-- The repetition of `a` if one follows, else `a` itself. -/
def repetition (a : Abbreviation) : (ts : List Token) → Except Halt (Abbreviation × NoLonger ts)
  | ⟨.operator .times, _⟩ :: ts =>
    match ts with
    | ⟨.number digits, _⟩ :: rest =>
      match Text.readNatural digits with
      | .ok count => .ok (.repeated (repeatable a) (.times count), ⟨rest, Nat.le_add_right _ 2⟩)
      | .error e => .error ⟨.size e, rest⟩
    | rest => .ok (.repeated (repeatable a) .perLine, ⟨rest, Nat.le_succ _⟩)
  | ts => .ok (a, ⟨ts, Nat.le_refl _⟩)

/-- What an operator makes of its two sides; repetition has no right side. -/
def join? : Operator → Option (Abbreviation → Abbreviation → Abbreviation)
  | .sibling => some .sibling
  | .child => some .child
  | .climb => some .climb
  | .times => none

mutual

/-- Terms joined by operators, each of which has all that follows as its right side. -/
def expression (g : Grammar) (ts : List Token) : Except Halt (Abbreviation × Shorter ts) :=
  match ts with
  | ⟨.operator .climb, _⟩ :: rest => do
    let (right, last) ← expression g rest
    .ok (.climb .empty right, ⟨last.1, Nat.lt_trans last.2 (Nat.lt_succ_self _)⟩)
  | ts => do
    let (inner, afterInner) ← primary g ts
    let (left, ⟨rest, shorter⟩) ← repetition inner afterInner.1
    have shorter : rest.length < ts.length := Nat.lt_of_le_of_lt shorter afterInner.2
    match rest, shorter with
    | ⟨.operator op, column⟩ :: afterSign, shorter =>
      match join? op with
      | some join => do
        have shorter : afterSign.length < ts.length := Nat.lt_of_succ_lt shorter
        let (right, last) ← expression g afterSign
        .ok (join left right, ⟨last.1, Nat.lt_trans last.2 shorter⟩)
      | none => .error ⟨.unexpectedOperator op, ⟨.operator op, column⟩ :: afterSign⟩
    | rest, shorter => .ok (left, ⟨rest, shorter⟩)
termination_by (ts.length, 1)

/-- A group, a text or an element. -/
def primary (g : Grammar) (ts : List Token) : Except Halt (Abbreviation × Shorter ts) :=
  match ts with
  | ⟨.punctuation .openParen, _⟩ :: afterOpen => do
    let (inner, afterInner) ← expression g afterOpen
    match afterInner with
    | ⟨⟨.punctuation .closeParen, _⟩ :: rest, shorter⟩ =>
      .ok (.group inner, ⟨rest, Nat.lt_succ_of_lt (Nat.lt_of_succ_lt shorter)⟩)
    | other => .error ⟨.expectedClosing, other.1⟩
  | ⟨.braced body, _⟩ :: rest => .ok (.text body, ⟨rest, Nat.lt_succ_self _⟩)
  | ts => element g ts
termination_by (ts.length, 0)

end

/-- The abbreviation `a` with the suffixes that follow it. -/
def suffixed (g : Grammar) (a : Abbreviation) : List Token → Except Halt (Abbreviation × List Token)
  | ⟨.punctuation .bar, _⟩ :: ⟨.name suffix, column⟩ :: rest =>
    if g.suffixes.all (·.contains suffix) then suffixed g (.filtered a suffix) rest
    else .error ⟨.unknownFilter suffix, ⟨.name suffix, column⟩ :: rest⟩
  | ⟨.punctuation .bar, _⟩ :: rest => .error ⟨.expectedFilter, rest⟩
  | ts => .ok (a, ts)

/-- The first text in braces, if the generator that the abbreviation is meant for has no place for
texts. -/
def unsupportedText? (g : Grammar) (ts : List Token) : Option (Generator × Token) :=
  match g.generator with
  | some generator =>
    if generator.supportsText then none
    else
      (ts.find? fun t => match t.lexeme with | .braced _ => true | _ => false).map (generator, ·)
  | none => none

/-- Whether an abbreviation is nothing but a text, apart from suffixes. -/
def isBareText (a : Abbreviation) : Bool :=
  match a.unfiltered with
  | .text _ => true
  | _ => false

/-- Reads an abbreviation from all of its tokens. -/
def parseTokens (g : Grammar) (ts : List Token) : Except ParseError Abbreviation :=
  let stop := Token.endColumn ts
  match g.unsupportedText? ts with
  | some (generator, t) => .error ⟨.textUnsupported generator.name, some (.token t)⟩
  | none =>
    match (do let (a, rest) ← g.expression ts; g.suffixed a rest.1) with
    | .error halt => .error ⟨halt.cause, some (halt.place stop)⟩
    | .ok (a, rest) =>
      if !rest.isEmpty then .error ⟨.unexpected, some (Halt.place stop ⟨.unexpected, rest⟩)⟩
      else if isBareText a then .error ⟨.bareText, none⟩
      else .ok a

/-- Reads an abbreviation. -/
def parse (g : Grammar) (source : Text) : Except ReadError Abbreviation :=
  match Token.read source with
  | .error e => .error (.lex e)
  | .ok ts =>
    match g.parseTokens ts with
    | .error e => .error (.ofParse e)
    | .ok a => .ok a

/-- Whether a text is an abbreviation, unless a number in it is too large to tell. -/
def accepts (g : Grammar) (source : Text) : Except SizeError Bool :=
  match g.parse source with
  | .ok _ => .ok true
  | .error (.size e) => .error e
  | .error _ => .ok false

end Grammar

end Abbrev
