import Abbrev.Abbreviation.Parser
import Abbrev.Proofs.Text.Numerals

/-!
# The grammar of abbreviations

What it means for a list of tokens to be an abbreviation, said apart from the way it is read. Each
relation below is one rule of the grammar: it holds of *all* the tokens of a phrase and of what the
phrase stands for. Tokens carry columns, which no rule looks at.

Expressions, terms and primaries refer to each other, so they are one relation, indexed by the kind
of phrase (`Grammar.Derives`): an induction over a derivation then covers all three. The catalog
decides which names are elements and the generator which element a lone selector stands for; both
come in through the grammar `g`.
-/

namespace Abbrev.Grammar

/-- Tokens that separate attributes: spaces and commas, in any number. -/
def Separators (ts : List Token) : Prop :=
  ∀ t ∈ ts, t.lexeme = .punctuation .space ∨ t.lexeme = .punctuation .comma

/-- `['=' [name | number | quoted]]`: what may stand after the name of an attribute. -/
inductive ValueForm : List Token → Text → Prop where
  | absent : ValueForm [] []
  | empty {c : Nat} : ValueForm [⟨.punctuation .equals, c⟩] []
  | name {c d : Nat} {value : Text} :
      ValueForm [⟨.punctuation .equals, c⟩, ⟨.name value, d⟩] value
  | number {c d : Nat} {value : Text} :
      ValueForm [⟨.punctuation .equals, c⟩, ⟨.number value, d⟩] value
  | quoted {c d : Nat} {quote : Char} {body : Text} :
      ValueForm [⟨.punctuation .equals, c⟩, ⟨.quoted quote body, d⟩] body

/-- `attribute (separator+ attribute)*`, with the attributes in the order of the source. -/
inductive AttributeRun : List Token → List Attribute → Prop where
  | last {ts : List Token} {c : Nat} {name value : Text} :
      ValueForm ts value → AttributeRun (⟨.name name, c⟩ :: ts) [⟨name, value⟩]
  | more {ts between us : List Token} {c : Nat} {name value : Text} {as : List Attribute} :
      ValueForm ts value → Separators between → between ≠ [] → AttributeRun us as →
      AttributeRun (⟨.name name, c⟩ :: ts ++ between ++ us) (⟨name, value⟩ :: as)

/-- `'.' name | '#' name | '[' separator* attributes separator* ']'` -/
inductive SelectorForm : List Token → List Attribute → Prop where
  | className {c d : Nat} {value : Text} :
      SelectorForm [⟨.punctuation .dot, c⟩, ⟨.name value, d⟩] [⟨"class".toList, value⟩]
  | identifier {c d : Nat} {value : Text} :
      SelectorForm [⟨.punctuation .hash, c⟩, ⟨.name value, d⟩] [⟨"id".toList, value⟩]
  | attributes {before ts after : List Token} {c d : Nat} {as : List Attribute} :
      Separators before → AttributeRun ts as → Separators after →
      SelectorForm
        (⟨.punctuation .openBracket, c⟩ :: before ++ ts ++ after ++
          [⟨.punctuation .closeBracket, d⟩]) as

/-- `selector*`: the attributes of the selectors one after the other. -/
inductive SelectorRun : List Token → List Attribute → Prop where
  | nil : SelectorRun [] []
  | cons {ts us : List Token} {as bs : List Attribute} :
      SelectorForm ts as → SelectorRun us bs → SelectorRun (ts ++ us) (as ++ bs)

/-- `[braced]`: the text that may end an element. -/
inductive InlineForm : List Token → Option Text → Prop where
  | absent : InlineForm [] none
  | braced {c : Nat} {body : Text} : InlineForm [⟨.braced body, c⟩] (some body)

/-- `[name] selector* [braced]`, with at least one selector if there is no name. The key has to be
known to the catalog or to look like the name of an element. -/
inductive ElementForm (g : Grammar) : List Token → Abbreviation → Prop where
  | named {ts us : List Token} {c : Nat} {key : Text} {as : List Attribute} {text : Option Text} :
      g.knows key = true → SelectorRun ts as → InlineForm us text →
      ElementForm g (⟨.name key, c⟩ :: ts ++ us) (.element key as text)
  | unnamed {ts us : List Token} {as : List Attribute} {text : Option Text} :
      g.knows g.defaultTag = true → SelectorRun ts as → ts ≠ [] → InlineForm us text →
      ElementForm g (ts ++ us) (.element g.defaultTag as text)

/-- What is repeated where a phrase is: a text with a group around it, and anything else as it is.
-/
inductive Repeats : Abbreviation → Abbreviation → Prop where
  | text {body : Text} : Repeats (.text body) (.group (.text body))
  | other {a : Abbreviation} : (∀ body, a ≠ .text body) → Repeats a a

/-- The kinds of phrases that contain each other. -/
inductive Phrase where
  /-- Terms joined by operators. -/
  | expression
  /-- A primary, repeated or not. -/
  | term
  /-- A group, a text or an element. -/
  | primary

/-- The tokens of a phrase of some kind, and what the phrase stands for. Operators have all that
follows as their right side, a leading `^` has nothing as its left side, and a text that is repeated
is put into a group. The number of copies is what the digits denote by their places; there may be
4300 of them. -/
inductive Derives (g : Grammar) : Phrase → List Token → Abbreviation → Prop where
  | group {ts : List Token} {c d : Nat} {a : Abbreviation} :
      Derives g .expression ts a →
      Derives g .primary
        (⟨.punctuation .openParen, c⟩ :: ts ++ [⟨.punctuation .closeParen, d⟩]) (.group a)
  | text {c : Nat} {body : Text} : Derives g .primary [⟨.braced body, c⟩] (.text body)
  | element {ts : List Token} {a : Abbreviation} :
      ElementForm g ts a → Derives g .primary ts a
  | once {ts : List Token} {a : Abbreviation} : Derives g .primary ts a → Derives g .term ts a
  | perLine {ts : List Token} {c : Nat} {a b : Abbreviation} :
      Derives g .primary ts a → Repeats a b →
      Derives g .term (ts ++ [⟨.operator .times, c⟩]) (.repeated b .perLine)
  | times {ts : List Token} {c d : Nat} {digits : Text} {a b : Abbreviation} :
      Derives g .primary ts a → Repeats a b → digits.length ≤ 4300 →
      Derives g .term (ts ++ [⟨.operator .times, c⟩, ⟨.number digits, d⟩])
        (.repeated b (.times (Text.decimal digits)))
  | leadingClimb {ts : List Token} {c : Nat} {a : Abbreviation} :
      Derives g .expression ts a →
      Derives g .expression (⟨.operator .climb, c⟩ :: ts) (.climb .empty a)
  | single {ts : List Token} {a : Abbreviation} :
      Derives g .term ts a → Derives g .expression ts a
  | sibling {ts us : List Token} {c : Nat} {a b : Abbreviation} :
      Derives g .term ts a → Derives g .expression us b →
      Derives g .expression (ts ++ ⟨.operator .sibling, c⟩ :: us) (.sibling a b)
  | child {ts us : List Token} {c : Nat} {a b : Abbreviation} :
      Derives g .term ts a → Derives g .expression us b →
      Derives g .expression (ts ++ ⟨.operator .child, c⟩ :: us) (.child a b)
  | climb {ts us : List Token} {c : Nat} {a b : Abbreviation} :
      Derives g .term ts a → Derives g .expression us b →
      Derives g .expression (ts ++ ⟨.operator .climb, c⟩ :: us) (.climb a b)

/-- A known key by itself is an element without attributes and text. -/
theorem Derives.key {g : Grammar} {key : Text} {c : Nat} (h : g.knows key = true) :
    Derives g .primary [⟨.name key, c⟩] (.element key [] none) :=
  .element (.named h .nil .absent)

/-- `expression ('|' name)*`, where the names are suffixes that the grammar allows. The suffix that
is written last is the outermost one. -/
inductive SuffixedForm (g : Grammar) : List Token → Abbreviation → Prop where
  | bare {ts : List Token} {a : Abbreviation} :
      Derives g .expression ts a → SuffixedForm g ts a
  | suffix {ts : List Token} {c d : Nat} {a : Abbreviation} {name : Text} :
      SuffixedForm g ts a → (∀ allowed ∈ g.suffixes, name ∈ allowed) →
      SuffixedForm g (ts ++ [⟨.punctuation .bar, c⟩, ⟨.name name, d⟩]) (.filtered a name)

/-- No token is a text in braces, if the generator has no place for texts. -/
def TextsAllowed (g : Grammar) (ts : List Token) : Prop :=
  ∀ generator ∈ g.generator, generator.supportsText = false →
    ∀ t ∈ ts, ∀ body, t.lexeme ≠ .braced body

end Abbrev.Grammar
