import Abbrev.Text.Basic

/-!
# Tokens

The pieces that an abbreviation is written in. A lexeme knows its own spelling (`Lexeme.source`),
and a token is a lexeme with the column of its first character, so a token and the text it was read
from can be compared.
-/

namespace Abbrev

/-- The operators between elements, and the one that repeats an element. -/
inductive Operator where
  /-- `+` puts the right side after the left one. -/
  | sibling
  /-- `>` puts the right side inside the left one. -/
  | child
  /-- `^` puts the right side one level above the left one. -/
  | climb
  /-- `*` repeats what stands before it. -/
  | times
  deriving DecidableEq, Repr

/-- The sign an operator is written with. -/
def Operator.sign : Operator → Char
  | .sibling => '+'
  | .child => '>'
  | .climb => '^'
  | .times => '*'

/-- The signs that are single tokens and no operators. -/
inductive Punctuation where
  | openParen
  | closeParen
  | openBracket
  | closeBracket
  | equals
  | dot
  | hash
  | comma
  | space
  | bar
  deriving DecidableEq, Repr

/-- The character of a punctuation sign. -/
def Punctuation.sign : Punctuation → Char
  | .openParen => '('
  | .closeParen => ')'
  | .openBracket => '['
  | .closeBracket => ']'
  | .equals => '='
  | .dot => '.'
  | .hash => '#'
  | .comma => ','
  | .space => ' '
  | .bar => '|'

/-- The name of a punctuation sign in messages. -/
def Punctuation.name : Punctuation → String
  | .openParen => "LPAR"
  | .closeParen => "RPAR"
  | .openBracket => "LSQB"
  | .closeBracket => "RSQB"
  | .equals => "EQ"
  | .dot => "DOT"
  | .hash => "SHARP"
  | .comma => "COMMA"
  | .space => "SPACE"
  | .bar => "PIPE"

/-- A smallest piece of an abbreviation. -/
inductive Lexeme where
  /-- A name or a bare value. -/
  | name (value : Text)
  /-- A run of ASCII digits. -/
  | number (digits : Text)
  /-- Characters between two quotes of the same kind. -/
  | quoted (quote : Char) (body : Text)
  /-- Characters between braces, in which inner braces are paired. -/
  | braced (body : Text)
  | punctuation (sign : Punctuation)
  | operator (op : Operator)
  deriving DecidableEq, Repr

/-- The characters a lexeme is written with. -/
def Lexeme.source : Lexeme → Text
  | .name value => value
  | .number digits => digits
  | .quoted quote body => quote :: body ++ [quote]
  | .braced body => '{' :: body ++ ['}']
  | .punctuation sign => [sign.sign]
  | .operator op => [op.sign]

/-- The name of a lexeme's kind in messages. -/
def Lexeme.kind : Lexeme → String
  | .name _ => "IDENT"
  | .number _ => "NUMBER"
  | .quoted _ _ => "STRING"
  | .braced _ => "TEXT"
  | .punctuation sign => sign.name
  | .operator _ => "OP"

/-- A lexeme and the offset of its first character in the abbreviation. -/
structure Token where
  lexeme : Lexeme
  column : Nat
  deriving DecidableEq, Repr

namespace Token

/-- The characters of a token. -/
def source (t : Token) : Text :=
  t.lexeme.source

/-- The column just after a token. -/
def stop (t : Token) : Nat :=
  t.column + t.source.length

end Token

/-- The column just after the last of a list of tokens, and zero if there are none. -/
def Token.endColumn (tokens : List Token) : Nat :=
  match tokens.getLast? with
  | some t => t.stop
  | none => 0

end Abbrev
