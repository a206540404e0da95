import Abbrev.Token
import Abbrev.Text.Numeral

/-!
# Reading tokens

An abbreviation is read from left to right. A quote opens a text that the same quote closes, a brace
opens a text in which braces are paired, and every other delimiter is a token of its own, apart from
U+0000, which separates and is dropped. All that stands between delimiters is a name, or a number if
it consists of ASCII digits.

A `+` belongs to the name before it when nothing or a closing parenthesis follows, so that `ul+` is
one name while `ul+p` is three tokens.
-/

namespace Abbrev

/-- Why an abbreviation cannot be cut into tokens. -/
inductive LexCause where
  /-- A quote is never closed. -/
  | unterminatedString
  /-- A brace is never closed. -/
  | unbalancedBraces
  /-- A closing brace was never opened. -/
  | unmatchedBrace
  deriving DecidableEq, Repr

/-- A failure to read tokens, with the column of the quote or brace at fault. -/
structure LexError where
  cause : LexCause
  column : Nat
  deriving DecidableEq, Repr

/-- The wording of a cause. -/
def LexCause.message : LexCause → String
  | .unterminatedString => "Unterminated string"
  | .unbalancedBraces => "Unbalanced braces"
  | .unmatchedBrace => "Unmatched '\x7d'"

/-- The wording of an error, with its column. -/
def LexError.message (e : LexError) : String :=
  s!"{e.cause.message} at col {e.column}"

namespace Token

/-- The characters that end a name. -/
def delimiters : List Char :=
  ['>', '+', '*', '^', '|', '(', ')', '[', ']', '{', '}', '.', '#', ',', '=', '\'', '"', ' ',
    '\x00']

/-- Whether `c` ends a name. -/
def isDelimiter (c : Char) : Bool :=
  delimiters.contains c

/-- Whether `c`, with `rest` after it, is a plus that belongs to the name before it. -/
def joinsName (c : Char) (rest : Text) : Bool :=
  c == '+' && (rest.isEmpty || rest.head? == some ')')

/-- The longest name at the start of a text, and what follows it. -/
def spanName : Text → Text × Text
  | [] => ([], [])
  | c :: rest =>
    if isDelimiter c && !joinsName c rest then ([], c :: rest)
    else
      let (name, after) := spanName rest
      (c :: name, after)

/-- What stands before the next `quote`, and what follows that quote. -/
def spanQuoted (quote : Char) : Text → Option (Text × Text)
  | [] => none
  | c :: rest =>
    if c = quote then some ([], rest)
    else (spanQuoted quote rest).map fun (body, after) => (c :: body, after)

/-- What stands before the brace that closes `depth` inner braces and the outer one, and what
follows that brace. -/
def spanBraced (depth : Nat) : Text → Option (Text × Text)
  | [] => none
  | c :: rest =>
    if c = '}' ∧ depth = 0 then some ([], rest)
    else
      let inner := if c = '{' then depth + 1 else if c = '}' then depth - 1 else depth
      (spanBraced inner rest).map fun (body, after) => (c :: body, after)

/-- A name and what follows it are as long as the text they were cut from. -/
theorem length_spanName (t : Text) :
    (spanName t).1.length + (spanName t).2.length = t.length := by
  induction t with
  | nil => rfl
  | cons c rest ih =>
    rw [spanName]
    split
    · simp
    · simp only [List.length_cons]
      omega

/-- A quoted text with its closing quote and what follows are as long as the text they were cut
from. -/
theorem length_spanQuoted {quote : Char} {t body after : Text}
    (h : spanQuoted quote t = some (body, after)) :
    body.length + 1 + after.length = t.length := by
  induction t generalizing body with
  | nil => simp [spanQuoted] at h
  | cons c rest ih =>
    rw [spanQuoted] at h
    split at h
    · simp only [Option.some.injEq, Prod.mk.injEq] at h
      simp [← h.1, ← h.2, Nat.add_comm]
    · obtain ⟨⟨b, a⟩, hb, he⟩ := Option.map_eq_some_iff.1 h
      simp only [Prod.mk.injEq] at he
      have := ih (he.2 ▸ hb)
      simp only [← he.1, List.length_cons]
      omega

/-- A braced text with its closing brace and what follows are as long as the text they were cut
from. -/
theorem length_spanBraced {depth : Nat} {t body after : Text}
    (h : spanBraced depth t = some (body, after)) :
    body.length + 1 + after.length = t.length := by
  induction t generalizing depth body with
  | nil => simp [spanBraced] at h
  | cons c rest ih =>
    rw [spanBraced] at h
    split at h
    · simp only [Option.some.injEq, Prod.mk.injEq] at h
      simp [← h.1, ← h.2, Nat.add_comm]
    · obtain ⟨⟨b, a⟩, hb, he⟩ := Option.map_eq_some_iff.1 h
      simp only [Prod.mk.injEq] at he
      have := ih (he.2 ▸ hb)
      simp only [← he.1, List.length_cons]
      omega

/-- The lexeme of a name: a number if it consists of ASCII digits. -/
def ofName (name : Text) : Lexeme :=
  if Text.isNatural name then .number name else .name name

/-- The lexeme of a delimiter that stands for itself. -/
def ofDelimiter? (c : Char) : Option Lexeme :=
  match c with
  | '(' => some (.punctuation .openParen)
  | ')' => some (.punctuation .closeParen)
  | '[' => some (.punctuation .openBracket)
  | ']' => some (.punctuation .closeBracket)
  | '=' => some (.punctuation .equals)
  | '.' => some (.punctuation .dot)
  | '#' => some (.punctuation .hash)
  | ',' => some (.punctuation .comma)
  | ' ' => some (.punctuation .space)
  | '|' => some (.punctuation .bar)
  | '+' => some (.operator .sibling)
  | '>' => some (.operator .child)
  | '^' => some (.operator .climb)
  | '*' => some (.operator .times)
  | _ => none

/-- The tokens of a text whose first character stands at `column`. -/
def readFrom (column : Nat) (t : Text) : Except LexError (List Token) :=
  match t with
  | [] => .ok []
  | c :: rest =>
    if _named : (spanName (c :: rest)).1 ≠ [] then do
      let name := (spanName (c :: rest)).1
      let tokens ← readFrom (column + name.length) (spanName (c :: rest)).2
      .ok (⟨ofName name, column⟩ :: tokens)
    else if c = '"' ∨ c = '\'' then
      match h : spanQuoted c rest with
      | none => .error ⟨.unterminatedString, column⟩
      | some (body, after) => do
        let tokens ← readFrom (column + body.length + 2) after
        .ok (⟨.quoted c body, column⟩ :: tokens)
    else if c = '{' then
      match h : spanBraced 0 rest with
      | none => .error ⟨.unbalancedBraces, column⟩
      | some (body, after) => do
        let tokens ← readFrom (column + body.length + 2) after
        .ok (⟨.braced body, column⟩ :: tokens)
    else if c = '}' then .error ⟨.unmatchedBrace, column⟩
    else do
      let tokens ← readFrom (column + 1) rest
      match ofDelimiter? c with
      | some lexeme => .ok (⟨lexeme, column⟩ :: tokens)
      | none => .ok tokens
termination_by t.length
decreasing_by
  · have := length_spanName (c :: rest)
    have := List.length_pos_iff.2 _named
    omega
  · have := length_spanQuoted h
    simp only [List.length_cons]
    omega
  · have := length_spanBraced h
    simp only [List.length_cons]
    omega
  · simp

/-- The tokens of an abbreviation. -/
def read (source : Text) : Except LexError (List Token) :=
  readFrom 0 source

end Token

end Abbrev
