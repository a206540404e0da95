import Abbrev.Text.Lines

/-!
# Start tags in snippets

A snippet receives attributes before the end of its first start tag, and only those that the tag
does not carry yet. A start tag is a `<` and an ASCII letter, then anything but angle brackets up to
a `>`.
-/

namespace Abbrev

/-- A start tag found in a text. -/
structure StartTag where
  /-- The tag, from `<` to `>`. -/
  source : Text
  /-- The offset in the text at which attributes can be added. -/
  insertion : Nat
  deriving DecidableEq, Repr

namespace StartTag

/-- Whether `c` is no angle bracket. -/
def isInside (c : Char) : Bool :=
  c != '<' && c != '>'

/-- The inside of a tag without a slash at the end and the blanks before it. -/
def withoutEnd (inside : Text) : Text :=
  match inside.reverse with
  | '/' :: rest => (Text.trimLeft rest).reverse
  | reversed => (Text.trimLeft reversed).reverse

/-- The first start tag in a text whose first character has the given offset. -/
def findFrom? (offset : Nat) : Text → Option StartTag
  | '<' :: c :: rest =>
    match c.isAlpha, rest.dropWhile isInside with
    | true, '>' :: _ =>
      let inside := rest.takeWhile isInside
      some ⟨'<' :: c :: inside ++ ['>'], offset + 2 + (withoutEnd inside).length⟩
    | _, _ => findFrom? (offset + 1) (c :: rest)
  | _ :: rest => findFrom? (offset + 1) rest
  | [] => none

/-- The first start tag in a text. -/
def find? (t : Text) : Option StartTag :=
  findFrom? 0 t

/-- Whether `c` may stand in the name of an attribute that a tag carries. -/
def isAttributePart (c : Char) : Bool :=
  Text.isWord c || c == ':' || c == '.' || c == '-'

/-- What follows an attribute's name and equals sign, with the name, in a text that stands after a
blank. -/
def attribute? (t : Text) : Option (Text × Text) :=
  let name := t.takeWhile isAttributePart
  match Text.trimLeft (t.dropWhile isAttributePart) with
  | '=' :: rest => if name = [] then none else some (name, rest)
  | _ => none

/-- What follows an attribute is shorter than what the attribute was read from. -/
theorem length_attribute? {t name rest : Text} (h : attribute? t = some (name, rest)) :
    rest.length < t.length := by
  unfold attribute? at h
  dsimp only at h
  split at h
  · next after hdrop =>
    split at h
    · simp at h
    · simp only [Option.some.injEq, Prod.mk.injEq] at h
      have hle : (Text.trimLeft (t.dropWhile isAttributePart)).length ≤ t.length :=
        ((List.dropWhile_sublist _).trans (List.dropWhile_sublist _)).length_le
      rw [hdrop, List.length_cons, h.2] at hle
      omega
  · simp at h

/-- The names of the attributes that a text carries: those after a blank and before an equals
sign. -/
def attributeNames (t : Text) : List Text :=
  match t with
  | [] => []
  | c :: rest =>
    if Text.isBlank c then
      match _found : attribute? rest with
      | some (name, after) => name :: attributeNames after
      | none => attributeNames rest
    else attributeNames rest
termination_by t.length
decreasing_by
  · have := length_attribute? _found
    simp only [List.length_cons]
    omega
  all_goals simp

end StartTag

end Abbrev
