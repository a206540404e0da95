/-!
# Text

A text is a list of characters, so an offset into it counts characters. Where a text is cut, an
offset past the end counts as the end, a negative offset counts back from the end, and one that
leads back beyond the start counts as the start (`Text.place`).
-/

namespace Abbrev

/-- A text, as the list of its characters. -/
abbrev Text := List Char

namespace Text

/-- The number of characters before an offset, where a negative offset counts back from the end. -/
def place (t : Text) (offset : Int) : Nat :=
  if offset < 0 then (t.length + offset).toNat else offset.toNat

/-- The characters up to offset `stop`. -/
def upTo (stop : Int) (t : Text) : Text :=
  t.take (place t stop)

/-- The characters from offset `start` on. -/
def onFrom (start : Int) (t : Text) : Text :=
  t.drop (place t start)

/-- The characters from offset `start` up to offset `stop`; none if `stop` is not after `start`. -/
def slice (start stop : Int) (t : Text) : Text :=
  (upTo stop t).drop (place t start)

/-- An offset that is not negative counts from the start. -/
@[simp] theorem place_natCast (t : Text) (n : Nat) : place t n = n := by
  rw [place, if_neg (Int.not_lt.2 (Int.natCast_nonneg n)), Int.toNat_natCast]

/-- The characters up to an offset from the start. -/
@[simp] theorem upTo_natCast (n : Nat) (t : Text) : upTo n t = t.take n := by
  simp [upTo]

/-- The characters from an offset on that counts from the start. -/
@[simp] theorem onFrom_natCast (n : Nat) (t : Text) : onFrom n t = t.drop n := by
  simp [onFrom]

/-- The characters between two offsets that count from the start. -/
@[simp] theorem slice_natCast (m n : Nat) (t : Text) : slice m n t = (t.take n).drop m := by
  simp [slice]

/-- The text with every occurrence of the character `old` replaced by `new`. -/
def replaceChar (old : Char) (new : Text) (t : Text) : Text :=
  t.flatMap fun c => if c = old then new else [c]

/-- The text with every `first` directly followed by `second` replaced by `new`, from the left. -/
def replacePair (first second : Char) (new : Text) : Text → Text
  | [] => []
  | [c] => [c]
  | c :: d :: rest =>
    if c = first ∧ d = second then new ++ replacePair first second new rest
    else c :: replacePair first second new (d :: rest)

/-- The texts one after the other with `separator` between neighbours. -/
def join (separator : Text) (parts : List Text) : Text :=
  (parts.intersperse separator).flatten

/-- A single text is joined to itself. -/
@[simp] theorem join_singleton (separator part : Text) : join separator [part] = part := by
  rw [join, List.intersperse_singleton, List.flatten_singleton]

/-- The separator stands behind the first one of several texts. -/
@[simp] theorem join_cons_cons (separator part next : Text) (rest : List Text) :
    join separator (part :: next :: rest) =
      part ++ (separator ++ join separator (next :: rest)) := by
  rw [join, List.intersperse_cons_cons, List.flatten_cons, List.flatten_cons]
  rfl

/-- `t` comes before `u` or is equal to it when texts are ordered by code point. -/
def le (t u : Text) : Bool :=
  !decide (u < t)

/-- The texts in code point order, each of them once. -/
def sortDistinct (ts : List Text) : List Text :=
  (ts.mergeSort le).eraseReps

/-- The text without its first and its last character. -/
def inner (t : Text) : Text :=
  (t.drop 1).dropLast

/-- The text as a string, for messages. -/
def str (t : Text) : String :=
  String.ofList t

end Text

end Abbrev
