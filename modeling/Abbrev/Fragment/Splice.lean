import Abbrev.Fragment
import Abbrev.Text.Numeral

/-!
# Joining fragments

A fragment can be put into another one, at an offset or at its end. Tab stops are linked by their
names, so a name of the inserted fragment that is in use already gets a number: `href` becomes
`href2`, or `href3` if that is in use as well. `ATTRS` is one shared name and `END` is unique: the
one of the inserted fragment replaces the earlier one.
-/

namespace Abbrev.Fragment

/-- The name with a number after it. -/
def numbered (name : Text) (n : Nat) : Text :=
  name ++ Nat.toDigits 10 n

/-- The first name in the row `name2`, `name3`, … that is not in `taken`. Of one name more than are
taken, some name is free. -/
def freshName (taken : List Text) (name : Text) : Text :=
  let row := (List.range (taken.length + 1)).map fun i => numbered name (i + 2)
  (row.find? fun candidate => !taken.contains candidate).getD name

/-- New names for those of `names` that are in `used`. No new name is in `taken` or given twice. -/
def renamesFrom (used : List Text) (taken : List Text) : List Text → List (Text × Text)
  | [] => []
  | name :: more =>
    if Marker.isReserved name || !used.contains name then renamesFrom used taken more
    else
      let fresh := freshName taken name
      (name, fresh) :: renamesFrom used (fresh :: taken) more

/-- New names for the markers of `piece` that clash with those of `host`. -/
def renames (host piece : Fragment) : List (Text × Text) :=
  renamesFrom host.names (host.names ++ piece.names) piece.names

/-- The marker under its new name, if it has one. -/
def rename (renames : List (Text × Text)) (m : Marker) : Marker :=
  { m with name := (renames.lookup m.name).getD m.name }

/-- The markers that stay when `piece` is put in: its `END` replaces the earlier one. -/
def remaining (host piece : Fragment) : List Marker :=
  if piece.has Marker.endName then host.markers.filter fun m => m.name ≠ Marker.endName
  else host.markers

/-- The host with `piece` at an offset, where `moves` tells which markers of the host move behind
the piece. -/
def splice (host : Fragment) (offset : Nat) (piece : Fragment) (moves : Marker → Bool) : Fragment :=
  let kept := host.remaining piece
  let inserted := piece.markers.map fun m => (rename (host.renames piece) m).shift offset
  ⟨host.text.take offset ++ piece.text ++ host.text.drop offset,
    kept.filter (fun m => !moves m) ++ inserted ++
      (kept.filter moves).map (Marker.shift piece.text.length)⟩

/-- The host with `piece` at an offset; markers at the offset move behind the piece. -/
def insert (host : Fragment) (offset : Nat) (piece : Fragment) : Fragment :=
  host.splice offset piece fun m => (offset : Int) ≤ m.offset

/-- The host with `piece` at its end; markers at the end stay before the piece. -/
def append (host piece : Fragment) : Fragment :=
  host.splice host.text.length piece fun m => (host.text.length : Int) < m.offset

/-- Where the caret of a piece ends up that is put in at an offset. -/
def insertedEnd? (offset : Nat) (piece : Fragment) : Option Nat :=
  (piece.place? Marker.endName).map (· + offset)

/-- The offset for an insertion lies outside the text. -/
structure OffsetError where
  offset : Int
  length : Nat
  deriving DecidableEq, Repr

/-- The wording of the error. -/
def OffsetError.message (e : OffsetError) : String :=
  s!"insert offset {e.offset} outside 0..{e.length}"

/-- The error of an insertion at an offset, unless the offset lies in the text. -/
def outside? (host : Fragment) (offset : Int) : Option OffsetError :=
  if 0 ≤ offset ∧ offset ≤ host.text.length then none else some ⟨offset, host.text.length⟩

/-- The host with `piece` at an offset that has to lie in the text. -/
def insertChecked (host : Fragment) (offset : Int) (piece : Fragment) :
    Except OffsetError Fragment :=
  match host.outside? offset with
  | none => .ok (host.insert offset.toNat piece)
  | some e => .error e

end Abbrev.Fragment
