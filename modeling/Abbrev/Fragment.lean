import Abbrev.Text.Basic

/-!
# Fragments

A fragment is a text with named markers at offsets. An ordinary marker is a tab stop, and markers of
one name are one tab stop in several places. Three names are reserved: `END` marks where the caret
goes and where contents are put, `ATTRS` where attributes are put, and `SELECTION` where wrapped
text is put.

The markers of a fragment stand in the order of their offsets, within the text, in all fragments
that this library makes. The operations are defined for any list of markers, in any order and with
any offsets; where the text is cut at a marker, the rules of `Text.place` hold.
-/

namespace Abbrev

/-- A named place in a text. -/
structure Marker where
  name : Text
  offset : Int
  deriving DecidableEq, Repr

namespace Marker

/-- The name of the marker of the caret and the contents. -/
def endName : Text := "END".toList

/-- The name of the marker of the attributes. -/
def attributesName : Text := "ATTRS".toList

/-- The name of the marker of the wrapped text. -/
def selectionName : Text := "SELECTION".toList

/-- Whether markers of a name keep it when fragments are joined. -/
def isReserved (name : Text) : Bool :=
  name = endName || name = attributesName

/-- The marker `distance` characters further on. -/
def shift (distance : Int) (m : Marker) : Marker :=
  { m with offset := m.offset + distance }

end Marker

/-- A text with markers. -/
structure Fragment where
  text : Text
  markers : List Marker
  deriving DecidableEq, Repr

namespace Fragment

/-- The fragment without text and markers. -/
def empty : Fragment :=
  ⟨[], []⟩

/-- A text without markers. -/
def plain (text : Text) : Fragment :=
  ⟨text, []⟩

/-- The names of the markers, each once, in the order in which they first appear. -/
def names (f : Fragment) : List Text :=
  (f.markers.map Marker.name).eraseDups

/-- The offset of the first marker with a name. -/
def offset? (f : Fragment) (name : Text) : Option Int :=
  (f.markers.find? fun m => m.name = name).map Marker.offset

/-- The place of a name in the fragment: the offset of its first marker, unless it is negative. -/
def place? (f : Fragment) (name : Text) : Option Nat :=
  (f.offset? name).bind Int.toNat?

/-- Whether a name has a place in the fragment. -/
def has (f : Fragment) (name : Text) : Bool :=
  (f.place? name).isSome

/-- The fragment without the markers of a name. -/
def without (f : Fragment) (name : Text) : Fragment :=
  ⟨f.text, f.markers.filter fun m => m.name ≠ name⟩

/-- The fragment with one more marker, after those at the same offset. -/
def withMarker (f : Fragment) (name : Text) (offset : Int) : Fragment :=
  ⟨f.text,
    f.markers.filter (fun m => m.offset ≤ offset) ++
      ⟨name, offset⟩ :: f.markers.filter (fun m => offset < m.offset)⟩

/-- The fragment between two texts. -/
def surround (before after : Text) (f : Fragment) : Fragment :=
  ⟨before ++ f.text ++ after, f.markers.map (Marker.shift before.length)⟩

/-- The offsets of the markers in ascending order, each once. -/
def cuts (f : Fragment) : List Int :=
  ((f.markers.map Marker.offset).mergeSort fun a b => a ≤ b).eraseReps

/-- Changes the pieces of a text from offset `start` on, cut at the given offsets. The result is the
new text and the offset that each cut has in it, counted from `written`. -/
def mapPieces (change : Text → Text) (t : Text) (start : Int) (written : Nat) :
    List Int → Text × List (Int × Int)
  | [] => (change (Text.onFrom start t), [])
  | cut :: more =>
    let piece := change (Text.slice start cut t)
    let written := written + piece.length
    let (rest, places) := mapPieces change t cut written more
    (piece ++ rest, (cut, (written : Int)) :: places)

/-- Changes the text between the markers, piece by piece; each marker stays between its pieces. -/
def mapText (change : Text → Text) (f : Fragment) : Fragment :=
  let (text, places) := mapPieces change f.text 0 0 f.cuts
  ⟨text, f.markers.map fun m => { m with offset := (places.lookup m.offset).getD m.offset }⟩

/-- The fragment cut off after `length` characters; markers behind the cut move to it. -/
def truncate (length : Nat) (f : Fragment) : Fragment :=
  ⟨f.text.take length, f.markers.map fun m => { m with offset := min m.offset length }⟩

/-- The fragment with `pad` before every line but the first, and before the first one if `firstLine`
holds. A last line without characters gets no pad. -/
def indent (pad : Text) (firstLine : Bool) (f : Fragment) : Fragment :=
  if pad = [] then f
  else
    let padded := f.mapText (Text.replaceChar '\n' ('\n' :: pad))
    let trimmed :=
      if ('\n' :: pad).isSuffixOf padded.text then
        padded.truncate (padded.text.length - pad.length)
      else padded
    if firstLine then trimmed.surround pad [] else trimmed

end Fragment

/-- A fragment that is ready for the host. The caret goes to the marker `END`; `endOffset` is the
place where the first part of the template had it, and a negative one is no place. -/
structure Template extends Fragment where
  endOffset : Option Int
  deriving DecidableEq, Repr

end Abbrev
