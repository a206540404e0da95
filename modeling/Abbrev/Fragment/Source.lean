import Abbrev.Fragment

/-!
# Snippet sources

A fragment is written as a source in which `$NAME$` stands for a marker and `$$` for a dollar. Names
consist of ASCII letters, digits and underscores and start with no digit. Every text is a source: a
dollar that begins neither form stands for itself.
-/

namespace Abbrev.Fragment

/-- Whether `c` may start the name of a marker. -/
def isNameStart (c : Char) : Bool :=
  c.isAlpha || c == '_'

/-- Whether `c` may stand in the name of a marker. -/
def isNamePart (c : Char) : Bool :=
  c.isAlphanum || c == '_'

/-- Whether a text can be the name of a marker. -/
def isName (name : Text) : Bool :=
  match name with
  | [] => false
  | c :: _ => isNameStart c && name.all isNamePart

/-- The name of a marker and what follows its closing dollar, in a text that stands after a
dollar. -/
def markerName? (t : Text) : Option (Text × Text) :=
  let name := t.takeWhile isNamePart
  match t.dropWhile isNamePart with
  | '$' :: rest => if isName name then some (name, rest) else none
  | _ => none

/-- What follows a marker is shorter than what the marker was read from. -/
theorem length_markerName? {t name rest : Text} (h : markerName? t = some (name, rest)) :
    rest.length < t.length := by
  unfold markerName? at h
  dsimp only at h
  split at h
  · next after hdrop =>
    split at h
    · have hle : (t.dropWhile isNamePart).length ≤ t.length :=
        (List.dropWhile_sublist isNamePart).length_le
      simp only [Option.some.injEq, Prod.mk.injEq] at h
      rw [hdrop, List.length_cons, h.2] at hle
      omega
    · simp at h
  · simp at h

/-- What follows a dollar that begins no marker: a second dollar belongs to the first one. -/
def afterDollar : Text → Text
  | '$' :: rest => rest
  | rest => rest

/-- What follows a dollar is no longer with a second dollar taken away. -/
theorem length_afterDollar (t : Text) : (afterDollar t).length ≤ t.length := by
  unfold afterDollar
  split
  · exact Nat.le_succ _
  · exact Nat.le_refl _

/-- The fragment with a character before its text. -/
def cons (c : Char) (f : Fragment) : Fragment :=
  ⟨c :: f.text, f.markers⟩

/-- The fragment with a marker before all others. -/
def consMarker (m : Marker) (f : Fragment) : Fragment :=
  ⟨f.text, m :: f.markers⟩

/-- The fragment that a source stands for, with offsets counted from `offset`. -/
def ofSourceFrom (offset : Nat) (t : Text) : Fragment :=
  match t with
  | [] => empty
  | c :: rest =>
    if c = '$' then
      match h : markerName? rest with
      | some (name, after) => consMarker ⟨name, offset⟩ (ofSourceFrom offset after)
      | none => cons '$' (ofSourceFrom (offset + 1) (afterDollar rest))
    else cons c (ofSourceFrom (offset + 1) rest)
termination_by t.length
decreasing_by
  · exact Nat.lt_succ_of_lt (length_markerName? h)
  · exact Nat.lt_succ_of_le (length_afterDollar rest)
  · exact Nat.lt_succ_self _

/-- The fragment that a source stands for. -/
def ofSource (source : Text) : Fragment :=
  ofSourceFrom 0 source

/-- A text as it is written in a source. -/
def escapeDollars (t : Text) : Text :=
  Text.replaceChar '$' ['$', '$'] t

/-- A marker as it is written in a source. -/
def markerSource (name : Text) : Text :=
  '$' :: name ++ ['$']

/-- The source of a text from offset `start` on, with markers. -/
def sourceFrom (t : Text) (start : Int) : List Marker → Text
  | [] => escapeDollars (Text.onFrom start t)
  | m :: more =>
    escapeDollars (Text.slice start m.offset t) ++ markerSource m.name ++ sourceFrom t m.offset more

/-- The source of a fragment. -/
def toSource (f : Fragment) : Text :=
  sourceFrom f.text 0 f.markers

end Abbrev.Fragment
