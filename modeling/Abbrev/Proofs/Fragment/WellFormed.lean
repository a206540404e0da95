import Abbrev.Proofs.Fragment.Reading
import Abbrev.Proofs.Fragment.Renaming
import Abbrev.Proofs.Fragment.Rewriting

/-!
# Well-formed fragments

A fragment is well formed if its markers stand in the order of their offsets, within the text, and
have names of a certain kind (`WellFormed`). The kind is a parameter, as a fragment on its way to a
template still has markers that the template has not; all that is asked of it is that a number may
be put after a name (`Numberable`), since that is how markers are renamed.

What is read from a source is well formed, and each operation on fragments keeps them so. The number
of markers `END` is followed along, for it depends on names alone (`endCount_congr`).
-/

namespace Abbrev.Fragment

/-- A kind of names to which a name still belongs when a number is put after it. -/
def Numberable (p : Text → Prop) : Prop :=
  ∀ name, p name → ∀ n, p (numbered name n)

/-- The markers are in order and in range, and their names are of a kind. -/
structure WellFormed (p : Text → Prop) (f : Fragment) : Prop where
  /-- Each marker stands in the text. -/
  inRange : InRange f
  /-- No marker stands behind a later one. -/
  sorted : f.markers.Pairwise fun m n => m.offset ≤ n.offset
  /-- Each name is of the kind. -/
  names : ∀ m ∈ f.markers, p m.name

variable {p q : Text → Prop} {f host piece : Fragment} {name : Text}

/-! ## Names -/

/-- The names that a marker can be read under. -/
theorem numberable_isName : Numberable fun name => isName name = true := by
  intro name hname n
  cases name with
  | nil => cases hname
  | cons c rest =>
    simp only [isName, Bool.and_eq_true, List.all_eq_true] at hname
    obtain ⟨hstart, hparts⟩ := hname
    simp only [numbered, List.cons_append, isName, Bool.and_eq_true, List.all_eq_true]
    refine ⟨hstart, ?_⟩
    intro d hd
    rw [← List.cons_append] at hd
    rcases List.mem_append.1 hd with hd | hd
    · exact hparts d hd
    · have hdigit : d.isDigit = true := Nat.isDigit_of_mem_toDigits (by decide) (by decide) hd
      simp [isNamePart, Char.isAlphanum, hdigit]

/-- A name that ends in no digit may be left out. -/
theorem Numberable.and_ne (h : Numberable p) (before : Text) {c : Char}
    (hc : Char.isDigit c = false) : Numberable fun name => p name ∧ name ≠ before ++ [c] := by
  intro name hname n
  exact ⟨h name hname.1 n, numbered_ne before hc name n⟩

/-- A name that a piece gets in a host is of the kind of its names. -/
theorem Numberable.newName (h : Numberable p) (hname : p name) (host piece : Fragment) :
    p (host.newName piece name) := by
  obtain ⟨-, hkept⟩ | ⟨n, -, hnumbered⟩ := newName_cases host piece name
  · rw [hkept]
    exact hname
  · rw [hnumbered]
    exact h name hname n

/-- A wider kind will do. -/
theorem WellFormed.mono (h : WellFormed p f) (hpq : ∀ name, p name → q name) : WellFormed q f :=
  ⟨h.inRange, h.sorted, fun m hm => hpq m.name (h.names m hm)⟩

/-! ## Fragments that are made -/

/-- Without markers, none is out of order. -/
theorem wellFormed_plain (p : Text → Prop) (t : Text) : WellFormed p (plain t) :=
  ⟨inRange_plain t, List.Pairwise.nil, by rintro m ⟨⟩⟩

/-- The empty fragment has no markers. -/
theorem wellFormed_empty (p : Text → Prop) : WellFormed p empty := wellFormed_plain p []

/-- One marker is in order. -/
theorem wellFormed_singleton {t : Text} {offset : Nat} (hoffset : offset ≤ t.length)
    (hname : p name) : WellFormed p ⟨t, [⟨name, offset⟩]⟩ := by
  refine ⟨?_, List.pairwise_singleton _ _, ?_⟩
  · intro m hm
    obtain rfl := List.mem_singleton.1 hm
    exact ⟨Int.natCast_nonneg _, Int.ofNat_le.2 hoffset⟩
  · intro m hm
    obtain rfl := List.mem_singleton.1 hm
    exact hname

/-- Markers are read from a source from the left. -/
theorem sorted_ofSourceFrom (offset : Nat) (t : Text) :
    (ofSourceFrom offset t).markers.Pairwise fun m n => m.offset ≤ n.offset := by
  fun_induction ofSourceFrom offset t with
  | case1 => exact List.Pairwise.nil
  | case2 offset rest name after h ih =>
    refine List.pairwise_cons.2 ⟨?_, ih⟩
    intro m hm
    exact (offset_ofSourceFrom offset after m hm).1
  | case3 offset rest _ ih => exact ih
  | case4 offset c rest _ ih => exact ih

/-- A marker is read only under a name that a marker can have. -/
theorem isName_ofSourceFrom (offset : Nat) (t : Text) :
    ∀ m ∈ (ofSourceFrom offset t).markers, isName m.name = true := by
  fun_induction ofSourceFrom offset t with
  | case1 => rintro m ⟨⟩
  | case2 offset rest name after h ih =>
    intro m hm
    rcases List.mem_cons.1 hm with rfl | hm
    · exact (markerName?_eq_some_iff.1 h).1
    · exact ih m hm
  | case3 offset rest _ ih => exact ih
  | case4 offset c rest _ ih => exact ih

/-- What is read from a source is well formed. -/
theorem wellFormed_ofSource (source : Text) :
    WellFormed (fun name => isName name = true) (ofSource source) :=
  ⟨inRange_ofSource source, sorted_ofSourceFrom 0 source, isName_ofSourceFrom 0 source⟩

/-! ## Operations on one fragment -/

/-- Without the markers of a name, there is none of that name. -/
theorem WellFormed.without (h : WellFormed p f) (name : Text) :
    WellFormed (fun other => p other ∧ other ≠ name) (f.without name) := by
  refine ⟨h.inRange.without name, h.sorted.filter _, ?_⟩
  intro m hm
  obtain ⟨hmem, hne⟩ := List.mem_filter.1 hm
  exact ⟨h.names m hmem, of_decide_eq_true hne⟩

/-- A further marker is put in its place. -/
theorem WellFormed.withMarker (h : WellFormed p f) (hname : p name) {offset : Nat}
    (hoffset : offset ≤ f.text.length) : WellFormed p (f.withMarker name offset) := by
  refine ⟨h.inRange.withMarker name hoffset, ?_, ?_⟩
  · refine List.pairwise_append.2 ⟨h.sorted.filter _,
      List.pairwise_cons.2 ⟨?_, h.sorted.filter _⟩, ?_⟩
    · intro m hm
      exact Int.le_of_lt (of_decide_eq_true (List.mem_filter.1 hm).2)
    · intro m hm n hn
      have hbefore := of_decide_eq_true (List.mem_filter.1 hm).2
      rcases List.mem_cons.1 hn with rfl | hn
      · exact hbefore
      · have hbehind := of_decide_eq_true (List.mem_filter.1 hn).2
        omega
  · intro m hm
    rcases List.mem_append.1 hm with hm | hm
    · exact h.names m (List.mem_filter.1 hm).1
    · rcases List.mem_cons.1 hm with rfl | hm
      · exact hname
      · exact h.names m (List.mem_filter.1 hm).1

/-- Between two texts, markers keep their order. -/
theorem WellFormed.surround (h : WellFormed p f) (before after : Text) :
    WellFormed p (f.surround before after) := by
  refine ⟨h.inRange.surround before after, ?_, ?_⟩
  · refine List.pairwise_map.2 (h.sorted.imp ?_)
    intro m n hle
    exact Int.add_le_add_right hle _
  · intro m hm
    obtain ⟨n, hn, rfl⟩ := List.mem_map.1 hm
    exact h.names n hn

/-- A rewriting keeps the order of markers. -/
theorem WellFormed.rewritten (h : WellFormed p f) (change : Char → Text) :
    WellFormed p (f.rewritten change) := by
  refine ⟨h.inRange.rewritten change, ?_, ?_⟩
  · refine List.pairwise_map.2 (h.sorted.imp_of_mem ?_)
    intro m n hm hn hle
    obtain ⟨i, hi, -⟩ := h.inRange.exists_offset hm
    obtain ⟨j, hj, -⟩ := h.inRange.exists_offset hn
    rw [hi, hj] at hle
    rw [Marker.moved, Marker.moved, hi, hj]
    exact Int.ofNat_le.2 (Text.moved_le_moved change f.text (Int.ofNat_le.1 hle))
  · intro m hm
    obtain ⟨n, hn, rfl⟩ := List.mem_map.1 hm
    exact h.names n hn

/-- Cutting a fragment off keeps the order of markers. -/
theorem WellFormed.truncate (h : WellFormed p f) {length : Nat} (hlength : length ≤ f.text.length) :
    WellFormed p (f.truncate length) := by
  refine ⟨h.inRange.truncate hlength, ?_, ?_⟩
  · refine List.pairwise_map.2 (h.sorted.imp ?_)
    intro m n hle
    dsimp only
    omega
  · intro m hm
    obtain ⟨n, hn, rfl⟩ := List.mem_map.1 hm
    exact h.names n hn

/-- Indenting keeps a fragment well formed. -/
theorem WellFormed.indent (h : WellFormed p f) (pad : Text) (firstLine : Bool) :
    WellFormed p (f.indent pad firstLine) := by
  have hpadded : WellFormed p (f.mapText (Text.replaceChar '\n' ('\n' :: pad))) := by
    unfold Text.replaceChar
    rw [mapText_flatMap h.inRange]
    exact h.rewritten _
  unfold Fragment.indent
  split
  · exact h
  · dsimp only
    split <;> split
    · exact (hpadded.truncate (Nat.sub_le _ _)).surround pad []
    · exact hpadded.surround pad []
    · exact hpadded.truncate (Nat.sub_le _ _)
    · exact hpadded

/-! ## Joining -/

/-- A piece that is put into a host keeps markers in order, if those that move stand behind the
offset, and the others before it. -/
theorem WellFormed.sorted_splice (hhost : WellFormed p host) (hpiece : WellFormed p piece)
    {offset : Nat} {moves : Marker → Bool}
    (hbefore : ∀ m ∈ host.markers, moves m = false → m.offset ≤ offset)
    (hbehind : ∀ m ∈ host.markers, moves m = true → offset ≤ m.offset) :
    (host.splice offset piece moves).markers.Pairwise fun m n => m.offset ≤ n.offset := by
  have hkept : ∀ m ∈ host.remaining piece, m ∈ host.markers :=
    fun m hm => (remaining_sublist host piece).subset hm
  have hsorted := hhost.sorted.sublist (remaining_sublist host piece)
  unfold Fragment.splice
  dsimp only
  rw [List.pairwise_append, List.pairwise_append]
  refine ⟨⟨hsorted.filter _, ?_, ?_⟩, ?_, ?_⟩
  · -- Markers of the piece move together.
    refine List.pairwise_map.2 (hpiece.sorted.imp ?_)
    intro m n hle
    exact Int.add_le_add_right hle _
  · -- Markers before the piece, and markers of the piece.
    intro m hm n hn
    obtain ⟨hmem, hstays⟩ := List.mem_filter.1 hm
    obtain ⟨old, hold, rfl⟩ := List.mem_map.1 hn
    have hm := hbefore m (hkept m hmem) (by simpa using hstays)
    have hn := (hpiece.inRange old hold).1
    simp only [Marker.shift, offset_rename]
    omega
  · -- Markers behind the piece move together.
    refine List.pairwise_map.2 ((hsorted.filter _).imp ?_)
    intro m n hle
    exact Int.add_le_add_right hle _
  · -- Markers behind the piece stand behind all others.
    intro m hm n hn
    obtain ⟨old, hold, rfl⟩ := List.mem_map.1 hn
    obtain ⟨hmem, hmoves⟩ := List.mem_filter.1 hold
    have hn := hbehind old (hkept old hmem) hmoves
    simp only [Marker.shift]
    rcases List.mem_append.1 hm with hm | hm
    · obtain ⟨hmem, hstays⟩ := List.mem_filter.1 hm
      have hm := hbefore m (hkept m hmem) (by simpa using hstays)
      omega
    · obtain ⟨inner, hinner, rfl⟩ := List.mem_map.1 hm
      have hm := (hpiece.inRange inner hinner).2
      simp only [Marker.shift, offset_rename]
      omega

/-- A piece that is put into a host leaves it well formed, if the markers that move stand behind the
offset, and the others before it. -/
theorem WellFormed.splice (hhost : WellFormed p host) (hpiece : WellFormed p piece)
    (hp : Numberable p) {offset : Nat} (hoffset : offset ≤ host.text.length)
    {moves : Marker → Bool}
    (hbefore : ∀ m ∈ host.markers, moves m = false → m.offset ≤ offset)
    (hbehind : ∀ m ∈ host.markers, moves m = true → offset ≤ m.offset) :
    WellFormed p (host.splice offset piece moves) := by
  have hkept : ∀ m ∈ host.remaining piece, p m.name :=
    fun m hm => hhost.names m ((remaining_sublist host piece).subset hm)
  refine ⟨hhost.inRange.splice hpiece.inRange hoffset moves,
    hhost.sorted_splice hpiece hbefore hbehind, ?_⟩
  intro m hm
  rcases List.mem_append.1 hm with hm | hm
  · rcases List.mem_append.1 hm with hm | hm
    · exact hkept m (List.mem_filter.1 hm).1
    · obtain ⟨n, hn, rfl⟩ := List.mem_map.1 hm
      exact hp.newName (hpiece.names n hn) host piece
  · obtain ⟨n, hn, rfl⟩ := List.mem_map.1 hm
    exact hkept n (List.mem_filter.1 hn).1

/-- Putting a well-formed fragment into another one, at an offset of its text. -/
theorem WellFormed.insert (hhost : WellFormed p host) (hpiece : WellFormed p piece)
    (hp : Numberable p) {offset : Nat} (hoffset : offset ≤ host.text.length) :
    WellFormed p (host.insert offset piece) := by
  refine hhost.splice hpiece hp hoffset ?_ ?_
  · intro m _ hstays
    have := of_decide_eq_false hstays
    omega
  · intro m _ hmoves
    exact of_decide_eq_true hmoves

/-- Putting a well-formed fragment behind another one. -/
theorem WellFormed.append (hhost : WellFormed p host) (hpiece : WellFormed p piece)
    (hp : Numberable p) : WellFormed p (host.append piece) := by
  refine hhost.splice hpiece hp (Nat.le_refl _) ?_ ?_
  · intro m hm _
    exact (hhost.inRange m hm).2
  · intro m _ hmoves
    exact Int.le_of_lt (of_decide_eq_true hmoves)

/-! ## Carets -/

/-- The number of markers `END` is told by the names. -/
theorem endCount_eq_count (f : Fragment) :
    f.endCount = (f.markers.map Marker.name).count Marker.endName := by
  rw [endCount, List.count, List.countP_map]
  congr 1
  funext m
  rw [Function.comp_apply, Bool.eq_iff_iff, decide_eq_true_iff, beq_iff_eq]

/-- Fragments with the same names have equally many markers `END`. -/
theorem endCount_congr (h : f.markers.map Marker.name = host.markers.map Marker.name) :
    f.endCount = host.endCount := by
  rw [endCount_eq_count, endCount_eq_count, h]

/-- Taking markers of another name away leaves all markers `END`. -/
theorem endCount_without (f : Fragment) (hname : Marker.endName ≠ name) :
    (f.without name).endCount = f.endCount := by
  rw [endCount, without, List.countP_filter, endCount]
  congr 1
  funext m
  by_cases hm : m.name = Marker.endName
  · simp [hm, hname]
  · simp [hm]

/-- A further marker `END` counts as one. -/
theorem endCount_withMarker (f : Fragment) (offset : Int) :
    (f.withMarker Marker.endName offset).endCount = f.endCount + 1 := by
  have hsplit := List.countP_eq_countP_filter_add f.markers
    (fun m => decide (m.name = Marker.endName)) fun m => decide (m.offset ≤ offset)
  have hbehind : (f.markers.filter fun m => decide (offset < m.offset)) =
      f.markers.filter fun m => !decide (m.offset ≤ offset) := by
    refine List.filter_congr ?_
    intro m _
    rw [Bool.eq_iff_iff]
    simp
  rw [endCount, withMarker, List.countP_append, List.countP_cons, hbehind, endCount, hsplit]
  simp
  omega

/-- Putting a fragment in replaces the caret, if the fragment has one. -/
theorem endCount_insert (hpiece : InRange piece) (host : Fragment) (offset : Nat) :
    (host.insert offset piece).endCount =
      if piece.endCount = 0 then host.endCount else piece.endCount :=
  endCount_splice (fun m hm => (hpiece m hm).1) host offset _

/-- Putting a fragment behind another one replaces the caret, if the fragment has one. -/
theorem endCount_append (hpiece : InRange piece) (host : Fragment) :
    (host.append piece).endCount =
      if piece.endCount = 0 then host.endCount else piece.endCount :=
  endCount_splice (fun m hm => (hpiece m hm).1) host _ _

/-- Surrounding texts bring no markers. -/
@[simp] theorem endCount_surround (before after : Text) (f : Fragment) :
    (f.surround before after).endCount = f.endCount := by
  refine endCount_congr ?_
  rw [surround, List.map_map]
  rfl

/-- Changed texts bring no markers. -/
@[simp] theorem endCount_mapText (change : Text → Text) (f : Fragment) :
    (f.mapText change).endCount = f.endCount := by
  refine endCount_congr ?_
  rw [mapText, List.map_map]
  rfl

/-- Cutting off moves markers, and takes none away. -/
@[simp] theorem endCount_truncate (length : Nat) (f : Fragment) :
    (f.truncate length).endCount = f.endCount := by
  refine endCount_congr ?_
  rw [truncate, List.map_map]
  rfl

/-- Indents bring no markers. -/
@[simp] theorem endCount_indent (pad : Text) (firstLine : Bool) (f : Fragment) :
    (f.indent pad firstLine).endCount = f.endCount := by
  unfold indent
  split
  · rfl
  · dsimp only
    split <;> split <;> simp

end Abbrev.Fragment
