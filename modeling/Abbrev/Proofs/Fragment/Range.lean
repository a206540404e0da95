import Abbrev.Fragment.Source
import Abbrev.Fragment.Splice
import Abbrev.Fragment.StartTag
import Abbrev.Proofs.Text.Distinct

/-!
# Markers stay within the text

A fragment is in range if each of its markers stands at an offset of its text. What is read from a
source is in range, and each operation on fragments keeps markers in range: it moves them along with
the text that they stand in. A place in such a fragment is therefore a place where something can be
put in (`InRange.place?_le`).
-/

namespace Abbrev.Fragment

/-- Every marker stands between two characters of the text, or at one of its ends. -/
def InRange (f : Fragment) : Prop :=
  ∀ m ∈ f.markers, 0 ≤ m.offset ∧ m.offset ≤ f.text.length

variable {f host piece : Fragment} {name : Text}

/-- Without markers, none is out of range. -/
theorem inRange_plain (t : Text) : InRange (plain t) := by
  rintro m ⟨⟩

/-- The empty fragment has no markers. -/
theorem inRange_empty : InRange empty := inRange_plain []

/-! ## Sources -/

/-- The markers of what is read from a source stand in what is read, counted from the start. -/
theorem offset_ofSourceFrom (offset : Nat) (t : Text) :
    ∀ m ∈ (ofSourceFrom offset t).markers,
      (offset : Int) ≤ m.offset ∧ m.offset ≤ offset + (ofSourceFrom offset t).text.length := by
  fun_induction ofSourceFrom offset t with
  | case1 => rintro m ⟨⟩
  | case2 offset rest name after h ih =>
    intro m hm
    rcases List.mem_cons.1 hm with rfl | hm
    · exact ⟨Int.le_refl _, Int.le_add_of_nonneg_right (Int.natCast_nonneg _)⟩
    · exact ih m hm
  | case3 offset rest _ ih =>
    intro m hm
    have h := ih m hm
    simp only [cons, List.length_cons] at h ⊢
    omega
  | case4 offset c rest _ ih =>
    intro m hm
    have h := ih m hm
    simp only [cons, List.length_cons] at h ⊢
    omega

/-- What is read from a source is in range. -/
theorem inRange_ofSource (source : Text) : InRange (ofSource source) := by
  intro m hm
  have h := offset_ofSourceFrom 0 source m hm
  simpa [ofSource] using h

/-! ## Places -/

/-- The place of a name is the offset of one of its markers. -/
theorem exists_mem_of_place? {n : Nat} (h : f.place? name = some n) :
    ∃ m ∈ f.markers, m.name = name ∧ m.offset = n := by
  unfold place? offset? at h
  obtain ⟨offset, hoffset, hn⟩ := Option.bind_eq_some_iff.1 h
  obtain ⟨m, hm, rfl⟩ := Option.map_eq_some_iff.1 hoffset
  refine ⟨m, List.mem_of_find?_eq_some hm, ?_, ?_⟩
  · simpa using List.find?_some hm
  · exact Int.mem_toNat?.1 hn

/-- A place in a fragment lies in its text. -/
theorem InRange.place?_le (h : InRange f) {n : Nat} (hn : f.place? name = some n) :
    n ≤ f.text.length := by
  obtain ⟨m, hm, -, hoffset⟩ := exists_mem_of_place? hn
  have := (h m hm).2
  omega

/-- If no offset is negative, the names with a place are those of the markers. -/
theorem has_iff_of_nonneg (h : ∀ m ∈ f.markers, 0 ≤ m.offset) :
    f.has name = true ↔ ∃ m ∈ f.markers, m.name = name := by
  constructor
  · intro hhas
    obtain ⟨n, hn⟩ := Option.isSome_iff_exists.1 hhas
    obtain ⟨m, hm, hname, -⟩ := exists_mem_of_place? hn
    exact ⟨m, hm, hname⟩
  · rintro ⟨m, hm, hname⟩
    have hfound : (f.markers.find? fun m => m.name = name).isSome = true := by
      rw [List.find?_isSome]
      exact ⟨m, hm, decide_eq_true hname⟩
    obtain ⟨first, hfirst⟩ := Option.isSome_iff_exists.1 hfound
    obtain ⟨n, hn⟩ := Int.eq_ofNat_of_zero_le (h first (List.mem_of_find?_eq_some hfirst))
    rw [has, place?, offset?, hfirst, Option.map_some, Option.bind_some, Int.mem_toNat?.2 hn,
      Option.isSome_some]

/-- In a fragment in range, the names with a place are those of its markers. -/
theorem InRange.has_iff (h : InRange f) : f.has name = true ↔ ∃ m ∈ f.markers, m.name = name :=
  has_iff_of_nonneg fun m hm => (h m hm).1

/-! ## Operations on one fragment -/

/-- Taking markers away leaves a fragment in range. -/
theorem InRange.without (h : InRange f) (name : Text) : InRange (f.without name) := by
  intro m hm
  exact h m (List.mem_filter.1 hm).1

/-- A further marker has to be put in range. -/
theorem InRange.withMarker (h : InRange f) (name : Text) {offset : Nat}
    (hoffset : offset ≤ f.text.length) : InRange (f.withMarker name offset) := by
  intro m hm
  rcases List.mem_append.1 hm with hm | hm
  · exact h m (List.mem_filter.1 hm).1
  · rcases List.mem_cons.1 hm with rfl | hm
    · exact ⟨Int.natCast_nonneg _, Int.ofNat_le.2 hoffset⟩
    · exact h m (List.mem_filter.1 hm).1

/-- Between two texts, markers move with the text that they stand in. -/
theorem InRange.surround (h : InRange f) (before after : Text) :
    InRange (f.surround before after) := by
  intro m hm
  obtain ⟨n, hn, rfl⟩ := List.mem_map.1 hm
  have hrange := h n hn
  simp only [Fragment.surround, Marker.shift, List.length_append]
  omega

/-- Cutting a fragment off moves the markers behind the cut to it. -/
theorem InRange.truncate (h : InRange f) {length : Nat} (hlength : length ≤ f.text.length) :
    InRange (f.truncate length) := by
  intro m hm
  obtain ⟨n, hn, rfl⟩ := List.mem_map.1 hm
  have hrange := h n hn
  simp only [Fragment.truncate, List.length_take]
  omega

/-- A cut behind the text changes nothing. -/
theorem InRange.truncate_of_le (h : InRange f) {length : Nat} (hlength : f.text.length ≤ length) :
    f.truncate length = f := by
  unfold Fragment.truncate
  rw [List.take_of_length_le hlength, List.map_congr_left (g := id), List.map_id]
  intro m hm
  have hle := (h m hm).2
  rw [Int.min_eq_left (by omega)]
  rfl

/-- Between two empty texts, a fragment stays as it is. -/
theorem surround_nil (f : Fragment) : f.surround [] [] = f := by
  unfold Fragment.surround
  rw [List.nil_append, List.append_nil, List.map_congr_left (g := id), List.map_id]
  intro m _
  simp [Marker.shift]

/-- The cuts of a text are found again, at places of what is written, counted from what was written
before. -/
theorem places_mapPieces (change : Text → Text) (t : Text) (start : Int) (written : Nat)
    (cuts : List Int) :
    (mapPieces change t start written cuts).2.map Prod.fst = cuts ∧
      ∀ place ∈ (mapPieces change t start written cuts).2, (written : Int) ≤ place.2 ∧
        place.2 ≤ written + (mapPieces change t start written cuts).1.length := by
  induction cuts generalizing start written with
  | nil => exact ⟨rfl, by rintro place ⟨⟩⟩
  | cons cut more ih =>
    obtain ⟨hcuts, hplaces⟩ := ih cut (written + (change (Text.slice start cut t)).length)
    rw [mapPieces]
    dsimp only
    refine ⟨by rw [List.map_cons, hcuts], ?_⟩
    intro place hplace
    rw [List.length_append]
    rcases List.mem_cons.1 hplace with rfl | hplace
    · omega
    · have := hplaces place hplace
      omega

/-- Changing the text between the markers leaves each marker at a place of the new text. -/
theorem inRange_mapText (change : Text → Text) (f : Fragment) : InRange (f.mapText change) := by
  obtain ⟨hcuts, hplaces⟩ := places_mapPieces change f.text 0 0 f.cuts
  intro m hm
  obtain ⟨n, hn, rfl⟩ := List.mem_map.1 hm
  -- The text is cut at every marker, so the new place of this one can be looked up.
  have hcut : n.offset ∈ f.cuts := by
    rw [cuts, Text.mem_eraseReps, List.mem_mergeSort]
    exact List.mem_map_of_mem hn
  rw [← hcuts] at hcut
  obtain ⟨place, hplace, hfst⟩ := List.mem_map.1 hcut
  obtain ⟨offset, hlookup⟩ : ∃ offset, List.lookup n.offset
      (mapPieces change f.text 0 0 f.cuts).2 = some offset := by
    rw [← Option.isSome_iff_exists, List.lookup_isSome_iff]
    exact ⟨place, hplace, by simp [hfst]⟩
  obtain ⟨before, after, hmem, -⟩ := List.lookup_eq_some_iff.1 hlookup
  have hrange := hplaces (n.offset, offset) (by rw [hmem]; simp)
  simp only [mapText, hlookup, Option.getD_some]
  omega

/-- Indenting keeps a fragment in range. -/
theorem InRange.indent (h : InRange f) (pad : Text) (firstLine : Bool) :
    InRange (f.indent pad firstLine) := by
  have hpadded := inRange_mapText (Text.replaceChar '\n' ('\n' :: pad)) f
  unfold Fragment.indent
  split
  · exact h
  · dsimp only
    split <;> split
    · exact (hpadded.truncate (Nat.sub_le _ _)).surround pad []
    · exact hpadded.surround pad []
    · exact hpadded.truncate (Nat.sub_le _ _)
    · exact hpadded

/-! ## Joining -/

/-- The markers that stay when a piece is put in stand in the host, in the same order. -/
theorem remaining_sublist (host piece : Fragment) :
    (host.remaining piece).Sublist host.markers := by
  unfold remaining
  split
  · exact List.filter_sublist
  · exact List.Sublist.refl _

/-- A piece that is put into a fragment moves the markers behind it, and takes its own along. -/
theorem InRange.splice (hhost : InRange host) (hpiece : InRange piece) {offset : Nat}
    (hoffset : offset ≤ host.text.length) (moves : Marker → Bool) :
    InRange (host.splice offset piece moves) := by
  have hkept : ∀ m ∈ host.remaining piece, 0 ≤ m.offset ∧ m.offset ≤ host.text.length := by
    intro m hm
    exact hhost m ((remaining_sublist host piece).subset hm)
  have hlength : (host.splice offset piece moves).text.length =
      host.text.length + piece.text.length := by
    simp only [Fragment.splice, List.length_append, List.length_take, List.length_drop]
    omega
  -- Markers of the host before the piece, markers of the piece, markers of the host behind it.
  intro m hm
  rw [hlength]
  rcases List.mem_append.1 hm with hm | hm
  · rcases List.mem_append.1 hm with hm | hm
    · have := hkept m (List.mem_filter.1 hm).1
      omega
    · obtain ⟨n, hn, rfl⟩ := List.mem_map.1 hm
      have := hpiece n hn
      simp only [Marker.shift, rename]
      omega
  · obtain ⟨n, hn, rfl⟩ := List.mem_map.1 hm
    have := hkept n (List.mem_filter.1 hn).1
    simp only [Marker.shift]
    omega

/-- Putting a fragment in range into another one, at a place of its text. -/
theorem InRange.insert (hhost : InRange host) (hpiece : InRange piece) {offset : Nat}
    (hoffset : offset ≤ host.text.length) : InRange (host.insert offset piece) :=
  hhost.splice hpiece hoffset _

/-- The text of a fragment with another one at its end. -/
theorem text_append (host piece : Fragment) :
    (host.append piece).text = host.text ++ piece.text := by
  simp [append, splice]

/-- Putting a fragment in range behind another one. -/
theorem InRange.append (hhost : InRange host) (hpiece : InRange piece) :
    InRange (host.append piece) :=
  hhost.splice hpiece (Nat.le_refl _) _

/-- Nothing is put behind a fragment. -/
theorem InRange.append_empty (h : InRange f) : f.append empty = f := by
  have hbefore : ∀ m ∈ f.markers, decide ((f.text.length : Int) < m.offset) = false := by
    intro m hm
    have := (h m hm).2
    simp only [decide_eq_false_iff_not]
    omega
  have hkept : f.remaining empty = f.markers := rfl
  have hstay : (f.markers.filter fun m => !decide ((f.text.length : Int) < m.offset)) = f.markers :=
    List.filter_eq_self.2 fun m hm => by rw [hbefore m hm]; rfl
  have hmove : (f.markers.filter fun m => (f.text.length : Int) < m.offset) = [] :=
    List.filter_eq_nil_iff.2 fun m hm => by rw [hbefore m hm]; exact Bool.false_ne_true
  unfold Fragment.append Fragment.splice
  rw [hkept]
  dsimp only
  rw [hstay, hmove]
  simp [empty]

/-! ## The caret of joined fragments -/

/-- No reserved name gets a number. -/
theorem lookup_renamesFrom_of_isReserved (used taken names : List Text)
    (h : Marker.isReserved name = true) : (renamesFrom used taken names).lookup name = none := by
  rw [List.lookup_eq_none_iff]
  fun_induction renamesFrom used taken names with
  | case1 => rintro pair ⟨⟩
  | case2 _ _ _ _ ih => exact ih
  | case3 taken other more hfree fresh ih =>
    intro pair hpair
    rcases List.mem_cons.1 hpair with rfl | hpair
    · rw [bne_iff_ne]
      rintro rfl
      simp [h] at hfree
    · exact ih pair hpair

/-- A fragment that has a caret still has one when a fragment is put into it, and so has one into
which a fragment with a caret is put. -/
theorem exists_end_splice {offset : Nat} {moves : Marker → Bool}
    (h : (∃ m ∈ host.markers, m.name = Marker.endName) ∨ piece.has Marker.endName = true) :
    ∃ m ∈ (host.splice offset piece moves).markers, m.name = Marker.endName := by
  unfold Fragment.splice
  simp only [List.mem_append, List.mem_map, List.mem_filter]
  by_cases hpiece : piece.has Marker.endName = true
  · obtain ⟨n, hn⟩ := Option.isSome_iff_exists.1 hpiece
    obtain ⟨m, hm, hname, -⟩ := exists_mem_of_place? hn
    refine ⟨_, .inl (.inr ⟨m, hm, rfl⟩), ?_⟩
    -- A reserved name is not made fresh, whatever names the host has.
    have hlookup := lookup_renamesFrom_of_isReserved host.names (host.names ++ piece.names)
      piece.names (show Marker.isReserved Marker.endName = true by decide)
    simp only [Marker.shift, rename, hname, renames, hlookup, Option.getD_none]
  · -- The host gives up its caret only to a piece that has one.
    obtain ⟨m, hm, hname⟩ := h.resolve_right hpiece
    have hkept : m ∈ host.remaining piece := by
      rw [remaining, if_neg hpiece]
      exact hm
    cases hmoves : moves m with
    | true => exact ⟨_, .inr ⟨m, ⟨hkept, hmoves⟩, rfl⟩, hname⟩
    | false => exact ⟨m, .inl (.inl ⟨hkept, by simp [hmoves]⟩), hname⟩

end Abbrev.Fragment

namespace Abbrev.StartTag

/-! ## Start tags -/

/-- What is left of the inside of a tag is no longer than it. -/
theorem length_withoutEnd (inside : Text) : (withoutEnd inside).length ≤ inside.length := by
  unfold withoutEnd
  have htrim (t : Text) : (Text.trimLeft t).length ≤ t.length :=
    (List.dropWhile_sublist Text.isBlank).length_le
  split
  · next rest hrest =>
    have hlength := congrArg List.length hrest
    have := htrim rest
    simp only [List.length_reverse, List.length_cons] at hlength ⊢
    omega
  · next reversed _ =>
    have := htrim inside.reverse
    simpa using this

/-- Attributes are added within the text in which a start tag was found. -/
theorem insertion_le_of_findFrom? {offset : Nat} {t : Text} {tag : StartTag}
    (h : findFrom? offset t = some tag) : tag.insertion ≤ offset + t.length := by
  fun_induction findFrom? offset t with
  | case1 offset c rest _ _ _ inside =>
    obtain rfl := Option.some.inj h
    have hend := length_withoutEnd inside
    have hinside : inside.length ≤ rest.length := (List.takeWhile_sublist isInside).length_le
    simp only [List.length_cons]
    omega
  | case2 offset c rest _ ih =>
    have := ih h
    simp only [List.length_cons] at this ⊢
    omega
  | case3 offset c rest _ ih =>
    have := ih h
    simp only [List.length_cons] at this ⊢
    omega
  | case4 => cases h

end Abbrev.StartTag
