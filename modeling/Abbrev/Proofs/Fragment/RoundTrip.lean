import Abbrev.Proofs.Fragment.WellFormed

/-!
# Sources are read back

The source of a fragment alternates between texts and markers: the text up to a marker with its
dollars doubled, then the marker between two dollars. Doubled dollars and markers are read the same
wherever they stand (`Reads`), so no dollar of one part can pair with a dollar of the next, however
close markers are to each other. If the markers are in order and in range, the texts between them
are the whole text of the fragment, and reading the source gives the fragment back.

What is read from a source is well formed, so the fragments that come back are exactly those that
are well formed (`wellFormed_iff_roundTrip`).
-/

namespace Abbrev.Fragment

/-- The text up to a marker, the marker, and the rest with the later markers make up the text with
all of these markers. Offsets are counted from where each part begins. -/
theorem concat_startMarker {t : Text} {start n : Nat} (hstart : start ≤ n) (hn : n ≤ t.length)
    (name : Text) (more : List Marker) :
    ((plain ((t.take n).drop start)).concat (startMarker name)).concat
        ⟨t.drop n, more.map (Marker.shift (-(n : Int)))⟩ =
      ⟨t.drop start, (⟨name, n⟩ :: more).map (Marker.shift (-(start : Int)))⟩ := by
  have htake : (t.take n).length = n := by
    rw [List.length_take]
    omega
  have hlength : ((t.take n).drop start).length = n - start := by rw [List.length_drop, htake]
  have htext : (t.take n).drop start ++ t.drop n = t.drop start := by
    rw [← List.drop_append_of_le_length (htake.symm ▸ hstart), List.take_append_drop]
  have hmarker : Marker.shift ((n - start : Nat) : Int) ⟨name, 0⟩ =
      Marker.shift (-(start : Int)) ⟨name, n⟩ := by
    have hoffset : (0 : Int) + ((n - start : Nat) : Int) = n + -(start : Int) := by omega
    rw [Marker.shift, Marker.shift, hoffset]
  have hmore : (more.map (Marker.shift (-(n : Int)))).map (Marker.shift ((n - start : Nat) : Int)) =
      more.map (Marker.shift (-(start : Int))) := by
    have hoffset : -(n : Int) + ((n - start : Nat) : Int) = -(start : Int) := by omega
    rw [List.map_map]
    refine List.map_congr_left fun m _ => ?_
    rw [Function.comp_apply, shift_shift, hoffset]
  simp only [concat, plain, startMarker, List.append_nil, List.nil_append, List.map_cons,
    List.map_nil, List.singleton_append, hlength, htext, hmarker, hmore]

/-- What is written of a text from the offset `start` on, with the markers that stand there, is read
as the rest of the text with these markers, counted from `start`. -/
theorem reads_sourceFrom (t : Text) {markers : List Marker} {start : Nat}
    (hrange : ∀ m ∈ markers, (start : Int) ≤ m.offset ∧ m.offset ≤ t.length)
    (hsorted : markers.Pairwise fun m n => m.offset ≤ n.offset)
    (hnames : ∀ m ∈ markers, isName m.name = true) :
    Reads (sourceFrom t start markers)
      ⟨t.drop start, markers.map (Marker.shift (-(start : Int)))⟩ := by
  induction markers generalizing start with
  | nil =>
    rw [sourceFrom, Text.onFrom_natCast]
    exact reads_escapeDollars (t.drop start)
  | cons m more ih =>
    obtain ⟨⟨hstart, hlength⟩, hmore⟩ := List.forall_mem_cons.1 hrange
    obtain ⟨hfirst, hsortedMore⟩ := List.pairwise_cons.1 hsorted
    obtain ⟨hname, hnamesMore⟩ := List.forall_mem_cons.1 hnames
    obtain ⟨name, offset⟩ := m
    obtain ⟨n, rfl⟩ : ∃ n : Nat, offset = n :=
      Int.eq_ofNat_of_zero_le (Int.le_trans (Int.natCast_nonneg start) hstart)
    -- What is left is written from this marker on, and no later marker stands before it.
    have hrest : Reads (sourceFrom t n more) ⟨t.drop n, more.map (Marker.shift (-(n : Int)))⟩ :=
      ih (fun k hk => ⟨hfirst k hk, (hmore k hk).2⟩) hsortedMore hnamesMore
    have hpiece := reads_escapeDollars ((t.take n).drop start)
    have hparts := (hpiece.append (reads_marker hname)).append hrest
    rw [concat_startMarker (Int.ofNat_le.1 hstart) (Int.ofNat_le.1 hlength)] at hparts
    rwa [sourceFrom, Text.slice_natCast]

/-- A well-formed fragment is read from its source. -/
theorem WellFormed.ofSource_toSource {f : Fragment}
    (h : WellFormed (fun name => isName name = true) f) : ofSource f.toSource = f := by
  have hreads : Reads f.toSource ⟨f.text, f.markers.map (Marker.shift 0)⟩ :=
    reads_sourceFrom f.text h.inRange h.sorted h.names
  calc ofSource f.toSource = ⟨f.text, f.markers.map (Marker.shift 0)⟩ := hreads.ofSource
    _ = f := by rw [map_shift_zero]

/-- Sources round trip. The fragments that are read from their own sources are those whose markers
stand in order and within the text and have names that a marker can have. All that is read from any
source is such a fragment, and so writing it and reading it once more changes nothing. -/
theorem wellFormed_iff_roundTrip :
    (∀ f : Fragment, WellFormed (fun name => isName name = true) f ↔ ofSource f.toSource = f) ∧
      ∀ source : Text, WellFormed (fun name => isName name = true) (ofSource source) ∧
        ofSource (ofSource source).toSource = ofSource source := by
  refine ⟨fun f => ⟨WellFormed.ofSource_toSource, fun h => ?_⟩, fun source => ?_⟩
  · rw [← h]
    exact wellFormed_ofSource f.toSource
  · have hformed := wellFormed_ofSource source
    exact ⟨hformed, hformed.ofSource_toSource⟩

/-- Two markers at one offset, behind a dollar and before a text that looks like a marker. -/
example :
    toSource ⟨"$$x$".toList, [⟨"a".toList, 1⟩, ⟨"b".toList, 1⟩]⟩ = "$$$a$$b$$$x$$".toList := by
  decide

end Abbrev.Fragment
