import Abbrev.Proofs.Fragment.Range
import Abbrev.Proofs.Text.Rewriting

/-!
# Fragments rewritten character by character

A rewriting of texts extends to fragments: a marker moves along with what stands before it
(`Fragment.rewritten`). This is what `Fragment.mapText` does piece by piece, if the pieces are
rewritten character by character (`mapText_flatMap`).

The operations on fragments do not care whether they meet a text before or after it is rewritten. So
a rewriting can be pulled out of fragments that are joined (`rewritten_splice`), as the markers that
move behind a piece are the same ones before and after; and out of the indentation of lines
(`rewritten_indent`), if it leaves line breaks and the indent alone. A rewriting that leaves
characters out may bring markers together that stood apart, and then it does not tell which of them
move behind a piece; but it still does not matter how the piece looked before
(`rewritten_insert_congr`).
-/

namespace Abbrev

/-- A marker in a text after the text has been rewritten: it stands behind what stood before it. -/
def Marker.moved (change : Char → Text) (t : Text) (m : Marker) : Marker :=
  { m with offset := Text.moved change t m.offset }

namespace Fragment

open Text (moved)

variable {change : Char → Text} {f host piece : Fragment} {name : Text}

/-- The fragment with its text rewritten, and its markers moved along. -/
def rewritten (change : Char → Text) (f : Fragment) : Fragment :=
  ⟨f.text.flatMap change, f.markers.map (Marker.moved change f.text)⟩

/-- A marker in range stands at an offset that counts from the start. -/
theorem InRange.exists_offset (h : InRange f) {m : Marker} (hm : m ∈ f.markers) :
    ∃ n : Nat, m.offset = n ∧ n ≤ f.text.length := by
  obtain ⟨hnonneg, hle⟩ := h m hm
  obtain ⟨n, hn⟩ := Int.eq_ofNat_of_zero_le hnonneg
  exact ⟨n, hn, by omega⟩

/-- A rewritten fragment is in range. -/
theorem InRange.rewritten (h : InRange f) (change : Char → Text) :
    InRange (f.rewritten change) := by
  intro m hm
  obtain ⟨old, hold, rfl⟩ := List.mem_map.1 hm
  obtain ⟨n, hn, -⟩ := h.exists_offset hold
  refine ⟨Int.natCast_nonneg _, ?_⟩
  rw [Marker.moved, hn]
  exact Int.ofNat_le.2 (Text.moved_le change f.text n)

/-! ## Rewriting piece by piece -/

/-- The cuts are offsets of markers in ascending order. -/
theorem sorted_cuts (f : Fragment) : f.cuts.Pairwise (· ≤ ·) := by
  have hsort := @List.pairwise_mergeSort _ (fun a b : Int => decide (a ≤ b))
    (fun a b c hab hbc => by simp only [decide_eq_true_eq] at *; omega)
    (fun a b => by simp only [Bool.or_eq_true, decide_eq_true_eq]; omega)
    (f.markers.map Marker.offset)
  exact (hsort.imp of_decide_eq_true).sublist (Text.eraseReps_sublist _)

/-- Each cut is the offset of a marker. -/
theorem mem_cuts {cut : Int} : cut ∈ f.cuts ↔ ∃ m ∈ f.markers, m.offset = cut := by
  rw [cuts, Text.mem_eraseReps, List.mem_mergeSort, List.mem_map]

/-- If the cuts of a text ascend from `start`, its pieces are rewritten as the text is, and each cut
moves as an offset does. -/
theorem mapPieces_flatMap (change : Char → Text) (t : Text) (start : Nat) {cuts : List Int}
    (hsorted : cuts.Pairwise (· ≤ ·))
    (hcuts : ∀ cut ∈ cuts, (start : Int) ≤ cut ∧ cut ≤ t.length) :
    mapPieces (·.flatMap change) t start (moved change t start) cuts =
      ((t.drop start).flatMap change, cuts.map fun cut => (cut, (moved change t cut : Int))) := by
  induction cuts generalizing start with
  | nil => rw [mapPieces, Text.onFrom_natCast, List.map_nil]
  | cons cut more ih =>
    obtain ⟨⟨hstart, hlength⟩, hmore⟩ := List.forall_mem_cons.1 hcuts
    obtain ⟨hfirst, hrest⟩ := List.pairwise_cons.1 hsorted
    obtain ⟨n, rfl⟩ := Int.eq_ofNat_of_zero_le (Int.le_trans (Int.natCast_nonneg start) hstart)
    have hle : start ≤ n := Int.ofNat_le.1 hstart
    have hn : n ≤ t.length := Int.ofNat_le.1 hlength
    -- The piece between `start` and the cut ends the text before the cut and begins the rest.
    have htake : t.take start ++ (t.take n).drop start = t.take n := by
      rw [← Nat.min_eq_left hle, ← List.take_take, Nat.min_eq_left hle, List.take_append_drop]
    have hdrop : (t.take n).drop start ++ t.drop n = t.drop start := by
      rw [← List.drop_append_of_le_length (by rw [List.length_take]; omega),
        List.take_append_drop]
    have hwritten : moved change t start + (((t.take n).drop start).flatMap change).length =
        moved change t n := by
      rw [Text.moved_natCast, Text.moved_natCast, ← List.length_append, ← List.flatMap_append,
        htake]
    rw [mapPieces]
    dsimp only
    rw [Text.slice_natCast, hwritten,
      ih n hrest fun later hlater => ⟨hfirst later hlater, (hmore later hlater).2⟩]
    dsimp only
    rw [← List.flatMap_append, hdrop, List.map_cons]

/-- Where the text of each piece is rewritten, so is the fragment. -/
theorem mapText_flatMap (h : InRange f) (change : Char → Text) :
    f.mapText (·.flatMap change) = f.rewritten change := by
  have hcuts : ∀ cut ∈ f.cuts, ((0 : Nat) : Int) ≤ cut ∧ cut ≤ f.text.length := by
    intro cut hcut
    obtain ⟨m, hm, rfl⟩ := mem_cuts.1 hcut
    exact h m hm
  have hpieces : mapPieces (·.flatMap change) f.text 0 0 f.cuts = _ :=
    mapPieces_flatMap change f.text 0 f.sorted_cuts hcuts
  unfold mapText rewritten
  rw [hpieces]
  dsimp only
  rw [List.drop_zero, Fragment.mk.injEq]
  refine ⟨rfl, List.map_congr_left ?_⟩
  intro m hm
  rw [List.lookup_graph _ (mem_cuts.2 ⟨m, hm, rfl⟩), Option.getD_some, Marker.moved]

/-- Two rewritings, one after the other, are one. -/
theorem rewritten_rewritten (h : InRange f) (first second : Char → Text) :
    (f.rewritten first).rewritten second = f.rewritten fun c => (first c).flatMap second := by
  unfold rewritten
  rw [Fragment.mk.injEq]
  refine ⟨List.flatMap_assoc, ?_⟩
  rw [List.map_map]
  refine List.map_congr_left ?_
  intro m hm
  obtain ⟨n, hn, -⟩ := h.exists_offset hm
  simp only [Function.comp_apply, Marker.moved, hn]
  rw [Text.moved_moved]

/-! ## Names and places -/

/-- A rewriting keeps the names. -/
@[simp] theorem names_rewritten (change : Char → Text) (f : Fragment) :
    (f.rewritten change).names = f.names := by
  rw [names, names, rewritten, List.map_map]
  rfl

/-- Names that clash do so after a rewriting. -/
@[simp] theorem renames_rewritten (change : Char → Text) (host piece : Fragment) :
    (host.rewritten change).renames (piece.rewritten change) = host.renames piece := by
  rw [renames, renames, names_rewritten, names_rewritten]

/-- A place moves as an offset does. -/
theorem place?_rewritten (h : InRange f) (change : Char → Text) (name : Text) :
    (f.rewritten change).place? name =
      (f.place? name).map fun n : Nat => moved change f.text n := by
  have hsame : (fun m => decide (m.name = name)) ∘ Marker.moved change f.text =
      fun m => decide (m.name = name) := rfl
  unfold place? offset? rewritten
  dsimp only
  rw [List.find?_map, hsame]
  cases hfound : f.markers.find? fun m => decide (m.name = name) with
  | none => rfl
  | some m =>
    obtain ⟨n, hn, -⟩ := h.exists_offset (List.mem_of_find?_eq_some hfound)
    simp only [Option.map_some, Option.bind_some, Marker.moved, hn]
    rfl

/-- A fragment has the same places as before. -/
theorem has_rewritten (h : InRange f) (change : Char → Text) (name : Text) :
    (f.rewritten change).has name = f.has name := by
  rw [has, has, place?_rewritten h, Option.isSome_map]

/-! ## Operations on one fragment -/

/-- Taking markers away. -/
theorem rewritten_without (change : Char → Text) (f : Fragment) (name : Text) :
    (f.without name).rewritten change = (f.rewritten change).without name := by
  unfold rewritten without
  rw [List.filter_map]
  rfl

/-- Surrounding texts are rewritten too. -/
theorem rewritten_surround (h : InRange f) (change : Char → Text) (before after : Text) :
    (f.surround before after).rewritten change =
      (f.rewritten change).surround (before.flatMap change) (after.flatMap change) := by
  unfold rewritten surround
  rw [Fragment.mk.injEq]
  refine ⟨by simp only [List.flatMap_append], ?_⟩
  dsimp only
  rw [List.map_map, List.map_map]
  refine List.map_congr_left ?_
  intro m hm
  obtain ⟨n, hn, hle⟩ := h.exists_offset hm
  simp only [Function.comp_apply, Marker.shift, Marker.moved, hn]
  have hmoved : moved change (before ++ f.text ++ after) ((before.length + n : Nat) : Int) =
      (before.flatMap change).length + moved change f.text n := by
    rw [Text.moved_append_left (by rw [List.length_append]; omega), Text.moved_append_right]
  rw [Marker.mk.injEq]
  refine ⟨rfl, ?_⟩
  rw [show (n : Int) + before.length = ((before.length + n : Nat) : Int) by omega, hmoved]
  omega

/-- Cutting off. -/
theorem rewritten_truncate (h : InRange f) (change : Char → Text) (length : Nat) :
    (f.truncate length).rewritten change =
      (f.rewritten change).truncate (moved change f.text length) := by
  unfold rewritten truncate
  rw [Fragment.mk.injEq]
  refine ⟨(Text.take_flatMap_moved change f.text length).symm, ?_⟩
  dsimp only
  rw [List.map_map, List.map_map]
  refine List.map_congr_left ?_
  intro m hm
  obtain ⟨n, hn, hle⟩ := h.exists_offset hm
  simp only [Function.comp_apply, Marker.moved, hn]
  rw [Marker.mk.injEq]
  refine ⟨rfl, ?_⟩
  -- A marker behind the cut moves to the cut, before as after the rewriting.
  have hmin : moved change (f.text.take length) ((min n length : Nat) : Int) =
      min (moved change f.text n) (moved change f.text length) := by
    rw [Text.moved_natCast, List.take_take, Nat.min_assoc, Nat.min_self, ← Text.moved_natCast]
    rcases Nat.le_total n length with hcut | hcut
    · rw [Nat.min_eq_left hcut, Nat.min_eq_left (Text.moved_le_moved change f.text hcut)]
    · rw [Nat.min_eq_right hcut, Nat.min_eq_right (Text.moved_le_moved change f.text hcut)]
  rw [show min (n : Int) length = ((min n length : Nat) : Int) by omega, hmin]
  omega

/-! ## Lines -/

/-- A rewriting that leaves line breaks alone, and an indent, can be pulled out of the padding of a
line break. -/
theorem flatMap_pad (hline : change '\n' = ['\n']) (honly : ∀ c, '\n' ∈ change c → c = '\n')
    {pad : Text} (hpad : pad.flatMap change = pad) (c : Char) :
    Text.replaceChar '\n' ('\n' :: pad) (change c) =
      ((if c = '\n' then '\n' :: pad else [c]) : Text).flatMap change := by
  unfold Text.replaceChar
  by_cases hc : c = '\n'
  · rw [hc, hline, if_pos rfl, List.flatMap_singleton, if_pos rfl, List.flatMap_cons, hline, hpad,
      List.singleton_append]
  · rw [if_neg hc, List.flatMap_singleton]
    refine Text.flatMap_eq_self ?_
    intro d hd
    rw [if_neg]
    rintro rfl
    exact hc (honly c hd)

/-- A rewriting that leaves line breaks alone, and an indent, can be pulled out of the padding of
lines. -/
theorem rewritten_padded (h : InRange f) (hline : change '\n' = ['\n'])
    (honly : ∀ c, '\n' ∈ change c → c = '\n') {pad : Text} (hpad : pad.flatMap change = pad) :
    (f.mapText (Text.replaceChar '\n' ('\n' :: pad))).rewritten change =
      (f.rewritten change).mapText (Text.replaceChar '\n' ('\n' :: pad)) := by
  have hpiece (g : Fragment) (hg : InRange g) :
      g.mapText (Text.replaceChar '\n' ('\n' :: pad)) =
        g.rewritten fun c => if c = '\n' then '\n' :: pad else [c] := mapText_flatMap hg _
  rw [hpiece f h, hpiece _ (h.rewritten change), rewritten_rewritten h, rewritten_rewritten h]
  congr 1
  funext c
  exact (flatMap_pad hline honly hpad c).symm

/-- With the pad at its end taken away, a fragment is still in range. -/
theorem InRange.trimmed (h : InRange f) (pad : Text) :
    InRange (if ('\n' :: pad).isSuffixOf f.text then f.truncate (f.text.length - pad.length)
      else f) := by
  split
  · exact h.truncate (Nat.sub_le _ _)
  · exact h

/-- A rewriting with an inverse can be pulled out of taking away the pad of an empty last line, if
it leaves line breaks and the pad alone: what is left of that line ends where it did. -/
theorem rewritten_trimmed (h : InRange f)
    (hinjective : Function.Injective fun t : Text => t.flatMap change)
    (hline : change '\n' = ['\n']) (honly : ∀ c, '\n' ∈ change c → c = '\n') {pad : Text}
    (hpad : pad.flatMap change = pad) :
    (if ('\n' :: pad).isSuffixOf f.text then f.truncate (f.text.length - pad.length)
        else f).rewritten change =
      if ('\n' :: pad).isSuffixOf (f.rewritten change).text then
        (f.rewritten change).truncate ((f.rewritten change).text.length - pad.length)
      else f.rewritten change := by
  have hsuffix : ('\n' :: pad).isSuffixOf (f.rewritten change).text =
      ('\n' :: pad).isSuffixOf f.text := by
    rw [Bool.eq_iff_iff, List.isSuffixOf_iff_suffix, List.isSuffixOf_iff_suffix]
    exact Text.cons_isSuffix_flatMap_iff hinjective hline honly hpad
  rw [hsuffix]
  by_cases hend : ('\n' :: pad).isSuffixOf f.text = true
  · rw [if_pos hend, if_pos hend, rewritten_truncate h]
    have hpadEnd : pad <:+ f.text :=
      (List.suffix_cons '\n' pad).trans (List.isSuffixOf_iff_suffix.1 hend)
    rw [Text.moved_length_sub hpad hpadEnd]
    rfl
  · rw [if_neg hend, if_neg hend]

/-- A rewriting with an inverse can be pulled out of the indentation of lines, if it leaves line
breaks and the indent alone. -/
theorem rewritten_indent (h : InRange f)
    (hinjective : Function.Injective fun t : Text => t.flatMap change)
    (hline : change '\n' = ['\n']) (honly : ∀ c, '\n' ∈ change c → c = '\n') {pad : Text}
    (hpad : pad.flatMap change = pad) (firstLine : Bool) :
    (f.indent pad firstLine).rewritten change = (f.rewritten change).indent pad firstLine := by
  unfold indent
  by_cases hnil : pad = []
  · rw [if_pos hnil, if_pos hnil]
  have hrange : InRange (f.mapText (Text.replaceChar '\n' ('\n' :: pad))) := inRange_mapText _ f
  rw [if_neg hnil, if_neg hnil, ← rewritten_padded h hline honly hpad]
  dsimp only
  rw [← rewritten_trimmed hrange hinjective hline honly hpad]
  cases firstLine with
  | false => rfl
  | true =>
    rw [if_pos rfl, if_pos rfl, rewritten_surround (hrange.trimmed pad), hpad]
    rfl

/-! ## Joining -/

/-- The markers that stay when a piece is put in are the same as before. -/
theorem remaining_rewritten (hpiece : InRange piece) (change : Char → Text) (host : Fragment) :
    (host.rewritten change).remaining (piece.rewritten change) =
      (host.remaining piece).map (Marker.moved change host.text) := by
  unfold remaining
  rw [has_rewritten hpiece]
  split
  · rw [rewritten, List.filter_map]
    rfl
  · rfl

/-- The markers of the host are told apart in the same way before and after the rewriting. -/
theorem filter_remaining_rewritten {q q' : Marker → Bool}
    (hsame : ∀ m ∈ host.markers, q' (m.moved change host.text) = q m) (piece : Fragment) :
    ((host.remaining piece).map (Marker.moved change host.text)).filter q' =
      ((host.remaining piece).filter q).map (Marker.moved change host.text) := by
  rw [List.filter_map]
  congr 1
  refine List.filter_congr ?_
  intro m hm
  exact hsame m ((remaining_sublist host piece).subset hm)

/-- A piece that is put in is rewritten where it stands, and so is what stands before and behind it.
Of the piece, no more matters than its names and what it is rewritten to. -/
theorem rewritten_splice_parts (hhost : InRange host) (hpiece : InRange piece) {offset : Nat}
    (hoffset : offset ≤ host.text.length) {moves : Marker → Bool}
    (hbefore : ∀ m ∈ host.markers, moves m = false → m.offset ≤ offset)
    (hbehind : ∀ m ∈ host.markers, moves m = true → offset ≤ m.offset) :
    (host.splice offset piece moves).rewritten change =
      ⟨(host.text.take offset).flatMap change ++ (piece.rewritten change).text ++
          (host.text.drop offset).flatMap change,
        ((host.remaining piece).filter fun m => !moves m).map (Marker.moved change host.text) ++
          (piece.rewritten change).markers.map (fun m =>
            (rename (host.renames piece) m).shift (moved change host.text offset)) ++
          ((host.remaining piece).filter moves).map fun m =>
            (m.moved change host.text).shift (piece.rewritten change).text.length⟩ := by
  have hkept : ∀ m ∈ host.remaining piece, m ∈ host.markers :=
    fun m hm => (remaining_sublist host piece).subset hm
  unfold splice rewritten
  dsimp only
  rw [Fragment.mk.injEq]
  refine ⟨by simp only [List.flatMap_append], ?_⟩
  rw [List.map_append, List.map_append, List.map_map, List.map_map, List.map_map]
  congr 1
  · congr 1
    · -- Markers before the piece.
      refine List.map_congr_left ?_
      intro m hm
      obtain ⟨hmem, hstays⟩ := List.mem_filter.1 hm
      obtain ⟨n, hn, -⟩ := hhost.exists_offset (hkept m hmem)
      have hle := hbefore m (hkept m hmem) (by simpa using hstays)
      simp only [Marker.moved, hn]
      rw [Text.moved_insert_before _ _ hoffset (by omega)]
    · -- Markers of the piece.
      refine List.map_congr_left ?_
      intro m hm
      obtain ⟨n, hn, hle⟩ := hpiece.exists_offset hm
      simp only [Function.comp_apply, Marker.moved, Marker.shift, rename, hn]
      rw [← Int.natCast_add, Text.moved_insert_inside _ _ hoffset hle, Int.natCast_add]
  · -- Markers behind the piece.
    refine List.map_congr_left ?_
    intro m hm
    obtain ⟨hmem, hmoves⟩ := List.mem_filter.1 hm
    obtain ⟨n, hn, -⟩ := hhost.exists_offset (hkept m hmem)
    have hle := hbehind m (hkept m hmem) hmoves
    simp only [Function.comp_apply, Marker.moved, Marker.shift, hn]
    rw [← Int.natCast_add, Text.moved_insert_behind _ _ hoffset (by omega), Int.natCast_add]

/-- A rewriting can be pulled out of a fragment that a piece is put into. Which markers move behind
the piece has to be told in the same way before and after the rewriting. -/
theorem rewritten_splice (hhost : InRange host) (hpiece : InRange piece) {offset : Nat}
    (hoffset : offset ≤ host.text.length) {moves moves' : Marker → Bool}
    (hbefore : ∀ m ∈ host.markers, moves m = false → m.offset ≤ offset)
    (hbehind : ∀ m ∈ host.markers, moves m = true → offset ≤ m.offset)
    (hsame : ∀ m ∈ host.markers, moves' (m.moved change host.text) = moves m) :
    (host.splice offset piece moves).rewritten change =
      (host.rewritten change).splice (moved change host.text offset) (piece.rewritten change)
        moves' := by
  have hstay : ∀ m ∈ host.markers, (!moves' (m.moved change host.text)) = !moves m := by
    intro m hm
    rw [hsame m hm]
  rw [rewritten_splice_parts hhost hpiece hoffset hbefore hbehind]
  unfold splice
  rw [renames_rewritten, remaining_rewritten hpiece]
  dsimp only
  rw [filter_remaining_rewritten hstay, filter_remaining_rewritten hsame, List.map_map]
  unfold rewritten
  dsimp only
  rw [Text.take_flatMap_moved, Text.drop_flatMap_moved]
  rfl

/-- Two pieces that are rewritten to the same leave the same of a host that they are put into,
whatever characters the rewriting leaves out. -/
theorem rewritten_insert_congr {other : Fragment} (hhost : InRange host) (hpiece : InRange piece)
    (hother : InRange other) (h : piece.rewritten change = other.rewritten change) {offset : Nat}
    (hoffset : offset ≤ host.text.length) :
    (host.insert offset piece).rewritten change = (host.insert offset other).rewritten change := by
  have hnames : piece.names = other.names := by
    rw [← names_rewritten change piece, h, names_rewritten]
  have hrenames : host.renames piece = host.renames other := by
    rw [renames, renames, hnames]
  have hremaining : host.remaining piece = host.remaining other := by
    rw [remaining, remaining, ← has_rewritten hpiece change, h, has_rewritten hother]
  have hbefore : ∀ m ∈ host.markers, decide ((offset : Int) ≤ m.offset) = false →
      m.offset ≤ offset := by
    intro m _ hstays
    simp only [decide_eq_false_iff_not] at hstays
    omega
  have hbehind : ∀ m ∈ host.markers, decide ((offset : Int) ≤ m.offset) = true →
      offset ≤ m.offset := by
    intro m _ hmoves
    simpa using hmoves
  unfold insert
  rw [rewritten_splice_parts hhost hpiece hoffset hbefore hbehind,
    rewritten_splice_parts hhost hother hoffset hbefore hbehind, h, hrenames, hremaining]

/-- A piece that is put in at an offset, if the rewriting leaves no character out. -/
theorem rewritten_insert (hhost : InRange host) (hpiece : InRange piece)
    (hchange : ∀ c, change c ≠ []) {offset : Nat} (hoffset : offset ≤ host.text.length) :
    (host.insert offset piece).rewritten change =
      (host.rewritten change).insert (moved change host.text offset) (piece.rewritten change) := by
  refine rewritten_splice hhost hpiece hoffset ?_ ?_ ?_
  · intro m _ hstays
    simp only [decide_eq_false_iff_not] at hstays
    omega
  · intro m _ hmoves
    simpa using hmoves
  · intro m hm
    obtain ⟨n, hn, -⟩ := hhost.exists_offset hm
    simp only [Marker.moved, hn]
    rw [decide_eq_decide, Int.ofNat_le, Int.ofNat_le]
    exact Text.moved_le_iff hchange hoffset

/-- A piece that is put in at the end. -/
theorem rewritten_append (hhost : InRange host) (hpiece : InRange piece) (change : Char → Text) :
    (host.append piece).rewritten change =
      (host.rewritten change).append (piece.rewritten change) := by
  unfold append
  have hend : (host.rewritten change).text.length = moved change host.text host.text.length :=
    (Text.moved_length change host.text).symm
  rw [hend]
  -- No marker stands behind the end.
  have hnone (f : Fragment) (hf : InRange f) :
      ∀ m ∈ f.markers, decide ((f.text.length : Int) < m.offset) = false := by
    intro m hm
    have := (hf m hm).2
    simp only [decide_eq_false_iff_not]
    omega
  refine rewritten_splice hhost hpiece (Nat.le_refl _) ?_ ?_ ?_
  · intro m hm _
    exact (hhost m hm).2
  · intro m hm hmoves
    rw [hnone host hhost m hm] at hmoves
    cases hmoves
  · intro m hm
    have hmoved := hnone _ (hhost.rewritten change) _ (List.mem_map_of_mem hm)
    rw [hend] at hmoved
    rw [hmoved, hnone host hhost m hm]

/-- Pieces that are put one after the other. -/
theorem rewritten_foldl_append (change : Char → Text) {start : Fragment} (hstart : InRange start)
    {steps : List Fragment} (h : ∀ step ∈ steps, InRange step) :
    (steps.foldl append start).rewritten change =
      (steps.map (rewritten change)).foldl append (start.rewritten change) := by
  induction steps generalizing start with
  | nil => rfl
  | cons step rest ih =>
    obtain ⟨hstep, hrest⟩ := List.forall_mem_cons.1 h
    rw [List.foldl_cons, ih (hstart.append hstep) hrest, List.map_cons, List.foldl_cons,
      rewritten_append hstart hstep]

end Fragment

end Abbrev
