import Abbrev.Proofs.Fragment.Range

/-!
# Reading sources part by part

A source is read from the left, and how far a marker or a doubled dollar reaches is told by what
stands there. So parts of a source can be read on their own, if what follows them cannot change
them: `Reads s f` says that `s` is read as `f` wherever it stands. Characters but dollars are such
parts, texts with doubled dollars, and markers; and with `Reads.append` all that is put together
from them.

A name that no marker can have is no such part, since its second dollar may begin a marker with what
follows it. With a character after it that ends this it is one (`reads_quoted_marker`).
-/

namespace Abbrev.Fragment

/-- Two fragments one after the other, with their names as they are. -/
def concat (f g : Fragment) : Fragment :=
  ⟨f.text ++ g.text, f.markers ++ g.markers.map (Marker.shift f.text.length)⟩

/-- A source is read as a fragment wherever it stands. -/
def Reads (s : Text) (f : Fragment) : Prop :=
  ∀ rest, ofSource (s ++ rest) = f.concat (ofSource rest)

variable {f g h : Fragment} {s t name after : Text}

/-! ## Concatenation -/

/-- Markers move twice as they do once. -/
theorem shift_shift (a b : Int) (m : Marker) : (m.shift a).shift b = m.shift (a + b) := by
  rw [Marker.shift, Marker.shift, Marker.shift, Marker.mk.injEq]
  exact ⟨rfl, Int.add_assoc _ _ _⟩

/-- Markers that move by nothing stay. -/
theorem map_shift_zero (markers : List Marker) : markers.map (Marker.shift 0) = markers := by
  refine List.map_id'' ?_ markers
  intro m
  rw [Marker.shift, Int.add_zero]

/-- Nothing after a fragment. -/
@[simp] theorem concat_empty (f : Fragment) : f.concat empty = f := by
  simp [concat, empty]

/-- Nothing before a fragment. -/
@[simp] theorem empty_concat (f : Fragment) : empty.concat f = f := by
  rw [concat, empty]
  exact congrArg (Fragment.mk f.text) (map_shift_zero f.markers)

/-- Concatenations can be regrouped. -/
theorem concat_assoc (f g h : Fragment) : (f.concat g).concat h = f.concat (g.concat h) := by
  simp only [concat, List.append_assoc, List.map_append, List.map_map, Fragment.mk.injEq, true_and]
  congr 2
  refine List.map_congr_left ?_
  intro m _
  rw [Function.comp_apply, shift_shift, List.length_append, Int.natCast_add, Int.add_comm]

/-! ## The next step of a reading -/

/-- A marker at the start of a text. -/
def startMarker (name : Text) : Fragment :=
  ⟨[], [⟨name, 0⟩]⟩

/-- All characters of a name belong to names. -/
theorem isNamePart_of_isName (h : isName name = true) : ∀ c ∈ name, isNamePart c = true := by
  cases name with
  | nil => cases h
  | cons c rest =>
    simp only [isName, Bool.and_eq_true, List.all_eq_true] at h
    exact h.2

/-- No name has a dollar. -/
theorem dollar_notMem_of_isName (h : isName name = true) : '$' ∉ name := by
  intro hmem
  have hpart := isNamePart_of_isName h '$' hmem
  exact absurd hpart (by decide)

/-- The name of a marker and a dollar, and what follows it. -/
theorem markerName?_eq_some_iff :
    markerName? t = some (name, after) ↔ isName name = true ∧ t = name ++ '$' :: after := by
  constructor
  · intro h
    unfold markerName? at h
    dsimp only at h
    split at h
    · next rest hrest =>
      split at h
      · next hname =>
        obtain ⟨rfl, rfl⟩ := Prod.mk.inj (Option.some.inj h)
        refine ⟨hname, ?_⟩
        rw [← hrest, List.takeWhile_append_dropWhile]
      · cases h
    · cases h
  · rintro ⟨hname, rfl⟩
    have hparts := isNamePart_of_isName hname
    have hdollar : isNamePart '$' = false := by decide
    have htake : (name ++ '$' :: after).takeWhile isNamePart = name := by
      rw [List.takeWhile_append_of_pos hparts, List.takeWhile_cons, hdollar]
      simp
    have hdrop : (name ++ '$' :: after).dropWhile isNamePart = '$' :: after := by
      rw [List.dropWhile_append_of_pos hparts, List.dropWhile_cons, hdollar]
      simp
    unfold markerName?
    rw [htake, hdrop]
    exact if_pos hname

/-- A character but a dollar stands for itself. -/
theorem ofSourceFrom_char {c : Char} (hc : c ≠ '$') (offset : Nat) (rest : Text) :
    ofSourceFrom offset (c :: rest) = cons c (ofSourceFrom (offset + 1) rest) := by
  rw [ofSourceFrom, if_neg hc]

/-- A dollar before the name of a marker begins that marker. -/
theorem ofSourceFrom_marker (h : markerName? t = some (name, after)) (offset : Nat) :
    ofSourceFrom offset ('$' :: t) = consMarker ⟨name, offset⟩ (ofSourceFrom offset after) := by
  rw [ofSourceFrom, if_pos rfl]
  split
  · next hfound =>
    rw [h] at hfound
    obtain ⟨rfl, rfl⟩ := Prod.mk.inj (Option.some.inj hfound)
    rfl
  · next hnone =>
    rw [h] at hnone
    cases hnone

/-- Any other dollar stands for itself, together with a second one. -/
theorem ofSourceFrom_dollar (h : markerName? t = none) (offset : Nat) :
    ofSourceFrom offset ('$' :: t) = cons '$' (ofSourceFrom (offset + 1) (afterDollar t)) := by
  rw [ofSourceFrom, if_pos rfl]
  split
  · next hfound =>
    rw [h] at hfound
    cases hfound
  · rfl

/-- Counting from a later offset moves all markers. -/
theorem ofSourceFrom_add (a b : Nat) (t : Text) :
    ofSourceFrom (a + b) t =
      ⟨(ofSourceFrom b t).text, (ofSourceFrom b t).markers.map (Marker.shift a)⟩ := by
  fun_induction ofSourceFrom b t with
  | case1 => rw [ofSourceFrom]; rfl
  | case2 b rest name after h ih =>
    rw [ofSourceFrom_marker h, ih, Int.natCast_add, Int.add_comm]
    rfl
  | case3 b rest h ih => rw [ofSourceFrom_dollar h, Nat.add_assoc, ih]; rfl
  | case4 b c rest h ih => rw [ofSourceFrom_char h, Nat.add_assoc, ih]; rfl

/-- What follows a part is read as it is on its own, and moved behind the part. -/
theorem concat_ofSource (f : Fragment) (t : Text) :
    f.concat (ofSource t) =
      ⟨f.text ++ (ofSourceFrom f.text.length t).text,
        f.markers ++ (ofSourceFrom f.text.length t).markers⟩ := by
  have hadd := ofSourceFrom_add f.text.length 0 t
  rw [Nat.add_zero] at hadd
  rw [hadd]
  rfl

/-! ## Parts -/

/-- Nothing is read as nothing. -/
theorem reads_nil : Reads [] empty := by
  intro rest
  rw [List.nil_append, empty_concat]

/-- Parts can be put together. -/
theorem Reads.append (hs : Reads s f) (ht : Reads t g) : Reads (s ++ t) (f.concat g) := by
  intro rest
  rw [List.append_assoc, hs, ht, concat_assoc]

/-- A part is read as it is everywhere. -/
theorem Reads.ofSource (h : Reads s f) : ofSource s = f := by
  have hall := h []
  have hnil : Fragment.ofSource [] = empty := by
    rw [Fragment.ofSource, ofSourceFrom]
  rw [List.append_nil, hnil, concat_empty] at hall
  exact hall

/-- A character but a dollar. -/
theorem reads_char {c : Char} (hc : c ≠ '$') : Reads [c] (plain [c]) := by
  intro rest
  rw [concat_ofSource, List.singleton_append, Fragment.ofSource, ofSourceFrom_char hc]
  rfl

/-- A character but a dollar before a part. -/
theorem Reads.cons {c : Char} (hc : c ≠ '$') (h : Reads s f) :
    Reads (c :: s) ((plain [c]).concat f) :=
  (reads_char hc).append h

/-- A part that is chosen by a condition. -/
theorem reads_ite {p : Prop} [Decidable p] (hs : Reads s f) (ht : Reads t g) :
    Reads (if p then s else t) (if p then f else g) := by
  split
  · exact hs
  · exact ht

/-- A doubled dollar. -/
theorem reads_doubleDollar : Reads ['$', '$'] (plain ['$']) := by
  intro rest
  have hnone : markerName? ('$' :: rest) = none := by
    have htake : ('$' :: rest).takeWhile isNamePart = [] := rfl
    have hdrop : ('$' :: rest).dropWhile isNamePart = '$' :: rest := rfl
    unfold markerName?
    rw [htake, hdrop]
    rfl
  change Fragment.ofSource ('$' :: '$' :: rest) = _
  rw [concat_ofSource, Fragment.ofSource, ofSourceFrom_dollar hnone]
  rfl

/-- A marker. -/
theorem reads_marker (h : isName name = true) : Reads (markerSource name) (startMarker name) := by
  intro rest
  have hfound : markerName? (name ++ '$' :: rest) = some (name, rest) :=
    markerName?_eq_some_iff.2 ⟨h, rfl⟩
  have hsource : markerSource name ++ rest = '$' :: (name ++ '$' :: rest) := by
    rw [markerSource, List.cons_append, List.cons_append, List.append_assoc, List.singleton_append]
  rw [concat_ofSource, hsource, Fragment.ofSource, ofSourceFrom_marker hfound]
  rfl

/-- Parts that are given one for each element of a list. -/
theorem reads_flatMap {α : Type} {l : List α} {source : α → Text} {part : α → Fragment}
    (h : ∀ a ∈ l, Reads (source a) (part a)) :
    Reads (l.flatMap source) (l.foldr (fun a f => (part a).concat f) empty) := by
  induction l with
  | nil => exact reads_nil
  | cons a l ih =>
    obtain ⟨ha, hl⟩ := List.forall_mem_cons.1 h
    rw [List.flatMap_cons, List.foldr_cons]
    exact ha.append (ih hl)

/-- Parts without markers that are given one for each character of a text. -/
theorem reads_flatMap_plain {source change : Char → Text} {t : Text}
    (h : ∀ c ∈ t, Reads (source c) (plain (change c))) :
    Reads (t.flatMap source) (plain (t.flatMap change)) := by
  induction t with
  | nil => exact reads_nil
  | cons c t ih =>
    obtain ⟨hc, ht⟩ := List.forall_mem_cons.1 h
    exact hc.append (ih ht)

/-- A text without dollars. -/
theorem reads_plain (h : '$' ∉ t) : Reads t (plain t) := by
  have hchars : ∀ c ∈ t, Reads [c] (plain [c]) := by
    intro c hc
    refine reads_char ?_
    rintro rfl
    exact h hc
  have hall := reads_flatMap_plain hchars
  rwa [List.flatMap_singleton'] at hall

/-- A text with its dollars doubled. -/
theorem reads_escapeDollars (t : Text) : Reads (escapeDollars t) (plain t) := by
  have hchars : ∀ c ∈ t, Reads (if c = '$' then ['$', '$'] else [c]) (plain [c]) := by
    intro c _
    split
    · next hc =>
      rw [hc]
      exact reads_doubleDollar
    · next hc => exact reads_char hc
  have hall := reads_flatMap_plain hchars
  rwa [List.flatMap_singleton'] at hall

/-- A dollar stands for itself if what follows it begins no marker and with no second dollar. -/
theorem reads_loneDollar (hs : Reads s f) (hmarker : ∀ rest, markerName? (s ++ rest) = none)
    (hdollar : ∀ rest, afterDollar (s ++ rest) = s ++ rest) :
    Reads ('$' :: s) ((plain ['$']).concat f) := by
  intro rest
  rw [concat_assoc, ← hs rest, concat_ofSource, List.cons_append, Fragment.ofSource,
    ofSourceFrom_dollar (hmarker rest), hdollar rest]
  rfl

/-- A text without dollars is what stands before the first one. -/
theorem takeWhile_ne_dollar (h : '$' ∉ t) (rest : Text) :
    (t ++ '$' :: rest).takeWhile (fun c => c != '$') = t := by
  have hall : ∀ c ∈ t, (c != '$') = true := by
    intro c hc
    rw [bne_iff_ne]
    rintro rfl
    exact h hc
  rw [List.takeWhile_append_of_pos hall, List.takeWhile_cons]
  simp

/-- Before a dollar, only a name makes a marker. -/
theorem markerName?_eq_none (hname : isName name = false) (hdollar : '$' ∉ name) (rest : Text) :
    markerName? (name ++ '$' :: rest) = none := by
  cases hfound : markerName? (name ++ '$' :: rest) with
  | none => rfl
  | some found =>
    obtain ⟨hfirst, hsplit⟩ := markerName?_eq_some_iff.1 hfound
    have hsame := congrArg (List.takeWhile fun c => c != '$') hsplit
    rw [takeWhile_ne_dollar hdollar, takeWhile_ne_dollar (dollar_notMem_of_isName hfirst)] at hsame
    rw [← hsame, hname] at hfirst
    cases hfirst

/-- A character that belongs to no name begins no marker. -/
theorem markerName?_cons_eq_none {c : Char} (hpart : isNamePart c = false) (rest : Text) :
    markerName? (c :: rest) = none := by
  cases hfound : markerName? (c :: rest) with
  | none => rfl
  | some found =>
    obtain ⟨hfirst, hsplit⟩ := markerName?_eq_some_iff.1 hfound
    cases hname : found.1 with
    | nil =>
      rw [hname] at hfirst
      cases hfirst
    | cons d name =>
      rw [hname] at hfirst hsplit
      obtain ⟨rfl, -⟩ := List.cons.inj hsplit
      have hmem := isNamePart_of_isName hfirst c List.mem_cons_self
      rw [hpart] at hmem
      cases hmem

/-- Only a dollar is taken away behind a dollar. -/
theorem afterDollar_cons {c : Char} (hc : c ≠ '$') (rest : Text) :
    afterDollar (c :: rest) = c :: rest := by
  unfold afterDollar
  split
  · next heq => exact absurd (List.cons.inj heq).1 hc
  · rfl

/-- A name between dollars, with a character after it that neither belongs to a name nor is a
dollar: a marker if a marker can have the name, and else the text itself. -/
theorem reads_marker_char {c : Char} (hne : name ≠ []) (hdollar : '$' ∉ name) (hc : c ≠ '$')
    (hpart : isNamePart c = false) :
    Reads (markerSource name ++ [c])
      (if isName name then (startMarker name).concat (plain [c])
      else plain (markerSource name ++ [c])) := by
  by_cases hname : isName name = true
  · rw [if_pos hname]
    exact (reads_marker hname).append (reads_char hc)
  · rw [if_neg hname]
    -- The second dollar begins no marker, and so the first one does not either.
    have hsecond : Reads ['$', c] (plain ['$', c]) :=
      reads_loneDollar (reads_char hc) (markerName?_cons_eq_none hpart) (afterDollar_cons hc)
    have hfirst : Reads ('$' :: (name ++ ['$', c])) (plain ('$' :: (name ++ ['$', c]))) := by
      refine reads_loneDollar ((reads_plain hdollar).append hsecond) ?_ ?_
      · intro rest
        rw [List.append_assoc]
        exact markerName?_eq_none (by simpa using hname) hdollar _
      · intro rest
        cases name with
        | nil => exact absurd rfl hne
        | cons d name =>
          refine afterDollar_cons ?_ _
          rintro rfl
          exact hdollar List.mem_cons_self
    have hsource : markerSource name ++ [c] = '$' :: (name ++ ['$', c]) := by
      rw [markerSource, List.cons_append, List.cons_append, List.append_assoc]
      rfl
    rw [hsource]
    exact hfirst

end Abbrev.Fragment
