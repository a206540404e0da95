import Abbrev.Proofs.Rendering.Sources

/-!
# Attributes without values become tab stops

In a tag, an attribute without a value is written as the source of a marker between quotes. When the
source is read, the markers found are those of the attributes without values, in their order, and
each stands between two quotes (`Generator.tabStops_attributesSource`). What is written for a value
brings no marker, as its dollars are doubled.

That a marker is read needs a name that markers can have, and there an attribute may fail
(`Attribute.HasTabStop`). The name of a tab stop keeps all characters of words, but a marker takes
ASCII only, so `é` is left with the source of its marker for a value
(`Generator.tabStops_attributesSource_beyond_ascii`).
-/

namespace Abbrev

open Fragment

/-- An attribute becomes a tab stop if it has no value, and the words in its name are ASCII. -/
def Attribute.HasTabStop (a : Attribute) : Prop :=
  a.value = [] ∧ AsciiWords a.name

instance (a : Attribute) : Decidable a.HasTabStop := by
  unfold Attribute.HasTabStop
  infer_instance

/-- An attribute becomes a tab stop if it has no value, and a marker can have the name. -/
theorem Attribute.hasTabStop_iff {a : Attribute} :
    a.HasTabStop ↔ a.value = [] ∧ isName (tabStopName a.name) = true :=
  and_congr_right fun _ => isName_tabStopName_iff.symm

namespace Generator

/-- The attributes that become tab stops. -/
def tabStops (attributes : List Attribute) : List Attribute :=
  attributes.filter fun a => a.HasTabStop

/-- The marker of one attribute stands behind a blank, the name, an equals sign and a quote. -/
theorem markers_attributeFragment (quote : Quote) (a : Attribute) :
    (attributeFragment quote a).markers =
      if a.HasTabStop then [⟨tabStopName a.name, (a.name.length + 3 : Nat)⟩] else [] := by
  have hvalue : (valueFragment quote a).markers =
      if a.HasTabStop then [⟨tabStopName a.name, 1⟩] else [] := by
    unfold valueFragment tabStopFragment
    simp only [Attribute.hasTabStop_iff]
    by_cases hempty : a.value = []
    · by_cases hname : isName (tabStopName a.name) = true
      · rw [if_pos hempty, if_pos hname, if_pos ⟨hempty, hname⟩]
        rfl
      · rw [if_pos hempty, if_neg hname, if_neg fun h => hname h.2]
        rfl
    · rw [if_neg hempty, if_neg fun h => hempty h.1]
      rfl
  have hlength : (' ' :: a.name ++ ['=']).length = a.name.length + 2 := by simp
  unfold attributeFragment
  rw [concat, hvalue]
  show [] ++ List.map (Marker.shift ((' ' :: a.name ++ ['=']).length : Nat)) _ = _
  rw [hlength, List.nil_append]
  split
  · rw [List.map_singleton, Marker.shift, Int.natCast_add a.name.length 2, Int.add_comm]
    rfl
  · rfl

/-- Attributes of a tag in two parts. -/
theorem attributesFragment_append (quote : Quote) (before after : List Attribute) :
    attributesFragment quote (before ++ after) =
      (attributesFragment quote before).concat (attributesFragment quote after) := by
  induction before with
  | nil => exact (empty_concat _).symm
  | cons a rest ih =>
    have hcons (l : List Attribute) : attributesFragment quote (a :: l) =
        (attributeFragment quote a).concat (attributesFragment quote l) := rfl
    rw [List.cons_append, hcons, hcons, ih, concat_assoc]

/-- The names of the markers are those of the tab stops, in their order. -/
theorem names_attributesFragment (quote : Quote) (attributes : List Attribute) :
    (attributesFragment quote attributes).markers.map Marker.name =
      (tabStops attributes).map fun a => tabStopName a.name := by
  induction attributes with
  | nil => rfl
  | cons a rest ih =>
    have hshift (distance : Int) (markers : List Marker) :
        (markers.map (Marker.shift distance)).map Marker.name = markers.map Marker.name := by
      rw [List.map_map]
      rfl
    show (List.map Marker.name (_ ++ List.map _ (attributesFragment quote rest).markers)) = _
    rw [List.map_append, hshift, ih, markers_attributeFragment]
    unfold tabStops
    by_cases htab : a.HasTabStop
    · rw [if_pos htab, List.filter_cons_of_pos (by simpa using htab)]
      rfl
    · rw [if_neg htab, List.filter_cons_of_neg (by simpa using htab)]
      rfl

/-- Behind the markers of the attributes before it comes that of a tab stop. -/
theorem marker_attributesFragment (quote : Quote) (before after : List Attribute) {a : Attribute}
    (h : a.HasTabStop) :
    (attributesFragment quote (before ++ a :: after)).markers[(tabStops before).length]? =
      some ⟨tabStopName a.name,
        ((attributesFragment quote before).text.length + a.name.length + 3 : Nat)⟩ := by
  -- Each tab stop before it has brought one marker.
  have hbefore : (tabStops before).length = (attributesFragment quote before).markers.length := by
    have hnames := congrArg List.length (names_attributesFragment quote before)
    rw [List.length_map, List.length_map] at hnames
    exact hnames.symm
  have hown : (attributesFragment quote (a :: after)).markers =
      ⟨tabStopName a.name, (a.name.length + 3 : Nat)⟩ ::
        (attributesFragment quote after).markers.map
          (Marker.shift (attributeFragment quote a).text.length) := by
    show (attributeFragment quote a).markers ++ _ = _
    rw [markers_attributeFragment, if_pos h]
    rfl
  have hshift (offset distance : Nat) : Marker.shift distance ⟨tabStopName a.name, offset⟩ =
      ⟨tabStopName a.name, (distance + offset : Nat)⟩ := by
    rw [Marker.shift, Int.natCast_add, Int.add_comm]
  rw [attributesFragment_append, concat, hown, hbefore, List.getElem?_append_right (Nat.le_refl _),
    Nat.sub_self, List.map_cons, List.getElem?_cons_zero, hshift, ← Nat.add_assoc]

/-- The text around a tab stop: it stands between two quotes. -/
theorem text_around_tabStop (quote : Quote) (before after : List Attribute) {a : Attribute}
    (h : a.HasTabStop) :
    (attributesFragment quote (before ++ a :: after)).text =
      (attributesFragment quote before).text ++ ' ' :: a.name ++ ['=', quote.sign] ++
        quote.sign :: (attributesFragment quote after).text := by
  have hshown : tagValue quote a = [] := by
    rw [tagValue, shownValue, if_pos h.1, if_pos (Attribute.hasTabStop_iff.1 h).2]
  rw [text_attributesFragment, text_attributesFragment, text_attributesFragment,
    List.flatMap_append, List.flatMap_cons, tagAttribute, hshown]
  simp only [List.append_assoc, List.cons_append, List.nil_append]

/-- In what the attributes of a tag are read as, the markers are those of the attributes that become
tab stops, in their order, and no others. None of them has a reserved name, and each stands between
the quotes of its attribute. -/
theorem tabStops_attributesSource (quote : Quote) (attributes : List Attribute) :
    let read (l : List Attribute) := ofSource (attributesSource quote l)
    (read attributes).markers.map Marker.name =
        (tabStops attributes).map (fun a => tabStopName a.name) ∧
      (∀ m ∈ (read attributes).markers, m.name ≠ Marker.endName ∧
        m.name ≠ Marker.attributesName ∧ m.name ≠ Marker.selectionName) ∧
      ∀ before a after, attributes = before ++ a :: after → a.HasTabStop →
        let start := (read before).text ++ ' ' :: a.name ++ ['=', quote.sign]
        (read attributes).markers[(tabStops before).length]? =
            some ⟨tabStopName a.name, start.length⟩ ∧
          (read attributes).text = start ++ quote.sign :: (read after).text := by
  have hread (l : List Attribute) :
      ofSource (attributesSource quote l) = attributesFragment quote l :=
    (reads_attributesSource quote l).ofSource
  intro read
  refine ⟨?_, ?_, ?_⟩
  · exact (congrArg (·.markers.map Marker.name) (hread attributes)).trans
      (names_attributesFragment quote attributes)
  · intro m hm
    have hm : m ∈ (attributesFragment quote attributes).markers := hread attributes ▸ hm
    obtain ⟨name, hname⟩ := onlyTabStops_attributesFragment quote attributes m hm
    rw [hname]
    exact ⟨tabStopName_ne ⟨'E', by decide, by decide⟩ name,
      tabStopName_ne ⟨'A', by decide, by decide⟩ name,
      tabStopName_ne ⟨'S', by decide, by decide⟩ name⟩
  · rintro before a after rfl htab
    have hlength : ((read before).text ++ ' ' :: a.name ++ ['=', quote.sign]).length =
        (attributesFragment quote before).text.length + a.name.length + 3 := by
      rw [show read before = _ from hread before]
      simp only [List.length_append, List.length_cons, List.length_nil]
      omega
    refine ⟨?_, ?_⟩
    · rw [hlength, show read (before ++ a :: after) = _ from hread _]
      exact marker_attributesFragment quote before after htab
    · rw [show read (before ++ a :: after) = _ from hread _, show read before = _ from hread _,
        show read after = _ from hread _]
      exact text_around_tabStop quote before after htab

/-- Two attributes without values, and one with a value that reads like a marker. -/
def sampleAttributes : List Attribute :=
  [⟨"data-1".toList, []⟩, ⟨"title".toList, "$END$".toList⟩, ⟨"2x".toList, []⟩]

/-- The attribute `2x` of the sample has the second tab stop. -/
theorem tabStops_attributesSource_sample :
    let f := ofSource (attributesSource .double sampleAttributes)
    f.markers[1]? = some ⟨"_2x".toList, 29⟩ ∧
      f.text = " data-1=\"\" title=\"$END$\" 2x=\"\"".toList := by
  obtain ⟨-, -, hplaced⟩ := tabStops_attributesSource .double sampleAttributes
  have htab : Attribute.HasTabStop ⟨"2x".toList, []⟩ := by decide
  obtain ⟨hmarker, htext⟩ := hplaced (sampleAttributes.take 2) ⟨"2x".toList, []⟩ [] rfl htab
  have hbefore : (ofSource (attributesSource .double (sampleAttributes.take 2))).text =
      " data-1=\"\" title=\"$END$\"".toList := by
    rw [(reads_attributesSource .double _).ofSource]
    decide
  have hafter : (ofSource (attributesSource .double [])).text = [] := by
    rw [(reads_attributesSource .double _).ofSource]
    rfl
  have hname : tabStopName "2x".toList = "_2x".toList := by decide
  have hcount : (tabStops (sampleAttributes.take 2)).length = 1 := by decide
  rw [hbefore, hcount, hname] at hmarker
  rw [hbefore, hafter] at htext
  exact ⟨hmarker, htext⟩

/-- An attribute without a value is no tab stop if its name has a letter that is not ASCII: the tag
shows the source of the marker. -/
theorem tabStops_attributesSource_beyond_ascii :
    let attributes : List Attribute := [⟨"é".toList, []⟩]
    let f := ofSource (attributesSource .double attributes)
    (attributes.filter fun a => a.value = []).length = 1 ∧ f.markers.length = 0 ∧
      f.text = " é=\"$é$\"".toList := by
  intro attributes f
  have hread : f = attributesFragment .double attributes :=
    (reads_attributesSource .double attributes).ofSource
  rw [hread]
  decide

end Generator

end Abbrev
