import Abbrev.Proofs.Fragment.StartTags
import Abbrev.Proofs.Rendering.Sources

/-!
# Attributes in the start tag of a snippet

A snippet receives the attributes of its element in its first start tag. What the tag has then is
read as its own attributes and those received, each of them once
(`Generator.attributes_snippetFragment`): without a place of its own for attributes, the tag
receives those that it has not yet (`Generator.snippetAttributes_openTag`).

The patterns that look for the tag, its end and its attributes know nothing of quotes, so that needs
a tag that they see as it is (`OpenTag.Plain`). At the marker `ATTRS` nothing is looked for at all:
an attribute that the tag has already is put there again
(`Generator.attributes_snippetFragment_twice`).
-/

namespace Abbrev

open Fragment

namespace WrittenAttribute

/-- An attribute behind one blank with its value in quotes. -/
def inQuotes (quote : Quote) (name value : Text) (hne : name ≠ [])
    (hchars : ∀ c ∈ name, isAttributeChar c = true) (hclosed : quote.sign ∉ value) :
    WrittenAttribute where
  gap := .space
  gap_ne_nil := List.cons_ne_nil _ _
  name := name
  name_ne_nil := hne
  name_chars := hchars
  beforeEquals := .none
  value := .quoted .none quote value hclosed

/-- An attribute behind one blank as it is written. -/
theorem text_inQuotes {quote : Quote} {name value : Text} (hne : name ≠ [])
    (hchars : ∀ c ∈ name, isAttributeChar c = true) (hclosed : quote.sign ∉ value) :
    (inQuotes quote name value hne hchars hclosed).text =
      ' ' :: name ++ '=' :: quote.sign :: value ++ [quote.sign] := by
  simp [inQuotes, text, WrittenValue.text, Blanks.space, Blanks.none]

end WrittenAttribute

namespace Generator

variable {g : Generator} {source before after : Text} {tag : OpenTag} {attributes : List Attribute}

/-- The text of a snippet is that of its source with the attributes in their place. -/
theorem text_snippetFragment (g : Generator) (source : Text) (attributes : List Attribute) :
    let received := g.snippetAttributes (ofSource source) attributes
    (g.snippetFragment source attributes).value.text =
      (ofSource source).text.take received.2 ++ received.1.text ++
        (ofSource source).text.drop received.2 := by
  -- Markers that come and go do not change the text.
  have hmarkers (f : Fragment) :
      (if (f.without Marker.attributesName).has Marker.endName
        then f.without Marker.attributesName
        else (f.without Marker.attributesName).withMarker Marker.endName
          (f.without Marker.attributesName).text.length).text = f.text := by
    split <;> rfl
  unfold snippetFragment
  dsimp only
  split
  · next hempty =>
    refine (hmarkers _).trans ?_
    show (ofSource source).text = _
    rw [hempty, empty, List.append_nil, List.take_append_drop]
  · exact hmarkers _

/-- In the place for attributes, the tag receives those that it has not. -/
theorem snippetAttributes_openTag (hbefore : TagFree before)
    (htext : (ofSource source).text = before ++ tag.left ++ (tag.right ++ after))
    (hplain : (ofSource source).place? Marker.attributesName = none → tag.Plain)
    (hplace : ∀ offset, (ofSource source).place? Marker.attributesName = some offset →
      offset = (before ++ tag.left).length ∧ ∀ a ∈ attributes, a.name ∉ tag.names) :
    g.snippetAttributes (ofSource source) attributes =
      (ofSource (attributesSource g.profile.quote
        (attributes.filter fun a => a.name ∉ tag.names)), (before ++ tag.left).length) := by
  unfold snippetAttributes
  cases hmarker : (ofSource source).place? Marker.attributesName with
  | some offset =>
    obtain ⟨hoffset, hnew⟩ := hplace offset hmarker
    have hall : (attributes.filter fun a => a.name ∉ tag.names) = attributes :=
      List.filter_eq_self.2 fun a ha => decide_eq_true (hnew a ha)
    have hnone : (attributes.filter fun a => !([] : List Text).contains a.name) = attributes :=
      List.filter_eq_self.2 fun _ _ => rfl
    dsimp only [Option.isSome_some, if_true]
    rw [hall, hoffset]
    simp only [if_true, hnone]
    rfl
  | none =>
    have hfound := StartTag.find?_openTag hbefore (hplain hmarker) after
    have hnames := StartTag.attributeNames_openTag (hplain hmarker)
    dsimp only [Option.isSome_none]
    rw [htext]
    simp only [Bool.false_eq_true, if_false, hfound, hnames]
    congr 2
    refine congrArg _ (List.filter_congr fun a _ => ?_)
    simp

/-- The attributes that an element gives to a tag are written with quoted values. -/
theorem exists_writtenAttributes (quote : Quote)
    (h : ∀ a ∈ attributes, a.name ≠ [] ∧ ∀ c ∈ a.name, isAttributeChar c = true) :
    ∃ l : List WrittenAttribute,
      l.flatMap WrittenAttribute.text = attributes.flatMap (tagAttribute quote) ∧
      l.map WrittenAttribute.entry = attributes.map (fun a => (a.name, tagValue quote a)) ∧
      ∀ w ∈ l, w.IsQuoted := by
  induction attributes with
  | nil => exact ⟨[], rfl, rfl, List.forall_mem_nil _⟩
  | cons a rest ih =>
    obtain ⟨⟨hne, hchars⟩, hrest⟩ := List.forall_mem_cons.1 h
    obtain ⟨l, htext, hentries, hquoted⟩ := ih hrest
    have hclosed := sign_notMem_tagValue quote a
    refine ⟨.inQuotes quote a.name (tagValue quote a) hne hchars hclosed :: l, ?_, ?_,
      List.forall_mem_cons.2 ⟨nofun, hquoted⟩⟩
    · rw [List.flatMap_cons, List.flatMap_cons, WrittenAttribute.text_inQuotes, htext]
      rfl
    · rw [List.map_cons, List.map_cons, hentries]
      rfl

/-- The first start tag of a snippet with the attributes of an element has each attribute once:
those of the snippet, with their values, and those of the element whose names the snippet has not.
Without the marker `ATTRS`, this holds of tags that the patterns see as they are. With the marker in
the tag, it holds of all tags, as long as the element has no attribute that the tag has already. -/
theorem attributes_snippetFragment (g : Generator) (hbefore : TagFree before)
    (htext : (ofSource source).text = before ++ tag.left ++ (tag.right ++ after))
    (htag : tag.names.Nodup)
    (hplain : (ofSource source).place? Marker.attributesName = none → tag.Plain)
    (hplace : ∀ offset, (ofSource source).place? Marker.attributesName = some offset →
      offset = (before ++ tag.left).length ∧ ∀ a ∈ attributes, a.name ∉ tag.names)
    (hdistinct : (attributes.map Attribute.name).Nodup)
    (hnames : ∀ a ∈ attributes, a.name ≠ [] ∧ ∀ c ∈ a.name, isAttributeChar c = true) :
    TagReader.firstTag? (ofSource source).text = some tag.entries ∧
      ∃ found, TagReader.firstTag? (g.snippetFragment source attributes).value.text = some found ∧
        (found.map Prod.fst).Nodup ∧
        found.Perm (tag.entries ++ (attributes.filter fun a => a.name ∉ tag.names).map
          fun a => (a.name, tagValue g.profile.quote a)) := by
  generalize hgiven : (attributes.filter fun a => a.name ∉ tag.names) = given
  have hmem {a : Attribute} (ha : a ∈ given) : a ∈ attributes ∧ a.name ∉ tag.names := by
    rwa [← hgiven, List.mem_filter, decide_eq_true_iff] at ha
  have hgivenNames : ∀ a ∈ given, a.name ≠ [] ∧ ∀ c ∈ a.name, isAttributeChar c = true :=
    fun a ha => hnames a (hmem ha).1
  obtain ⟨l, hwritten, hentries, hquoted⟩ := exists_writtenAttributes g.profile.quote hgivenNames
  have hread := TagReader.firstTag?_openTag hbefore tag hquoted after
  have hresult : (g.snippetFragment source attributes).value.text =
      before ++ tag.left ++ l.flatMap WrittenAttribute.text ++ (tag.right ++ after) := by
    rw [text_snippetFragment, snippetAttributes_openTag hbefore htext hplain hplace, hgiven,
      hwritten, htext, List.take_left, List.drop_left, (reads_attributesSource _ _).ofSource,
      text_attributesFragment]
  have hnone : ∀ w ∈ ([] : List WrittenAttribute), w.IsQuoted := List.forall_mem_nil _
  have hown := TagReader.firstTag?_openTag hbefore tag hnone after
  rw [List.flatMap_nil, List.append_nil, List.append_nil, ← htext] at hown
  have hperm : ((tag.first ++ l ++ tag.second).map WrittenAttribute.entry).Perm
      (tag.entries ++ given.map fun a => (a.name, tagValue g.profile.quote a)) := by
    rw [← hentries, OpenTag.entries, ← List.map_append, List.append_assoc, List.append_assoc]
    exact (List.perm_append_comm.append_left tag.first).map _
  refine ⟨hown, _, hresult ▸ hread, ?_, hperm⟩
  -- No name of the tag is given again, and those that are given differ.
  have hfst : (tag.entries ++ given.map fun a => (a.name, tagValue g.profile.quote a)).map
      Prod.fst = tag.names ++ given.map Attribute.name := by
    rw [List.map_append, OpenTag.entries, OpenTag.names, List.map_map, List.map_map]
    rfl
  have hgivenDistinct : (given.map Attribute.name).Nodup := by
    rw [← hgiven]
    exact hdistinct.sublist (List.filter_sublist.map _)
  rw [(hperm.map Prod.fst).nodup_iff, hfst]
  refine List.nodup_append'.2 ⟨htag, hgivenDistinct, ?_⟩
  intro name hname hnew
  obtain ⟨a, ha, rfl⟩ := List.mem_map.1 hnew
  exact (hmem ha).2 hname

/-- A link with a title. -/
def sampleLink : OpenTag where
  letter := 'a'
  letter_isAlpha := by decide
  name := []
  name_chars := List.forall_mem_nil _
  first := [
    .inQuotes .double "href".toList [] (by decide) (List.all_eq_true.1 (by decide))
      (by decide),
    .inQuotes .single "title".toList "x=1".toList (by decide)
      (List.all_eq_true.1 (by decide)) (by decide)]
  gap := .none
  second := []
  close := ⟨.none, false⟩
  ended := fun _ _ => ⟨'>', [], rfl, .inr (.inl rfl)⟩

/-- A field with a place for attributes between its own. -/
def sampleField : OpenTag where
  letter := 'i'
  letter_isAlpha := by decide
  name := "nput".toList
  name_chars := List.all_eq_true.1 (by decide)
  first := [{
    gap := .space
    gap_ne_nil := List.cons_ne_nil _ _
    name := "type".toList
    name_ne_nil := by decide
    name_chars := List.all_eq_true.1 (by decide)
    beforeEquals := .none
    value := .bare "text".toList (by decide) (List.all_eq_true.1 (by decide)) }]
  gap := .space
  second := [.inQuotes .double "name".toList [] (by decide)
    (List.all_eq_true.1 (by decide)) (by decide)]
  close := ⟨.space, true⟩
  ended := fun _ _ => ⟨' ', ['/', '>'], rfl, .inl (by decide)⟩

/-- The source of a snippet with the link. -/
def linkSource : Text :=
  "<a href=\"$href$\" title='x=1'></a>".toList

/-- The source of a snippet with the field. -/
def fieldSource : Text :=
  "<input type=text $ATTRS$ name=\"$name$\" />".toList

/-- The attributes of an element with one of the snippets. -/
def sampleGiven : List Attribute :=
  [⟨"class".toList, "wide".toList⟩, ⟨"href".toList, "y".toList⟩]

/-- The link keeps its `href` and receives a class, and the field receives both in its place. -/
theorem attributes_snippetFragment_samples :
    (∃ found, TagReader.firstTag?
          ((ofDialect {} .html).snippetFragment linkSource sampleGiven).value.text = some found ∧
        found.Perm [("href".toList, []), ("title".toList, "x=1".toList),
          ("class".toList, "wide".toList)]) ∧
      ∃ found, TagReader.firstTag?
          ((ofDialect {} .xml).snippetFragment fieldSource sampleGiven).value.text = some found ∧
        found.Perm [("type".toList, "text".toList), ("name".toList, []),
          ("class".toList, "wide".toList), ("href".toList, "y".toList)] := by
  have hbefore : TagFree [] := by decide
  have hdistinct : (sampleGiven.map Attribute.name).Nodup := by decide
  have hnames : ∀ a ∈ sampleGiven, a.name ≠ [] ∧ ∀ c ∈ a.name, isAttributeChar c = true := by
    intro a ha
    simp only [sampleGiven, List.mem_cons, List.not_mem_nil, or_false] at ha
    rcases ha with rfl | rfl
    · exact ⟨by decide, List.all_eq_true.1 (by decide)⟩
    · exact ⟨by decide, List.all_eq_true.1 (by decide)⟩
  have hlink : (ofSource linkSource).text =
      [] ++ sampleLink.left ++ (sampleLink.right ++ "</a>".toList) := by decide +kernel
  have hunmarked : (ofSource linkSource).place? Marker.attributesName = none := by decide +kernel
  have hplain : sampleLink.Plain := by
    refine ⟨rfl, rfl, ?_, ?_⟩
    · intro w hw
      simp only [sampleLink, List.mem_cons, List.not_mem_nil, or_false] at hw
      rcases hw with rfl | rfl
      · exact ⟨List.all_eq_true.1 (by decide), List.all_eq_true.1 (by decide),
          by decide +kernel⟩
      · exact ⟨List.all_eq_true.1 (by decide), List.all_eq_true.1 (by decide),
          by decide +kernel⟩
    · intro w hw _
      obtain rfl := Option.some.inj hw
      exact nofun
  have hfield : (ofSource fieldSource).text =
      [] ++ sampleField.left ++ (sampleField.right ++ []) := by decide +kernel
  have hmarked : (ofSource fieldSource).place? Marker.attributesName = some 17 := by
    decide +kernel
  obtain ⟨-, found, hfound, -, hperm⟩ := attributes_snippetFragment (ofDialect {} .html) hbefore
    hlink (by decide) (fun _ => hplain) (by simp [hunmarked]) hdistinct hnames
  have hplace : ∀ offset, (ofSource fieldSource).place? Marker.attributesName = some offset →
      offset = ([] ++ sampleField.left).length ∧ ∀ a ∈ sampleGiven, a.name ∉ sampleField.names := by
    intro offset h
    rw [hmarked] at h
    obtain rfl := Option.some.inj h
    decide
  obtain ⟨-, other, hother, -, hotherPerm⟩ := attributes_snippetFragment (ofDialect {} .xml) hbefore
    hfield (by decide) (by simp [hmarked]) hplace hdistinct hnames
  exact ⟨⟨found, hfound, hperm⟩, other, hother, hotherPerm⟩

/-- At the marker `ATTRS`, a tag receives an attribute that it has already, and has it twice
then. -/
theorem attributes_snippetFragment_twice :
    let source := "<input type=\"text\" name=\"$name$\"$ATTRS$ />".toList
    TagReader.firstTag? (ofSource source).text =
        some [("type".toList, "text".toList), ("name".toList, [])] ∧
      TagReader.firstTag? ((ofDialect {} .html).snippetFragment source
          [⟨"name".toList, "q".toList⟩]).value.text =
        some [("type".toList, "text".toList), ("name".toList, []),
          ("name".toList, "q".toList)] := by
  decide +kernel

end Generator

end Abbrev
