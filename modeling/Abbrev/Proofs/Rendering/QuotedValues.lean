import Abbrev.Proofs.Fragment.Indent
import Abbrev.Proofs.Rendering.Markup

/-!
# Values stay within their quotes

The values of attributes are written between quotes, in tags as in HAML. Reading what is written
from quote to quote gives one value for each of these attributes, if there is no quote inside of a
value (`Generator.quotedValues_ownFragment`).

In a tag there never is, whatever the values are, as an entity is written for it. In HAML, values
are written as they are. There a value with a quote in it ends early, and more values are read than
there are attributes (`Generator.quotedValues_haml_quote`).
-/

namespace Abbrev

open Fragment

/-! ## Reading quoted values -/

namespace Text

variable {sign : Char} {s t : Text}

/-- Every second one of the pieces, if there is another one behind it. -/
def everySecond : List Text → List Text
  | _ :: inside :: outside :: rest => inside :: everySecond (outside :: rest)
  | _ => []

/-- The texts between a quote and the next one, from the left. The last quote begins no text if
there is no other one behind it. -/
def quotedValues (sign : Char) (t : Text) : List Text :=
  everySecond (splitAt sign t)

/-- What stands before the first quote does not matter. -/
theorem quotedValues_append (h : sign ∉ s) (t : Text) :
    quotedValues sign (s ++ t) = quotedValues sign t := by
  obtain ⟨first, more, ht, hboth⟩ := exists_splitAt_append h t
  rw [quotedValues, quotedValues, hboth, ht]
  match more with
  | [] => rfl
  | [_] => rfl
  | _ :: _ :: _ => rfl

/-- Without quotes there are no values. -/
theorem quotedValues_of_notMem (h : sign ∉ t) : quotedValues sign t = [] := by
  have happend := quotedValues_append h []
  rwa [List.append_nil] at happend

/-- A value in quotes is read first. -/
theorem quotedValues_quoted {value : Text} (h : sign ∉ value) (rest : Text) :
    quotedValues sign (sign :: value ++ sign :: rest) = value :: quotedValues sign rest := by
  -- Nothing stands before the first quote, so the value is the second piece.
  have hfirst : splitAt sign (sign :: value ++ sign :: rest) =
      [] :: value :: splitAt sign rest := by
    rw [List.cons_append, splitAt, if_pos rfl, splitAt_append h]
  have hnone : sign ∉ ([] : Text) := List.not_mem_nil
  obtain ⟨first, more, hrest, -⟩ := exists_splitAt_append hnone rest
  rw [quotedValues, quotedValues, hfirst, hrest, everySecond]

end Text

namespace Generator

variable {g : Generator} {attributes : List Attribute}

/-! ## Attributes with quoted values -/

/-- Another attribute of an element as HAML shows it. -/
def hamlAttribute (quote : Quote) (a : Attribute) : Text :=
  ':' :: Text.lower a.name ++ " => ".toList ++ quote.sign :: shownValue a a.value ++ [quote.sign]

/-- The text of another attribute in HAML. -/
theorem text_hamlOtherFragment (quote : Quote) (a : Attribute) :
    (hamlOtherFragment quote a).text = hamlAttribute quote a := by
  unfold hamlOtherFragment hamlAttribute shownValue
  split
  · rw [concat, text_tabStopFragment]
    simp [plain]
  · simp [concat, plain]

/-- The text of the other attributes in HAML. -/
theorem text_hamlOthersFragment (quote : Quote) (attributes : List Attribute) :
    (hamlOthersFragment quote attributes).text =
      Text.join ", ".toList (attributes.map (hamlAttribute quote)) := by
  fun_induction hamlOthersFragment quote attributes with
  | case1 => rfl
  | case2 a => rw [text_hamlOtherFragment, List.map_singleton, Text.join_singleton]
  | case3 a b rest ih =>
    show (hamlOtherFragment quote a).text ++ (", ".toList ++ (hamlOthersFragment quote _).text) = _
    rw [text_hamlOtherFragment, ih]
    simp only [List.map_cons, Text.join_cons_cons]

/-- The attributes that are written with a value in quotes: in HAML, those but ids and classes. -/
def quotedAttributes (g : Generator) (attributes : List Attribute) : List Attribute :=
  if g.dialect = .haml then attributes.filter isHamlOther else attributes

/-- What is written between the quotes of an attribute. -/
def writtenValue (g : Generator) (a : Attribute) : Text :=
  if g.dialect = .haml then shownValue a a.value else tagValue g.profile.quote a

/-- The attributes with their quoted values as they are written. -/
def attributesText (g : Generator) (attributes : List Attribute) : Text :=
  if g.dialect = .haml then
    if attributes.filter isHamlOther = [] then []
    else '{' :: Text.join ", ".toList
      ((attributes.filter isHamlOther).map (hamlAttribute g.profile.quote)) ++ ['}']
  else attributes.flatMap (tagAttribute g.profile.quote)

/-- What an element begins with, before its attributes with quoted values. -/
def opening (g : Generator) (key : Text) (attributes : List Attribute) : Text :=
  if g.dialect = .haml then g.hamlName key attributes ++ (hamlSelectorsFragment attributes).text
  else '<' :: key

/-- There is no quote in what is written for a value, unless HAML writes a value with a quote. -/
theorem sign_notMem_writtenValue {a : Attribute}
    (h : g.dialect = .haml → g.profile.quote.sign ∉ a.value) :
    g.profile.quote.sign ∉ g.writtenValue a := by
  unfold writtenValue
  split
  · next hhaml => exact sign_notMem_shownValue _ a (h hhaml)
  · exact sign_notMem_tagValue _ a

/-! ## Reading them back -/

/-- The values in a tag are read back from what follows its name, with no quote behind them. -/
theorem quotedValues_tagAttributes {quote : Quote}
    (hnames : ∀ a ∈ attributes, quote.sign ∉ a.name) {rest : Text} (hrest : quote.sign ∉ rest) :
    Text.quotedValues quote.sign (attributes.flatMap (tagAttribute quote) ++ rest) =
      attributes.map (tagValue quote) := by
  induction attributes with
  | nil => exact Text.quotedValues_of_notMem hrest
  | cons a others ih =>
    obtain ⟨hname, hnames⟩ := List.forall_mem_cons.1 hnames
    have hbefore : quote.sign ∉ ' ' :: a.name ++ ['='] := by
      have hquote : quote.sign ≠ ' ' ∧ quote.sign ≠ '=' := by cases quote <;> decide
      simp [hname, hquote]
    have htext : (a :: others).flatMap (tagAttribute quote) ++ rest =
        (' ' :: a.name ++ ['=']) ++ (quote.sign :: tagValue quote a ++
          quote.sign :: (others.flatMap (tagAttribute quote) ++ rest)) := by
      rw [List.flatMap_cons, tagAttribute]
      simp only [List.append_assoc, List.cons_append, List.nil_append]
    rw [htext, Text.quotedValues_append hbefore,
      Text.quotedValues_quoted (sign_notMem_tagValue quote a), ih hnames, List.map_cons]

/-- The values in HAML are read back from what stands in braces, with no quote behind them. -/
theorem quotedValues_hamlAttributes {quote : Quote}
    (hnames : ∀ a ∈ attributes, quote.sign ∉ a.name) {rest : Text} (hrest : quote.sign ∉ rest)
    (hsign : ∀ a ∈ attributes, quote.sign ∉ shownValue a a.value) :
    Text.quotedValues quote.sign
        (Text.join ", ".toList (attributes.map (hamlAttribute quote)) ++ rest) =
      attributes.map fun a => shownValue a a.value := by
  have hquoted (a : Attribute) (ha : a ∈ attributes) (behind : Text) :
      Text.quotedValues quote.sign (hamlAttribute quote a ++ behind) =
        shownValue a a.value :: Text.quotedValues quote.sign behind := by
    have hbefore : quote.sign ∉ ':' :: Text.lower a.name ++ " => ".toList := by
      have hquote : quote.sign ≠ ':' ∧ quote.sign ≠ ' ' ∧ quote.sign ≠ '=' ∧ quote.sign ≠ '>' := by
        cases quote <;> decide
      have hlower : quote.sign ∉ Text.lower a.name :=
        mt (Text.mem_of_mem_lower (by cases quote <;> decide) (by cases quote <;> decide))
          (hnames a ha)
      simp [hlower, hquote]
    have htext : hamlAttribute quote a ++ behind = (':' :: Text.lower a.name ++ " => ".toList) ++
        (quote.sign :: shownValue a a.value ++ quote.sign :: behind) := by
      simp only [hamlAttribute, List.append_assoc, List.cons_append, List.nil_append]
    rw [htext, Text.quotedValues_append hbefore, Text.quotedValues_quoted (hsign a ha)]
  have hcomma : quote.sign ∉ ", ".toList := by cases quote <;> decide
  induction attributes with
  | nil => exact Text.quotedValues_of_notMem hrest
  | cons a others ih =>
    have hothers := ih (fun b hb => hnames b (List.mem_cons_of_mem a hb))
      (fun b hb => hsign b (List.mem_cons_of_mem a hb))
      (fun b hb => hquoted b (List.mem_cons_of_mem a hb))
    cases others with
    | nil =>
      rw [List.map_singleton, Text.join_singleton, hquoted a List.mem_cons_self,
        Text.quotedValues_of_notMem hrest]
      rfl
    | cons b others =>
      rw [List.map_cons, List.map_cons, Text.join_cons_cons, List.append_assoc,
        hquoted a List.mem_cons_self, List.append_assoc, Text.quotedValues_append hcomma]
      exact congrArg _ hothers

/-- The values that are written in quotes are read back, with no quote behind them. -/
theorem quotedValues_attributesText (hnames : ∀ a ∈ attributes, g.profile.quote.sign ∉ a.name)
    (hvalues : ∀ a ∈ g.quotedAttributes attributes, g.profile.quote.sign ∉ g.writtenValue a)
    {rest : Text} (hrest : g.profile.quote.sign ∉ rest) :
    Text.quotedValues g.profile.quote.sign (g.attributesText attributes ++ rest) =
      (g.quotedAttributes attributes).map g.writtenValue := by
  unfold quotedAttributes attributesText at *
  by_cases hhaml : g.dialect = .haml
  · have hwritten : g.writtenValue = fun a => shownValue a a.value := by
      funext a
      rw [writtenValue, if_pos hhaml]
    rw [if_pos hhaml, hwritten] at hvalues ⊢
    rw [if_pos hhaml]
    split
    · next hnone =>
      rw [hnone]
      exact Text.quotedValues_of_notMem hrest
    · have hsigns : g.profile.quote.sign ≠ '{' ∧ g.profile.quote.sign ≠ '}' := by
        cases g.profile.quote <;> decide
      have hopen : g.profile.quote.sign ∉ ['{'] := by simp [hsigns]
      have hclose : g.profile.quote.sign ∉ '}' :: rest := by simp [hsigns, hrest]
      have htext (inside : Text) :
          '{' :: inside ++ ['}'] ++ rest = ['{'] ++ (inside ++ '}' :: rest) := by
        simp only [List.append_assoc, List.cons_append, List.nil_append]
      rw [htext, Text.quotedValues_append hopen]
      exact quotedValues_hamlAttributes (fun a ha => hnames a (List.mem_of_mem_filter ha)) hclose
        hvalues
  · have hwritten : g.writtenValue = tagValue g.profile.quote := by
      funext a
      rw [writtenValue, if_neg hhaml]
    rw [if_neg hhaml, if_neg hhaml, hwritten]
    exact quotedValues_tagAttributes hnames hrest

/-! ## Elements -/

/-- In HAML, the text in braces is that of the attributes but ids and classes, if there are any. -/
theorem text_hamlBraces (hhaml : g.dialect = .haml) :
    (if (hamlOthers g.profile.quote attributes).isEmpty then empty
      else ((plain ['{']).concat
        (hamlOthersFragment g.profile.quote (attributes.filter isHamlOther))).concat
          (plain ['}'])).text = g.attributesText attributes := by
  have hothers : (hamlOthers g.profile.quote attributes).isEmpty =
      decide (attributes.filter isHamlOther = []) := by
    have hmap : hamlOthers g.profile.quote attributes =
        (attributes.filter isHamlOther).map (hamlOtherSource g.profile.quote) := rfl
    rw [hmap, List.isEmpty_map, Bool.eq_iff_iff, List.isEmpty_iff, decide_eq_true_iff]
  unfold attributesText
  rw [hothers, if_pos hhaml]
  by_cases hnone : attributes.filter isHamlOther = []
  · rw [if_pos hnone, if_pos (decide_eq_true hnone)]
    rfl
  · rw [if_neg hnone, if_neg (by simpa using hnone), ← text_hamlOthersFragment]
    rfl

variable {node : Node} {key : Text}

/-- In HAML, no quote follows the attributes of an element. -/
theorem exists_text_ownFragment_haml (hhaml : g.dialect = .haml)
    (hkind : node.kind = .element key attributes none) :
    ∃ rest, (g.ownFragment node).value.text =
        g.opening key attributes ++ g.attributesText attributes ++ rest ∧
      g.profile.quote.sign ∉ rest := by
  have hform : (g.ownFragment node).value = g.hamlFragment key attributes node := by
    rw [ownFragment_of_no_snippet hkind, ← ofSource_hamlSource, elementFragment, hhaml]
  refine ⟨(if voidElements.contains (Text.lower key) && node.children.isEmpty then ['/']
    else []) ++ ['\n'], ?_, ?_⟩
  · rw [hform, ← text_hamlBraces hhaml, opening, if_pos hhaml]
    show _ ++ _ ++ _ ++ _ ++ [] ++ _ = _
    rw [List.append_nil]
    simp only [List.append_assoc]
    rfl
  · split
    · cases g.profile.quote <;> decide
    · cases g.profile.quote <;> decide

/-- In a tag, a quote can follow the attributes only in the key of the closing tag. -/
theorem exists_text_ownFragment_tagged (htags : g.WritesTags)
    (hkind : node.kind = .element key attributes none) :
    ∃ rest, (g.ownFragment node).value.text =
        g.opening key attributes ++ g.attributesText attributes ++ rest ∧
      (g.profile.quote.sign ∉ g.opening key attributes → g.profile.quote.sign ∉ rest) := by
  have hopening : g.opening key attributes = '<' :: key := if_neg htags.ne_haml
  have hattributes : g.attributesText attributes =
      (attributesFragment g.profile.quote attributes).text := by
    rw [text_attributesFragment]
    exact if_neg htags.ne_haml
  rw [ownFragment_element htags hkind, taggedFragment_eq, hopening, hattributes]
  dsimp only
  split
  · refine ⟨g.profile.closing.tagEnd, ?_, fun _ => ?_⟩
    · rw [text_around, List.append_nil]
      rfl
    · cases g.profile.closing <;> cases g.profile.quote <;> decide
  · refine ⟨'>' :: '<' :: '/' :: key ++ ['>'], ?_, fun hkey => ?_⟩
    · rw [text_around]
      show _ ++ _ ++ ['>'] ++ _ = _
      rw [List.append_assoc]
      rfl
    · have hsigns : g.profile.quote.sign ≠ '>' ∧ g.profile.quote.sign ≠ '<' ∧
          g.profile.quote.sign ≠ '/' := by
        cases g.profile.quote <;> decide
      have hkey : g.profile.quote.sign ∉ key := fun hmem => hkey (List.mem_cons_of_mem _ hmem)
      simp [hsigns, hkey]

/-- An element is what it begins with, its attributes with quoted values, and what follows, where a
quote can stand only in the key. -/
theorem exists_text_ownFragment (hdialect : g.dialect ≠ .textual)
    (hkind : node.kind = .element key attributes none) :
    ∃ rest, (g.ownFragment node).value.text =
        g.opening key attributes ++ g.attributesText attributes ++ rest ∧
      (g.profile.quote.sign ∉ g.opening key attributes → g.profile.quote.sign ∉ rest) := by
  cases hform : g.dialect with
  | html => exact exists_text_ownFragment_tagged (.inl hform) hkind
  | xml => exact exists_text_ownFragment_tagged (.inr hform) hkind
  | haml =>
    obtain ⟨rest, htext, hrest⟩ := exists_text_ownFragment_haml hform hkind
    exact ⟨rest, htext, fun _ => hrest⟩
  | textual => exact absurd hform hdialect

/-- Values stay within their quotes. What is written for an element without a snippet has its
attributes with quoted values one after the other, and no value has a quote in it; so the values are
read back from quote to quote, one for each of these attributes. Quotes that are no quotes of values
can stand only in what the element begins with. In HAML this needs values without quotes. -/
theorem quotedValues_ownFragment (hdialect : g.dialect ≠ .textual)
    (hkind : node.kind = .element key attributes none)
    (hnames : ∀ a ∈ attributes, g.profile.quote.sign ∉ a.name)
    (hvalues : g.dialect = .haml →
      ∀ a ∈ g.quotedAttributes attributes, g.profile.quote.sign ∉ a.value) :
    let sign := g.profile.quote.sign
    let text := (g.ownFragment node).value.text
    let values := (g.quotedAttributes attributes).map g.writtenValue
    (∀ value ∈ values, sign ∉ value) ∧
      (∃ rest, text = g.opening key attributes ++ g.attributesText attributes ++ rest) ∧
      Text.quotedValues sign (g.attributesText attributes) = values ∧
      (sign ∉ g.opening key attributes → Text.quotedValues sign text = values) := by
  intro sign text values
  have hwritten : ∀ a ∈ g.quotedAttributes attributes, sign ∉ g.writtenValue a :=
    fun a ha => sign_notMem_writtenValue fun hhaml => hvalues hhaml a ha
  obtain ⟨rest, htext, hrest⟩ := exists_text_ownFragment hdialect hkind
  refine ⟨List.forall_mem_map.2 hwritten, ⟨rest, htext⟩, ?_, fun hopening => ?_⟩
  · have hread := quotedValues_attributesText hnames hwritten List.not_mem_nil
    rwa [List.append_nil] at hread
  · show Text.quotedValues sign (g.ownFragment node).value.text = values
    rw [htext, List.append_assoc, Text.quotedValues_append hopening]
    exact quotedValues_attributesText hnames hwritten (hrest hopening)

/-- An element with a quote in a value, and without another value. -/
def sampleQuoted : Node :=
  ⟨.element "a".toList [⟨"title".toList, "say \"hi\"".toList⟩, ⟨"href".toList, []⟩] none, 0, none,
    none, []⟩

/-- In HTML, the two values of the sample are read back. -/
theorem quotedValues_ownFragment_sampleQuoted :
    Text.quotedValues '"' ((ofDialect {} .html).ownFragment sampleQuoted).value.text =
      ["say &quot;hi&quot;".toList, []] := by
  have hnames : ∀ a ∈ sampleQuoted.kind.attributes, '"' ∉ a.name := by decide
  have hkind : sampleQuoted.kind = .element "a".toList sampleQuoted.kind.attributes none := rfl
  obtain ⟨-, -, -, hread⟩ :=
    quotedValues_ownFragment (g := ofDialect {} .html) (by decide) hkind hnames nofun
  have hopening : '"' ∉ (ofDialect {} .html).opening "a".toList sampleQuoted.kind.attributes := by
    decide
  refine (hread hopening).trans ?_
  decide

/-- In HAML, a quote in a value ends it: for the one value there are two. -/
theorem quotedValues_haml_quote :
    let attributes : List Attribute := [⟨"title".toList, "say \"hi\"".toList⟩]
    let node : Node := ⟨.element "span".toList attributes none, 0, none, none, []⟩
    let text := ((ofDialect {} .haml).ownFragment node).value.text
    text = "%span\x7b:title => \"say \"hi\"\"\x7d\n".toList ∧
      Text.quotedValues '"' text = ["say ".toList, []] ∧
      ((ofDialect {} .haml).quotedAttributes attributes).length = 1 := by
  intro attributes node text
  have htext : text = ((ofDialect {} .haml).hamlFragment "span".toList attributes node).text := by
    rw [← ofSource_hamlSource]
    rfl
  rw [htext]
  decide

end Generator

end Abbrev
