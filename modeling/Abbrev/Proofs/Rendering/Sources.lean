import Abbrev.Proofs.Fragment.Indent
import Abbrev.Proofs.Fragment.Reading
import Abbrev.Proofs.Fragment.Renaming
import Abbrev.Proofs.Text.Lowercase
import Abbrev.Rendering

/-!
# What the sources of elements are read as

Elements are written as sources and then read as fragments. This module says what is read: the tag
with its attributes, in which an attribute without a value is a tab stop, and one marker `END`
(`ofSource_taggedSource`, `ofSource_hamlSource`). Keys, names and values stand for themselves,
whatever they contain, as their dollars are doubled.

The name of a tab stop is made from any characters, so a marker need not be able to have it. In that
case the source of the marker stands for itself, and there is no tab stop (`tabStopFragment`). That
happens exactly to names with a word that is not ASCII (`isName_tabStopName_iff`). A name that a
marker has is none that the library gives a meaning to, as it has no capitals (`tabStopName_ne`).
-/

namespace Abbrev

open Fragment

/-! ## Tab stops -/

namespace Fragment

/-- There is always a name. -/
theorem tabStopName_ne_nil (name : Text) : tabStopName name ≠ [] := by
  unfold tabStopName
  dsimp only
  split
  · exact List.cons_ne_nil _ _
  · next c rest hname =>
    split
    · exact List.cons_ne_nil _ _
    · rw [hname]
      exact List.cons_ne_nil _ _

/-- A character of a name is an underscore, or one of a word in lower case. -/
theorem of_mem_tabStopName {name : Text} {c : Char} (h : c ∈ tabStopName name) :
    c = '_' ∨ c ∈ Text.lower name ∧ Text.isWord c = true := by
  have hbody (h : c ∈ (Text.lower name).map fun c => if Text.isWord c then c else '_') :
      c = '_' ∨ c ∈ Text.lower name ∧ Text.isWord c = true := by
    obtain ⟨d, hd, rfl⟩ := List.mem_map.1 h
    split
    · next hword => exact .inr ⟨hd, hword⟩
    · exact .inl rfl
  unfold tabStopName at h
  dsimp only at h
  split at h
  · exact .inl (List.mem_singleton.1 h)
  · split at h
    · rcases List.mem_cons.1 h with h | h
      · exact .inl h
      · exact hbody h
    · exact hbody h

/-- A character but an underscore that belongs to no word is not in a name. -/
theorem notMem_tabStopName {c : Char} (hc : c ≠ '_') (hword : Text.isWord c = false)
    (name : Text) : c ∉ tabStopName name := by
  intro hmem
  obtain hunderscore | ⟨-, hmember⟩ := of_mem_tabStopName hmem
  · exact hc hunderscore
  · rw [hword] at hmember
    cases hmember

/-- A name has no dollar. -/
theorem dollar_notMem_tabStopName (name : Text) : '$' ∉ tabStopName name :=
  notMem_tabStopName (by decide) (by decide) name

/-- A name has no capitals, so it differs from any that has. -/
theorem tabStopName_ne {other : Text} (h : ∃ c ∈ other, c.isUpper = true) (name : Text) :
    tabStopName name ≠ other := by
  rintro rfl
  obtain ⟨c, hc, hupper⟩ := h
  obtain rfl | ⟨hlower, -⟩ := of_mem_tabStopName hc
  · exact absurd hupper (by decide)
  · rw [Text.isUpper_of_mem_lower hlower] at hupper
    cases hupper

/-- The character of a tab stop's name for a character of an attribute's name. -/
def tabStopChar (c : Char) : Char :=
  if Text.isWord c then c else '_'

/-- Whether all characters of words in a name are ASCII in lower case. The others do not matter, as
underscores stand for them. -/
def AsciiWords (name : Text) : Prop :=
  ∀ c ∈ Text.lower name, Text.isWord c = true → c.toNat < 128

instance (name : Text) : Decidable (AsciiWords name) :=
  List.decidableBAll _ _

/-- A name in ASCII is in ASCII in lower case as well. -/
theorem asciiWords_of_ascii {name : Text} (h : ∀ c ∈ name, c.toNat < 128) : AsciiWords name := by
  have hlower : ∀ n < 128, (Char.ofNat n).toLower.toNat < 128 := by decide
  intro c hc _
  rw [Text.lower_of_ascii h] at hc
  obtain ⟨d, hd, rfl⟩ := List.mem_map.1 hc
  have hd := hlower d.toNat (h d hd)
  rwa [Char.ofNat_toNat] at hd

/-- All characters of names of markers are ASCII. -/
theorem toNat_lt_of_isNamePart {c : Char} (h : isNamePart c = true) : c.toNat < 128 := by
  have hc : c.val.toNat = c.toNat := rfl
  have hupper : 'Z'.val.toNat = 90 := rfl
  have hlower : 'z'.val.toNat = 122 := rfl
  have hdigit : '9'.val.toNat = 57 := rfl
  unfold isNamePart at h
  rcases Bool.or_eq_true_iff.1 h with h | h
  · unfold Char.isAlphanum Char.isAlpha Char.isUpper Char.isLower Char.isDigit at h
    simp only [Bool.or_eq_true, Bool.and_eq_true, decide_eq_true_eq, ge_iff_le,
      UInt32.le_iff_toNat_le] at h
    omega
  · rw [eq_of_beq h]
    decide

/-- A word's character stands in the name as it is in lower case. -/
theorem mem_tabStopName {name : Text} {c : Char} (hc : c ∈ Text.lower name)
    (hword : Text.isWord c = true) : c ∈ tabStopName name := by
  have hbody : c ∈ (Text.lower name).map fun c => if Text.isWord c then c else '_' :=
    List.mem_map.2 ⟨c, hc, if_pos hword⟩
  unfold tabStopName
  dsimp only
  split
  · next hnil =>
    rw [hnil] at hbody
    cases hbody
  · split
    · exact List.mem_cons_of_mem _ hbody
    · exact hbody

/-- A name of a marker may have the characters of a tab stop's name, as far as they are ASCII, and
it may start with those that are no digits. -/
theorem isNamePart_tabStopChar {c : Char} (h : Text.isWord c = true → c.toNat < 128) :
    isNamePart (tabStopChar c) = true ∧
      (Text.isDigit (tabStopChar c) = false → isNameStart (tabStopChar c) = true) := by
  unfold tabStopChar
  split
  · next hword =>
    have hall : ∀ n < 128, Text.isWord (Char.ofNat n) = true →
        isNamePart (Char.ofNat n) = true ∧
          (Text.isDigit (Char.ofNat n) = false → isNameStart (Char.ofNat n) = true) := by
      decide
    have hc := hall c.toNat (h hword)
    rw [Char.ofNat_toNat] at hc
    exact hc hword
  · decide

/-- A marker can have the name of a tab stop exactly if the words in the attribute's name are
ASCII. -/
theorem isName_tabStopName_iff {name : Text} :
    isName (tabStopName name) = true ↔ AsciiWords name := by
  constructor
  · intro h c hc hword
    exact toNat_lt_of_isNamePart (isNamePart_of_isName h c (mem_tabStopName hc hword))
  · intro h
    have hparts : ∀ c ∈ (Text.lower name).map tabStopChar, isNamePart c = true :=
      List.forall_mem_map.2 fun c hc => (isNamePart_tabStopChar (h c hc)).1
    have hstart : ∀ c ∈ (Text.lower name).map tabStopChar,
        Text.isDigit c = false → isNameStart c = true :=
      List.forall_mem_map.2 fun c hc => (isNamePart_tabStopChar (h c hc)).2
    unfold tabStopName
    dsimp only
    rw [show (fun c => if Text.isWord c then c else '_') = tabStopChar from rfl]
    generalize (Text.lower name).map tabStopChar = body at hparts hstart
    cases body with
    | nil => decide
    | cons c rest =>
      have hall : (c :: rest).all isNamePart = true := List.all_eq_true.2 hparts
      dsimp only
      split
      · show (isNameStart '_' && (isNamePart '_' && (c :: rest).all isNamePart)) = true
        rw [hall]
        decide
      · next hdigit =>
        show (isNameStart c && (c :: rest).all isNamePart) = true
        rw [hall, hstart c List.mem_cons_self (by simpa using hdigit)]
        rfl

/-- A tab stop with a character after it. If no marker can have the name, the text shows what was
written for it. -/
def tabStopFragment (name : Text) (after : Char) : Fragment :=
  if isName name then (startMarker name).concat (plain [after])
  else plain (markerSource name ++ [after])

/-- What is shown for a tab stop: nothing, unless no marker can have the name. -/
theorem text_tabStopFragment (name : Text) (after : Char) :
    (tabStopFragment name after).text =
      (if isName name then [] else markerSource name) ++ [after] := by
  unfold tabStopFragment
  split
  · rfl
  · rfl

/-- The sign of a quote ends a name. -/
theorem reads_tabStop (name : Text) (quote : Quote) :
    Reads (markerSource (tabStopName name) ++ [quote.sign])
      (tabStopFragment (tabStopName name) quote.sign) := by
  have hsign : quote.sign ≠ '$' := by cases quote <;> decide
  have hpart : isNamePart quote.sign = false := by cases quote <;> decide
  exact reads_marker_char (tabStopName_ne_nil name) (dollar_notMem_tabStopName name) hsign hpart

/-- A text with its dollars doubled and another character replaced. -/
theorem reads_replaceChar_escapeDollars {old : Char} (hold : old ≠ '$') {new : Text}
    (hnew : '$' ∉ new) (t : Text) :
    Reads (Text.replaceChar old new (escapeDollars t)) (plain (Text.replaceChar old new t)) := by
  unfold escapeDollars Text.replaceChar
  rw [List.flatMap_assoc]
  refine reads_flatMap_plain ?_
  intro c _
  by_cases hc : c = '$'
  · have hne : ¬ '$' = old := fun h => hold h.symm
    rw [if_pos hc, hc, if_neg hne]
    simpa [hne] using reads_doubleDollar
  · rw [if_neg hc, List.flatMap_singleton]
    split
    · exact reads_plain hnew
    · exact reads_char hc

variable {f g : Fragment}

/-- All markers are tab stops of attributes. -/
def OnlyTabStops (f : Fragment) : Prop :=
  ∀ m ∈ f.markers, ∃ name, m.name = tabStopName name

/-- Without markers, all are tab stops. -/
theorem onlyTabStops_plain (t : Text) : OnlyTabStops (plain t) := by
  rintro m ⟨⟩

/-- The marker of a tab stop. -/
theorem onlyTabStops_startMarker (name : Text) : OnlyTabStops (startMarker (tabStopName name)) := by
  intro m hm
  obtain rfl := List.mem_singleton.1 hm
  exact ⟨name, rfl⟩

/-- Tab stops one after the other. -/
theorem OnlyTabStops.concat (hf : OnlyTabStops f) (hg : OnlyTabStops g) :
    OnlyTabStops (f.concat g) := by
  intro m hm
  rcases List.mem_append.1 hm with hm | hm
  · exact hf m hm
  · obtain ⟨n, hn, rfl⟩ := List.mem_map.1 hm
    exact hg n hn

/-- Tab stops of many parts. -/
theorem onlyTabStops_foldr {α : Type} {part : α → Fragment} (h : ∀ a, OnlyTabStops (part a))
    (l : List α) : OnlyTabStops (l.foldr (fun a f => (part a).concat f) empty) := by
  induction l with
  | nil => exact onlyTabStops_plain []
  | cons a l ih => exact (h a).concat ih

/-- A tab stop with a character after it, or what was written for it. -/
theorem onlyTabStops_tabStopFragment (name : Text) (after : Char) :
    OnlyTabStops (tabStopFragment (tabStopName name) after) := by
  unfold tabStopFragment
  split
  · exact (onlyTabStops_startMarker name).concat (onlyTabStops_plain _)
  · exact onlyTabStops_plain _

/-- Carets of parts add up. -/
theorem endCount_concat (f g : Fragment) : (f.concat g).endCount = f.endCount + g.endCount := by
  rw [endCount, concat, List.countP_append, List.countP_map, endCount, endCount]
  rfl

/-- A tab stop is no caret. -/
theorem OnlyTabStops.endCount (h : OnlyTabStops f) : f.endCount = 0 := by
  unfold Fragment.endCount
  rw [List.countP_eq_zero]
  intro m hm hend
  obtain ⟨name, hname⟩ := h m hm
  exact tabStopName_ne ⟨'E', by decide, by decide⟩ name (hname.symm.trans (of_decide_eq_true hend))

end Fragment

namespace Generator

/-! ## Attributes -/

/-- What an attribute shows for its value, given how a value is written that is not empty. -/
def shownValue (a : Attribute) (written : Text) : Text :=
  if a.value = [] then
    if isName (tabStopName a.name) then [] else markerSource (tabStopName a.name)
  else written

/-- What a tag shows between the quotes of an attribute. The quote is written as an entity there. -/
def tagValue (quote : Quote) (a : Attribute) : Text :=
  shownValue a (Text.replaceChar quote.sign quote.entity a.value)

/-- There is no quote in what is shown for a value, if there is none in how it is written. -/
theorem sign_notMem_shownValue (quote : Quote) (a : Attribute) {written : Text}
    (h : quote.sign ∉ written) : quote.sign ∉ shownValue a written := by
  have hsign : quote.sign ≠ '_' ∧ quote.sign ≠ '$' ∧ Text.isWord quote.sign = false := by
    cases quote <;> decide
  unfold shownValue
  split_ifs
  · exact List.not_mem_nil
  · have hname := notMem_tabStopName hsign.1 hsign.2.2 a.name
    simp [markerSource, hname, hsign.2.1]
  · exact h

/-- There is no quote between the quotes of an attribute in a tag. -/
theorem sign_notMem_tagValue (quote : Quote) (a : Attribute) : quote.sign ∉ tagValue quote a := by
  have hentity : quote.sign ∉ quote.entity := by cases quote <;> decide
  exact sign_notMem_shownValue quote a (Text.notMem_replaceChar hentity (.inl rfl))

/-- The value of an attribute, in quotes. -/
def valueFragment (quote : Quote) (a : Attribute) : Fragment :=
  (plain [quote.sign]).concat
    (if a.value = [] then tabStopFragment (tabStopName a.name) quote.sign
    else plain (Text.replaceChar quote.sign quote.entity a.value ++ [quote.sign]))

/-- A value in quotes, wherever it stands. -/
theorem reads_quotedValue (quote : Quote) (a : Attribute) :
    Reads (quotedValue quote a) (valueFragment quote a) := by
  have hsign : quote.sign ≠ '$' := by cases quote <;> decide
  have hentity : '$' ∉ quote.entity := by cases quote <;> decide
  unfold quotedValue valueFragment
  dsimp only
  refine (reads_char hsign).append ?_
  split
  · exact reads_tabStop a.name quote
  · exact (reads_replaceChar_escapeDollars hsign hentity a.value).append (reads_char hsign)

/-- An attribute in a tag. -/
def attributeFragment (quote : Quote) (a : Attribute) : Fragment :=
  (plain (' ' :: a.name ++ ['='])).concat (valueFragment quote a)

/-- Attributes in a tag. -/
def attributesFragment (quote : Quote) (attributes : List Attribute) : Fragment :=
  attributes.foldr (fun a f => (attributeFragment quote a).concat f) empty

/-- An attribute as a tag shows it. -/
def tagAttribute (quote : Quote) (a : Attribute) : Text :=
  ' ' :: a.name ++ '=' :: quote.sign :: tagValue quote a ++ [quote.sign]

/-- The text of an attribute in a tag. -/
theorem text_attributeFragment (quote : Quote) (a : Attribute) :
    (attributeFragment quote a).text = tagAttribute quote a := by
  have hvalue : (valueFragment quote a).text =
      quote.sign :: tagValue quote a ++ [quote.sign] := by
    unfold valueFragment tagValue shownValue
    split
    · rw [concat, text_tabStopFragment]
      rfl
    · rfl
  unfold attributeFragment tagAttribute
  rw [concat, hvalue]
  simp [plain]

/-- The text of the attributes in a tag. -/
theorem text_attributesFragment (quote : Quote) (attributes : List Attribute) :
    (attributesFragment quote attributes).text = attributes.flatMap (tagAttribute quote) := by
  induction attributes with
  | nil => rfl
  | cons a rest ih =>
    rw [List.flatMap_cons, ← text_attributeFragment, ← ih]
    rfl

/-- Attributes, wherever they stand. -/
theorem reads_attributesSource (quote : Quote) (attributes : List Attribute) :
    Reads (attributesSource quote attributes) (attributesFragment quote attributes) := by
  refine reads_flatMap ?_
  intro a _
  have hname : Reads (' ' :: escapeDollars a.name ++ ['=']) (plain (' ' :: a.name ++ ['='])) :=
    ((reads_char (by decide)).append (reads_escapeDollars a.name)).append (reads_char (by decide))
  have hall := hname.append (reads_quotedValue quote a)
  rwa [List.append_assoc, List.singleton_append] at hall

/-! ## Elements with tags -/

/-- An element with tags. -/
def taggedFragment (g : Generator) (key : Text) (attributes : List Attribute) (node : Node) :
    Fragment :=
  let start := (plain ('<' :: key)).concat (attributesFragment g.profile.quote attributes)
  if g.isVoid key node then
    (start.concat (plain g.profile.closing.tagEnd)).concat (startMarker Marker.endName)
  else
    ((start.concat (plain ['>'])).concat (startMarker Marker.endName)).concat
      (plain ('<' :: '/' :: key ++ ['>']))

/-- What an element with tags is read as. -/
theorem ofSource_taggedSource (g : Generator) (key : Text) (attributes : List Attribute)
    (node : Node) :
    Fragment.ofSource (g.taggedSource key attributes node) =
      g.taggedFragment key attributes node := by
  have hend : Reads endSource (startMarker Marker.endName) := reads_marker (by decide)
  have hstart : Reads ('<' :: escapeDollars key ++ attributesSource g.profile.quote attributes)
      ((plain ('<' :: key)).concat (attributesFragment g.profile.quote attributes)) :=
    ((reads_char (by decide)).append (reads_escapeDollars key)).append
      (reads_attributesSource _ _)
  refine Reads.ofSource ?_
  unfold taggedSource taggedFragment
  dsimp only
  split
  · have htag : Reads g.profile.closing.tagEnd (plain g.profile.closing.tagEnd) := by
      refine reads_plain ?_
      cases g.profile.closing <;> decide
    exact (hstart.append htag).append hend
  · have hclose : Reads ('<' :: '/' :: escapeDollars key ++ ['>'])
        (plain ('<' :: '/' :: key ++ ['>'])) :=
      ((reads_plain (t := ['<', '/']) (by decide)).append (reads_escapeDollars key)).append
        (reads_char (by decide))
    have hall := ((hstart.append (reads_char (c := '>') (by decide))).append hend).append hclose
    simpa only [List.append_assoc, List.cons_append, List.nil_append] using hall

/-! ## Elements in HAML -/

/-- The id or the classes of an element in HAML. -/
def hamlSelectorFragment (a : Attribute) : Fragment :=
  if Text.lower a.name = "id".toList then
    (plain ['#']).concat
      (if a.value = [] then startMarker (tabStopName a.name) else plain a.value)
  else if Text.lower a.name = "class".toList then
    (plain ['.']).concat
      (if a.value = [] then startMarker (tabStopName a.name)
      else plain (Text.replaceChar ' ' ['.'] a.value))
  else empty

/-- The ids and classes of an element in HAML. -/
def hamlSelectorsFragment (attributes : List Attribute) : Fragment :=
  attributes.foldr (fun a f => (hamlSelectorFragment a).concat f) empty

/-- Ids and classes, wherever they stand. -/
theorem reads_hamlSelectors (attributes : List Attribute) :
    Reads (hamlSelectors attributes) (hamlSelectorsFragment attributes) := by
  -- Unlike others, these two names are always names that a marker can have.
  have hmarker (name : Text) {lower : Text} (hlower : tabStopName name = lower)
      (hname : isName lower = true) :
      Reads (markerSource (tabStopName name)) (startMarker (tabStopName name)) := by
    rw [hlower]
    exact reads_marker hname
  refine reads_flatMap ?_
  intro a _
  unfold hamlSelectorFragment hamlValue
  by_cases hid : Text.lower a.name = "id".toList
  · have htab : tabStopName a.name = "id".toList := by
      unfold tabStopName
      rw [hid]
      decide
    rw [if_pos hid, if_pos hid]
    exact (reads_ite (hmarker a.name htab (by decide)) (reads_escapeDollars a.value)).cons
      (by decide)
  rw [if_neg hid, if_neg hid]
  by_cases hclass : Text.lower a.name = "class".toList
  · have htab : tabStopName a.name = "class".toList := by
      unfold tabStopName
      rw [hclass]
      decide
    have hspaces : Text.replaceChar ' ' ['.'] (markerSource (tabStopName a.name)) =
        markerSource (tabStopName a.name) := by
      rw [htab]
      decide
    rw [if_pos hclass, if_pos hclass, apply_ite (Text.replaceChar ' ' ['.']), hspaces]
    exact (reads_ite (hmarker a.name htab (by decide))
      (reads_replaceChar_escapeDollars (by decide) (by decide) a.value)).cons (by decide)
  · rw [if_neg hclass, if_neg hclass]
    exact reads_nil

/-- Another attribute of an element in HAML. -/
def hamlOtherFragment (quote : Quote) (a : Attribute) : Fragment :=
  (plain (':' :: Text.lower a.name ++ " => ".toList ++ [quote.sign])).concat
    (if a.value = [] then tabStopFragment (tabStopName a.name) quote.sign
    else plain (a.value ++ [quote.sign]))

/-- The other attributes of an element in HAML, between commas. -/
def hamlOthersFragment (quote : Quote) : List Attribute → Fragment
  | [] => empty
  | [a] => hamlOtherFragment quote a
  | a :: b :: rest =>
    (hamlOtherFragment quote a).concat
      ((plain ", ".toList).concat (hamlOthersFragment quote (b :: rest)))

/-- Whether an attribute is no id and no class. -/
def isHamlOther (a : Attribute) : Bool :=
  Text.lower a.name ≠ "id".toList && Text.lower a.name ≠ "class".toList

/-- The source of another attribute. -/
def hamlOtherSource (quote : Quote) (a : Attribute) : Text :=
  ':' :: escapeDollars (Text.lower a.name) ++ " => ".toList ++ quote.sign :: hamlValue a ++
    [quote.sign]

/-- Another attribute, wherever it stands. -/
theorem reads_hamlOther (quote : Quote) (a : Attribute) :
    Reads (hamlOtherSource quote a) (hamlOtherFragment quote a) := by
  have hsign : quote.sign ≠ '$' := by cases quote <;> decide
  have hname : Reads (':' :: escapeDollars (Text.lower a.name) ++ " => ".toList ++ [quote.sign])
      (plain (':' :: Text.lower a.name ++ " => ".toList ++ [quote.sign])) :=
    (((reads_escapeDollars _).cons (by decide)).append (reads_plain (by decide))).append
      (reads_char hsign)
  have hvalue : Reads (hamlValue a ++ [quote.sign])
      (if a.value = [] then tabStopFragment (tabStopName a.name) quote.sign
      else plain (a.value ++ [quote.sign])) := by
    unfold hamlValue
    split
    · exact reads_tabStop a.name quote
    · exact (reads_escapeDollars a.value).append (reads_char hsign)
  have hall := hname.append hvalue
  rwa [← List.append_assoc, List.append_assoc _ [quote.sign], List.singleton_append] at hall

/-- Other attributes, wherever they stand. -/
theorem reads_hamlOthers (quote : Quote) (attributes : List Attribute) :
    Reads (Text.join ", ".toList (hamlOthers quote attributes))
      (hamlOthersFragment quote (attributes.filter isHamlOther)) := by
  have hothers : hamlOthers quote attributes =
      (attributes.filter isHamlOther).map (hamlOtherSource quote) := rfl
  rw [hothers]
  induction attributes.filter isHamlOther with
  | nil => exact reads_nil
  | cons a rest ih =>
    cases rest with
    | nil =>
      rw [List.map_singleton, Text.join_singleton]
      exact reads_hamlOther quote a
    | cons b rest =>
      have hcomma : Reads ", ".toList (plain ", ".toList) := reads_plain (by decide)
      rw [List.map_cons, List.map_cons, Text.join_cons_cons]
      exact (reads_hamlOther quote a).append (hcomma.append ih)

/-- What an element in HAML begins with: its name, unless an id or a class says enough. -/
def hamlName (g : Generator) (key : Text) (attributes : List Attribute) : Text :=
  if '%' :: escapeDollars (Text.lower key) = "%div".toList &&
      !(hamlSelectors attributes).isEmpty && (hamlOthers g.profile.quote attributes).isEmpty then []
  else '%' :: Text.lower key

/-- An element in HAML. -/
def hamlFragment (g : Generator) (key : Text) (attributes : List Attribute) (node : Node) :
    Fragment :=
  let braces :=
    if (hamlOthers g.profile.quote attributes).isEmpty then empty
    else ((plain ['{']).concat
      (hamlOthersFragment g.profile.quote (attributes.filter isHamlOther))).concat (plain ['}'])
  let slash := if voidElements.contains (Text.lower key) && node.children.isEmpty then ['/'] else []
  (((((plain (g.hamlName key attributes)).concat (hamlSelectorsFragment attributes)).concat
    braces).concat (plain slash)).concat (startMarker Marker.endName)).concat (plain ['\n'])

/-- What an element in HAML is read as. -/
theorem ofSource_hamlSource (g : Generator) (key : Text) (attributes : List Attribute)
    (node : Node) :
    Fragment.ofSource (g.hamlSource key attributes node) = g.hamlFragment key attributes node := by
  have hend : Reads endSource (startMarker Marker.endName) := reads_marker (by decide)
  have hbreak : Reads ['\n'] (plain ['\n']) := reads_char (by decide)
  have hname : Reads (if '%' :: escapeDollars (Text.lower key) = "%div".toList &&
        !(hamlSelectors attributes).isEmpty && (hamlOthers g.profile.quote attributes).isEmpty
      then [] else '%' :: escapeDollars (Text.lower key)) (plain (g.hamlName key attributes)) := by
    unfold hamlName
    split
    · exact reads_nil
    · exact (reads_escapeDollars _).cons (by decide)
  have hbraces : Reads (if (hamlOthers g.profile.quote attributes).isEmpty then []
        else '{' :: Text.join ", ".toList (hamlOthers g.profile.quote attributes) ++ ['}'])
      (if (hamlOthers g.profile.quote attributes).isEmpty then empty
        else ((plain ['{']).concat
          (hamlOthersFragment g.profile.quote (attributes.filter isHamlOther))).concat
            (plain ['}'])) :=
    reads_ite reads_nil
      (((reads_hamlOthers _ attributes).cons (by decide)).append (reads_char (by decide)))
  have hslash : Reads (if voidElements.contains (Text.lower key) && node.children.isEmpty
        then ['/'] else [])
      (plain (if voidElements.contains (Text.lower key) && node.children.isEmpty
        then ['/'] else [])) := by
    split
    · exact reads_char (by decide)
    · exact reads_nil
  exact Reads.ofSource (((((hname.append (reads_hamlSelectors attributes)).append hbraces).append
    hslash).append hend).append hbreak)

/-! ## Markers in sources -/

/-- The attributes in a tag bring tab stops only. -/
theorem onlyTabStops_attributesFragment (quote : Quote) (attributes : List Attribute) :
    OnlyTabStops (attributesFragment quote attributes) := by
  refine onlyTabStops_foldr ?_ attributes
  intro a
  refine (onlyTabStops_plain _).concat ((onlyTabStops_plain _).concat ?_)
  split
  · exact onlyTabStops_tabStopFragment a.name quote.sign
  · exact onlyTabStops_plain _

/-- The ids and classes in HAML bring tab stops only. -/
theorem onlyTabStops_hamlSelectorsFragment (attributes : List Attribute) :
    OnlyTabStops (hamlSelectorsFragment attributes) := by
  refine onlyTabStops_foldr ?_ attributes
  intro a
  unfold hamlSelectorFragment
  split_ifs
  · exact (onlyTabStops_plain _).concat (onlyTabStops_startMarker a.name)
  · exact (onlyTabStops_plain _).concat (onlyTabStops_plain _)
  · exact (onlyTabStops_plain _).concat (onlyTabStops_startMarker a.name)
  · exact (onlyTabStops_plain _).concat (onlyTabStops_plain _)
  · exact onlyTabStops_plain []

/-- The other attributes in HAML bring tab stops only. -/
theorem onlyTabStops_hamlOthersFragment (quote : Quote) (attributes : List Attribute) :
    OnlyTabStops (hamlOthersFragment quote attributes) := by
  have hone (a : Attribute) : OnlyTabStops (hamlOtherFragment quote a) := by
    refine (onlyTabStops_plain _).concat ?_
    split
    · exact onlyTabStops_tabStopFragment a.name quote.sign
    · exact onlyTabStops_plain _
  fun_induction hamlOthersFragment quote attributes with
  | case1 => exact onlyTabStops_plain []
  | case2 a => exact hone a
  | case3 a b rest ih => exact (hone a).concat ((onlyTabStops_plain _).concat ih)

end Generator

end Abbrev
