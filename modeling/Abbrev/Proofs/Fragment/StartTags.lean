import Abbrev.Fragment.StartTag
import Abbrev.Proofs.Fragment.TagReader
import Mathlib.Data.List.TakeWhile

/-!
# Finding start tags and the names in them

A snippet is searched for its first start tag, and the tag for the names of its attributes, by
patterns that know nothing of quotes. Where a tag has no angle brackets inside, what is found is the
tag up to its end (`StartTag.find?_openTag`); and where no value reads like an attribute, the names
that are found are those of the attributes (`StartTag.attributeNames_openTag`). Such a tag is an
`OpenTag.Plain`.
-/

namespace Abbrev

namespace StartTag

variable {s t rest name after : Text} {c : Char}

/-! ## Names of attributes -/

/-- A property of all blanks can be checked in their table. -/
theorem of_isBlank {p : Char → Bool} (hblank : Text.isBlank c = true)
    (h : ∀ r ∈ Text.blankRanges, ∀ i < r.2 - r.1 + 1, p (Char.ofNat (r.1 + i)) = true) :
    p c = true :=
  Text.of_inRanges hblank h

/-- A blank is no part of a name. -/
theorem isAttributePart_of_isBlank (h : Text.isBlank c = true) : isAttributePart c = false := by
  have hpart := of_isBlank (p := fun c => !isAttributePart c) h (by decide +kernel)
  simpa using hpart

/-- A name is found after a blank if an equals sign follows. -/
theorem attributeNames_found (hblank : Text.isBlank c = true)
    (h : attribute? rest = some (name, after)) :
    attributeNames (c :: rest) = name :: attributeNames after := by
  rw [attributeNames, if_pos hblank]
  split
  · next hfound =>
    rw [h] at hfound
    obtain ⟨rfl, rfl⟩ := Prod.mk.inj (Option.some.inj hfound)
    rfl
  · next hnone =>
    rw [h] at hnone
    cases hnone

/-- Where no name is found, the search goes on behind the next character. -/
theorem attributeNames_skip (h : Text.isBlank c = true → attribute? rest = none) :
    attributeNames (c :: rest) = attributeNames rest := by
  rw [attributeNames]
  split
  · next hblank =>
    split
    · next hfound =>
      rw [h hblank] at hfound
      cases hfound
    · rfl
  · rfl

/-- Without blanks, there is nothing to be found. -/
theorem attributeNames_append_of_no_blank (h : ∀ c ∈ s, Text.isBlank c = false) (t : Text) :
    attributeNames (s ++ t) = attributeNames t := by
  induction s with
  | nil => rfl
  | cons c s ih =>
    obtain ⟨hc, hs⟩ := List.forall_mem_cons.1 h
    rw [List.cons_append, attributeNames_skip fun hblank => by simp [hc] at hblank, ih hs]

section Stop

variable {p : Char → Bool}

/-- Taking stops before a character that does not belong to what is taken. -/
theorem takeWhile_append_stop (hc : p c = false) (s t : Text) :
    (s ++ c :: t).takeWhile p = s.takeWhile p := by
  induction s with
  | nil => simp [hc]
  | cons d s ih => simp [List.takeWhile_cons, ih]

/-- So does leaving out. -/
theorem dropWhile_append_stop (hc : p c = false) (s t : Text) :
    (s ++ c :: t).dropWhile p = s.dropWhile p ++ c :: t := by
  induction s with
  | nil => simp [hc]
  | cons d s ih =>
    rw [List.cons_append, List.dropWhile_cons, List.dropWhile_cons, ih]
    split <;> rfl

end Stop

/-- A character that is no blank, no equals sign and no part of a name separates attributes. -/
structure Separates (c : Char) : Prop where
  blank : Text.isBlank c = false
  part : isAttributePart c = false
  equals : c ≠ '='

/-- What stands at the start of a text besides an equals sign is no value of an attribute. -/
theorem attribute?_eq_none (h : ∀ u, Text.trimLeft (t.dropWhile isAttributePart) ≠ '=' :: u) :
    attribute? t = none := by
  unfold attribute?
  dsimp only
  split
  · next after heq => exact absurd heq (h after)
  · rfl

/-- With an equals sign there, the attribute is what stands before it. -/
theorem attribute?_of_equals {u : Text}
    (h : Text.trimLeft (t.dropWhile isAttributePart) = '=' :: u) :
    attribute? t =
      if t.takeWhile isAttributePart = [] then none
      else some (t.takeWhile isAttributePart, u) := by
  unfold attribute?
  rw [h]
  rfl

/-- An attribute is found before such a character or not at all. -/
theorem attribute?_append (hc : Separates c) (s t : Text) :
    attribute? (s ++ c :: t) = (attribute? s).map fun found => (found.1, found.2 ++ c :: t) := by
  have hrest : Text.trimLeft ((s ++ c :: t).dropWhile isAttributePart) =
      Text.trimLeft (s.dropWhile isAttributePart) ++ c :: t := by
    rw [dropWhile_append_stop hc.part, Text.trimLeft, dropWhile_append_stop hc.blank]
    rfl
  -- Only an equals sign behind the first name and its blanks decides, and `c` is none.
  cases hbehind : Text.trimLeft (s.dropWhile isAttributePart) with
  | nil =>
    have hnone : attribute? s = none := attribute?_eq_none (by simp [hbehind])
    rw [hnone]
    refine attribute?_eq_none ?_
    simp [hrest, hbehind, hc.equals]
  | cons d u =>
    by_cases hd : d = '='
    · subst hd
      rw [hbehind] at hrest
      rw [attribute?_of_equals hbehind, attribute?_of_equals hrest, takeWhile_append_stop hc.part]
      split <;> rfl
    · have hnone : attribute? s = none := attribute?_eq_none (by simp [hbehind, hd])
      rw [hnone]
      refine attribute?_eq_none ?_
      simp [hrest, hbehind, hd]

/-- The names on both sides of such a character are found on their own. -/
theorem attributeNames_append (hc : Separates c) (s t : Text) :
    attributeNames (s ++ c :: t) = attributeNames s ++ attributeNames t := by
  fun_induction attributeNames s with
  | case1 => exact attributeNames_skip fun hblank => by simp [hc.blank] at hblank
  | case2 d rest hblank name after hfound ih =>
    have happend : attribute? (rest ++ c :: t) = some (name, after ++ c :: t) := by
      rw [attribute?_append hc, hfound]
      rfl
    rw [List.cons_append, attributeNames_found hblank happend, ih]
    rfl
  | case3 d rest hblank hnone ih =>
    have happend : attribute? (rest ++ c :: t) = none := by
      rw [attribute?_append hc, hnone]
      rfl
    rw [List.cons_append, attributeNames_skip fun _ => happend, ih]
  | case4 d rest hblank ih =>
    rw [List.cons_append, attributeNames_skip fun h => absurd h hblank, ih]

/-- There are no names in blanks. -/
theorem attributeNames_blanks (blanks : Blanks) : attributeNames blanks.text = [] := by
  obtain ⟨blanks, hblanks⟩ := blanks
  induction blanks with
  | nil => rw [attributeNames]
  | cons c blanks ih =>
    obtain ⟨-, hrest⟩ := List.forall_mem_cons.1 hblanks
    have hnone : Text.trimLeft (blanks.dropWhile isAttributePart) = [] := by
      rw [Text.trimLeft, List.dropWhile_eq_nil_iff]
      exact fun d hd => hrest d ((List.dropWhile_sublist _).subset hd)
    rw [attributeNames_skip fun _ => attribute?_eq_none (by simp [hnone])]
    exact ih hrest

/-- A name with its equals sign. -/
theorem attribute?_name (hne : name ≠ []) (h : ∀ c ∈ name, isAttributePart c = true)
    (blanks : Blanks) (after : Text) :
    attribute? (name ++ (blanks.text ++ '=' :: after)) = some (name, after) := by
  have hequals : isAttributePart '=' = false ∧ Text.isBlank '=' = false := by decide
  have hstop : (blanks.text ++ '=' :: after).takeWhile isAttributePart = [] ∧
      (blanks.text ++ '=' :: after).dropWhile isAttributePart = blanks.text ++ '=' :: after := by
    obtain ⟨blanks, hblanks⟩ := blanks
    cases blanks with
    | nil => simp [hequals]
    | cons c blanks =>
      have hc := isAttributePart_of_isBlank (hblanks c List.mem_cons_self)
      simp [hc]
  have htake : (name ++ (blanks.text ++ '=' :: after)).takeWhile isAttributePart = name := by
    rw [List.takeWhile_append_of_pos h, hstop.1, List.append_nil]
  have hdrop : Text.trimLeft ((name ++ (blanks.text ++ '=' :: after)).dropWhile isAttributePart) =
      '=' :: after := by
    rw [List.dropWhile_append_of_pos h, hstop.2, Text.trimLeft,
      List.dropWhile_append_of_pos blanks.blank, List.dropWhile_cons, hequals.2]
    rfl
  rw [attribute?_of_equals hdrop, htake, if_neg hne]

/-- There is no attribute before a name that stands behind blanks. -/
theorem attribute?_blanks {gap : Blanks} (hgap : gap.text ≠ []) (hc : isAttributePart c = true)
    (t : Text) : attribute? (gap.text ++ c :: t) = none := by
  have hblank : Text.isBlank c = false := by
    by_contra hblank
    rw [isAttributePart_of_isBlank (by simpa using hblank)] at hc
    cases hc
  have hdrop : Text.trimLeft ((gap.text ++ c :: t).dropWhile isAttributePart) = c :: t := by
    obtain ⟨gap, hblanks⟩ := gap
    cases gap with
    | nil => exact absurd rfl hgap
    | cons d gap =>
      have hd := isAttributePart_of_isBlank (hblanks d List.mem_cons_self)
      rw [List.cons_append, List.dropWhile_cons_of_neg (by simp [hd]), ← List.cons_append,
        Text.trimLeft, List.dropWhile_append_of_pos hblanks,
        List.dropWhile_cons_of_neg (by simp [hblank])]
  refine attribute?_eq_none fun u heq => ?_
  rw [hdrop] at heq
  have hequals : isAttributePart '=' = false := by decide
  rw [(List.cons.inj heq).1, hequals] at hc
  cases hc

/-- A name is found behind its blanks. -/
theorem attributeNames_name (hne : name ≠ []) (h : ∀ c ∈ name, isAttributePart c = true)
    {gap : Blanks} (hgap : gap.text ≠ []) (blanks : Blanks) (after : Text) :
    attributeNames (gap.text ++ (name ++ (blanks.text ++ '=' :: after))) =
      name :: attributeNames after := by
  obtain ⟨gap, hblanks⟩ := gap
  induction gap with
  | nil => exact absurd rfl hgap
  | cons c gap ih =>
    obtain ⟨hc, hrest⟩ := List.forall_mem_cons.1 hblanks
    by_cases hnil : gap = []
    · subst hnil
      exact attributeNames_found hc (attribute?_name hne h blanks after)
    · -- Only the last one of the blanks has the name right behind it.
      obtain ⟨d, others, rfl⟩ := List.exists_cons_of_ne_nil hne
      have hgap : (Blanks.mk gap hrest).text ≠ [] := hnil
      have hnone := attribute?_blanks hgap (h d List.mem_cons_self)
        (others ++ (blanks.text ++ '=' :: after))
      exact (attributeNames_skip fun _ => hnone).trans (ih hrest hnil)

end StartTag

/-! ## Plain tags -/

/-- The patterns see an attribute as it is: its name has the characters of names only, and there is
no angle bracket in its value, and nothing that reads like an attribute. -/
structure WrittenAttribute.Plain (w : WrittenAttribute) : Prop where
  name : ∀ c ∈ w.name, StartTag.isAttributePart c = true
  inside : ∀ c ∈ w.value.value, StartTag.isInside c = true
  unread : StartTag.attributeNames w.value.value = []

/-- The patterns see a tag as it is: all its attributes, and its end, as a slash there belongs to no
value. More attributes have their place behind the others. -/
structure OpenTag.Plain (tag : OpenTag) : Prop where
  gap : tag.gap.text = []
  second : tag.second = []
  attributes : ∀ w ∈ tag.first, w.Plain
  slash : ∀ w ∈ tag.first.getLast?, w.value.value.getLast? = some '/' → w.IsQuoted

namespace StartTag

variable {w : WrittenAttribute} {tag : OpenTag}

/-- A quote separates attributes, and so do the signs at the end of a tag. -/
theorem separates_sign (quote : Quote) : Separates quote.sign := by
  cases quote <;> exact ⟨by decide, by decide, by decide⟩

/-- In a plain attribute, its name is found. -/
theorem attributeNames_writtenAttribute (h : w.Plain) (rest : Text) :
    attributeNames (w.text ++ rest) = w.name :: attributeNames rest := by
  have htext : w.text ++ rest =
      w.gap.text ++ (w.name ++ (w.beforeEquals.text ++ '=' :: (w.value.text ++ rest))) := by
    simp only [WrittenAttribute.text, List.append_assoc, List.cons_append]
  rw [htext, attributeNames_name w.name_ne_nil h.name w.gap_ne_nil]
  have hunread := h.unread
  congr 1
  cases hvalue : w.value with
  | quoted gap quote value closed =>
    rw [hvalue] at hunread
    have hquoted : (WrittenValue.quoted gap quote value closed).text ++ rest =
        gap.text ++ quote.sign :: (value ++ quote.sign :: rest) := by
      simp only [WrittenValue.text, List.append_assoc, List.cons_append, List.nil_append]
    rw [hquoted, attributeNames_append (separates_sign quote), attributeNames_blanks,
      attributeNames_append (separates_sign quote), show attributeNames value = [] from hunread]
    rfl
  | bare value hne hchars =>
    exact attributeNames_append_of_no_blank (fun c hc => (isBareChar_iff.1 (hchars c hc)).1) rest

/-- In plain attributes one after the other, their names are found. -/
theorem attributeNames_writtenAttributes {l : List WrittenAttribute} (h : ∀ w ∈ l, w.Plain)
    (rest : Text) :
    attributeNames (l.flatMap WrittenAttribute.text ++ rest) =
      l.map WrittenAttribute.name ++ attributeNames rest := by
  induction l with
  | nil => rfl
  | cons w l ih =>
    obtain ⟨hw, hl⟩ := List.forall_mem_cons.1 h
    rw [List.flatMap_cons, List.append_assoc, attributeNames_writtenAttribute hw, ih hl]
    rfl

/-- There are no names in the end of a tag. -/
theorem attributeNames_tagEnd (e : TagEnd) : attributeNames e.text = [] := by
  have hslash : Separates '/' := ⟨by decide, by decide, by decide⟩
  have hend : Separates '>' := ⟨by decide, by decide, by decide⟩
  have hnil : attributeNames [] = [] := by rw [attributeNames]
  have hclose : attributeNames ['>'] = [] := by
    refine (attributeNames_append hend [] []).trans ?_
    rw [hnil, List.append_nil]
  unfold TagEnd.text
  split
  · rw [attributeNames_append hslash, attributeNames_blanks, hclose]
    rfl
  · rw [attributeNames_append hend, attributeNames_blanks, hnil]
    rfl

/-- In a plain tag, the names of its attributes are found. -/
theorem attributeNames_openTag (h : tag.Plain) :
    attributeNames (tag.left ++ tag.right) = tag.names := by
  have hname : ∀ c ∈ '<' :: tag.letter :: tag.name, Text.isBlank c = false := by
    refine List.forall_mem_cons.2 ⟨by decide, List.forall_mem_cons.2 ⟨?_, ?_⟩⟩
    · by_contra hblank
      have hletter := of_isBlank (p := fun c => !c.isAlpha) (by simpa using hblank)
        (by decide)
      simp [tag.letter_isAlpha] at hletter
    · exact fun c hc => (isTagChar_iff.1 (tag.name_chars c hc)).1
  have htext : tag.left ++ tag.right = '<' :: tag.letter :: tag.name ++
      (tag.first.flatMap WrittenAttribute.text ++ tag.close.text) := by
    simp only [OpenTag.left, OpenTag.right, h.gap, h.second, List.flatMap_nil, List.append_nil,
      List.nil_append, List.append_assoc, List.cons_append]
  rw [htext, attributeNames_append_of_no_blank hname,
    attributeNames_writtenAttributes h.attributes, attributeNames_tagEnd, OpenTag.names, h.second,
    List.append_nil, List.append_nil]

/-! ## Finding a tag -/

/-- Blanks are no angle brackets. -/
theorem isInside_of_isBlank (h : Text.isBlank c = true) : isInside c = true :=
  of_isBlank h (by decide)

/-- The characters of names are no angle brackets. -/
theorem isInside_of_isAttributePart (h : isAttributePart c = true) : isInside c = true := by
  have hless : isAttributePart '<' = false ∧ isAttributePart '>' = false := by decide
  unfold isInside
  rw [Bool.and_eq_true, bne_iff_ne, bne_iff_ne]
  constructor <;> rintro rfl <;> simp [hless] at h

/-- A plain attribute has no angle brackets. -/
theorem isInside_writtenAttribute (h : w.Plain) : ∀ c ∈ w.text, isInside c = true := by
  have hvalue : ∀ c ∈ w.value.text, isInside c = true := by
    have hinside := h.inside
    cases hform : w.value with
    | quoted gap quote value closed =>
      rw [hform] at hinside
      have hsign : isInside quote.sign = true := by cases quote <;> decide
      simp only [WrittenValue.text, List.mem_append, List.mem_cons, List.not_mem_nil, or_false]
      rintro c ((hc | rfl | hc) | rfl)
      · exact isInside_of_isBlank (gap.blank c hc)
      · exact hsign
      · exact hinside c hc
      · exact hsign
    | bare value hne hchars =>
      rw [hform] at hinside
      exact hinside
  have hequals : isInside '=' = true := by decide
  simp only [WrittenAttribute.text, List.mem_append, List.mem_cons]
  rintro c (((hc | hc) | hc) | rfl | hc)
  · exact isInside_of_isBlank (w.gap.blank c hc)
  · exact isInside_of_isAttributePart (h.name c hc)
  · exact isInside_of_isBlank (w.beforeEquals.blank c hc)
  · exact hequals
  · exact hvalue c hc

/-- What stands between the first letter of a plain tag and its end has no angle brackets. -/
theorem isInside_openTag (h : tag.Plain) :
    ∀ c ∈ tag.name ++ tag.first.flatMap WrittenAttribute.text ++
      (tag.close.blanks.text ++ if tag.close.slash then ['/'] else []), isInside c = true := by
  simp only [List.mem_append, List.mem_flatMap]
  rintro c ((hc | ⟨w, hw, hc⟩) | hc | hc)
  · obtain ⟨-, -, hless, hgreater⟩ := isTagChar_iff.1 (tag.name_chars c hc)
    simp [isInside, hless, hgreater]
  · exact isInside_writtenAttribute (h.attributes w hw) c hc
  · exact isInside_of_isBlank (tag.close.blanks.blank c hc)
  · split at hc
    · obtain rfl := List.mem_singleton.1 hc
      decide
    · cases hc

/-- Where no start tag begins, the search goes on behind the next character. -/
theorem findFrom?_skip {c d : Char} (h : ¬ (c = '<' ∧ d.isAlpha = true)) (offset : Nat) (t : Text) :
    findFrom? offset (c :: d :: t) = findFrom? (offset + 1) (d :: t) := by
  by_cases hc : c = '<'
  · subst hc
    simp [findFrom?, show d.isAlpha = false by simpa using h]
  · rw [findFrom?]
    intro _ _ heq
    exact absurd heq hc

/-- A slash at the end is left out with the blanks before it. -/
theorem withoutEnd_slash {inside : Text} (h : inside.reverse = '/' :: rest) :
    withoutEnd inside = (Text.trimLeft rest).reverse := by
  unfold withoutEnd
  rw [h]
  rfl

/-- Without a slash at the end, blanks are left out. -/
theorem withoutEnd_of_ne {inside : Text} (h : ∀ rest, inside.reverse ≠ '/' :: rest) :
    withoutEnd inside = (Text.trimLeft inside.reverse).reverse := by
  unfold withoutEnd
  split
  · next rest heq => exact absurd heq (h rest)
  · rfl

/-- Blanks and a slash at the end are left out. -/
theorem withoutEnd_append {core : Text}
    (h : ∀ c ∈ core.getLast?, Text.isBlank c = false ∧ c ≠ '/') (e : TagEnd) :
    withoutEnd (core ++ (e.blanks.text ++ if e.slash then ['/'] else [])) = core := by
  have hcore : Text.trimLeft core.reverse = core.reverse := by
    cases hlast : core.reverse with
    | nil => rfl
    | cons c rest =>
      have hc : c ∈ core.getLast? := by rw [← List.head?_reverse, hlast]; rfl
      exact List.dropWhile_cons_of_neg (by simp [(h c hc).1])
  have htrim : Text.trimLeft (e.blanks.text.reverse ++ core.reverse) = core.reverse := by
    rw [Text.trimLeft, List.dropWhile_append_of_pos fun c hc =>
      e.blanks.blank c (List.mem_reverse.1 hc)]
    exact hcore
  split
  · have hreverse : (core ++ (e.blanks.text ++ ['/'])).reverse =
        '/' :: (e.blanks.text.reverse ++ core.reverse) := by
      simp only [List.reverse_append, List.reverse_singleton, List.cons_append, List.nil_append]
    rw [withoutEnd_slash hreverse, htrim, List.reverse_reverse]
  · have hreverse : (core ++ (e.blanks.text ++ [])).reverse =
        e.blanks.text.reverse ++ core.reverse := by
      rw [List.append_nil, List.reverse_append]
    have hslash (rest : Text) : e.blanks.text.reverse ++ core.reverse ≠ '/' :: rest := by
      intro heq
      cases hblanks : e.blanks.text.reverse with
      | nil =>
        rw [hblanks, List.nil_append] at heq
        have hc : '/' ∈ core.getLast? := by rw [← List.head?_reverse, heq]; rfl
        exact (h '/' hc).2 rfl
      | cons c blanks =>
        rw [hblanks] at heq
        have hc : Text.isBlank c = true :=
          e.blanks.blank c (List.mem_reverse.1 (hblanks ▸ List.mem_cons_self))
        exact (TagReader.ne_of_isBlank hc).2.1 (List.cons.inj heq).1
    rw [withoutEnd_of_ne (hreverse ▸ hslash), hreverse, htrim, List.reverse_reverse]

/-- An attribute ends with what is written for its value. -/
theorem getLast?_writtenAttribute (w : WrittenAttribute) :
    w.text.getLast? = w.value.text.getLast? := by
  have hne : w.value.text ≠ [] := by
    cases w.value with
    | quoted gap quote value closed => simp [WrittenValue.text]
    | bare value hne hchars => exact hne
  have htext : w.text = w.gap.text ++ w.name ++ w.beforeEquals.text ++ ['='] ++ w.value.text := by
    rw [WrittenAttribute.text, List.append_assoc _ ['='], List.singleton_append]
  rw [htext, List.getLast?_append_of_ne_nil _ hne]

/-- What a plain tag has before its end, ends neither in a blank nor in a slash. -/
theorem getLast?_openTag (h : tag.Plain) :
    ∀ c ∈ (tag.name ++ tag.first.flatMap WrittenAttribute.text).getLast?,
      Text.isBlank c = false ∧ c ≠ '/' := by
  intro c hc
  rcases List.eq_nil_or_concat tag.first with hnone | ⟨others, w, hlast⟩
  · rw [hnone, List.flatMap_nil, List.append_nil] at hc
    obtain ⟨hblank, hslash, -⟩ := isTagChar_iff.1 (tag.name_chars c (List.mem_of_getLast? hc))
    exact ⟨hblank, hslash⟩
  · have hw : w ∈ tag.first.getLast? := by rw [hlast]; simp
    have hne : w.text ≠ [] := by simp [WrittenAttribute.text]
    rw [hlast, List.concat_eq_append, List.flatMap_append, List.flatMap_singleton,
      ← List.append_assoc, List.getLast?_append_of_ne_nil _ hne, getLast?_writtenAttribute] at hc
    have hslash := h.slash w hw
    cases hvalue : w.value with
    | quoted gap quote value closed =>
      rw [hvalue, WrittenValue.text, List.getLast?_concat] at hc
      obtain rfl := Option.some.inj hc
      cases quote <;> decide
    | bare value hne hchars =>
      rw [hvalue] at hc hslash
      refine ⟨(isBareChar_iff.1 (hchars c (List.mem_of_getLast? hc))).1, ?_⟩
      rintro rfl
      exact hslash hc value hne hchars hvalue

/-- A plain tag is found up to its end, and more attributes have their place before that. -/
theorem find?_openTag {before : Text} (hbefore : TagFree before) (h : tag.Plain) (after : Text) :
    find? (before ++ tag.left ++ (tag.right ++ after)) =
      some ⟨tag.left ++ tag.right, (before ++ tag.left).length⟩ := by
  generalize hcore : tag.name ++ tag.first.flatMap WrittenAttribute.text = core
  generalize hends : (tag.close.blanks.text ++ if tag.close.slash then ['/'] else []) = ends
  have hleft : tag.left = '<' :: tag.letter :: core := by
    rw [OpenTag.left, h.gap, ← hcore, List.append_nil, List.cons_append, List.cons_append]
  have hright : tag.right = ends ++ ['>'] := by
    rw [OpenTag.right, h.second, ← hends, TagEnd.text, List.flatMap_nil, List.nil_append,
      List.append_assoc]
    split <;> rfl
  have hinside : ∀ c ∈ core ++ ends, isInside c = true := by
    rw [← hcore, ← hends]
    exact isInside_openTag h
  have htext : before ++ tag.left ++ (tag.right ++ after) =
      before ++ '<' :: tag.letter :: (core ++ ends ++ '>' :: after) := by
    rw [hleft, hright]
    simp only [List.append_assoc, List.cons_append, List.nil_append]
  have htake : (core ++ ends ++ '>' :: after).takeWhile isInside = core ++ ends := by
    rw [takeWhile_append_stop (by decide), List.takeWhile_eq_self_iff]
    exact hinside
  have hdrop : (core ++ ends ++ '>' :: after).dropWhile isInside = '>' :: after := by
    rw [List.dropWhile_append_of_pos hinside, List.dropWhile_cons_of_neg (by decide)]
  have hend : withoutEnd (core ++ ends) = core := by
    rw [← hends]
    exact withoutEnd_append (hcore ▸ getLast?_openTag h) tag.close
  rw [htext, find?, hbefore.skip findFrom? fun offset _ _ t hcd => findFrom?_skip hcd offset t,
    findFrom?, tag.letter_isAlpha, htake, hdrop]
  dsimp only
  have hlength : 0 + before.length + 2 + core.length =
      (before ++ '<' :: tag.letter :: core).length := by
    simp only [List.length_append, List.length_cons]
    omega
  rw [hend, hleft, hright, hlength]
  simp only [List.append_assoc, List.cons_append]

end StartTag

end Abbrev
