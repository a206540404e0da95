import Abbrev.Profile
import Abbrev.Text.Lines
import Mathlib.Data.List.Chain

/-!
# Reading the attributes of a start tag

The attributes of a start tag are read character by character, as browsers do it: names up to an
equals sign, and values between quotes, in which all other characters stand for themselves, or
without quotes up to a blank (`TagReader.step`). What is read of a text is what is read of its first
start tag (`TagReader.firstTag?`).

A tag can be put together from parts that are read one after the other. `Passes r t found r'` says
that a reader that stands at `r` finds the attributes `found` in `t` and stands at `r'` then, and
with `Passes.append` parts add up. An attribute (`WrittenAttribute`) is over with what follows it,
as a value without quotes has no end of its own (`readFrom_writtenAttribute`), and so attributes one
after the other are all found (`readFrom_writtenAttributes`).
-/

namespace Abbrev

/-- Where a reader of a start tag stands, with what it has read of an attribute. -/
inductive TagReader where
  | tagName
  | between
  | inName (name : Text)
  | afterName (name : Text)
  | beforeValue (name : Text)
  | inQuotes (name : Text) (sign : Char) (value : Text)
  | inValue (name value : Text)

namespace TagReader

/-- The attributes that one more character completes, each as its name and its value, and where the
reader stands then. It stands nowhere once the tag is over. -/
def step : TagReader → Char → List (Text × Text) × Option TagReader
  | tagName, c =>
    if Text.isBlank c || c == '/' then ([], some between)
    else if c = '>' then ([], none)
    else ([], some tagName)
  | between, c =>
    if Text.isBlank c || c == '/' then ([], some between)
    else if c = '>' then ([], none)
    else ([], some (inName [c]))
  | inName name, c =>
    if c = '=' then ([], some (beforeValue name))
    else if Text.isBlank c then ([], some (afterName name))
    else if c = '/' then ([(name, [])], some between)
    else if c = '>' then ([(name, [])], none)
    else ([], some (inName (name ++ [c])))
  | afterName name, c =>
    if c = '=' then ([], some (beforeValue name))
    else if Text.isBlank c then ([], some (afterName name))
    else if c = '/' then ([(name, [])], some between)
    else if c = '>' then ([(name, [])], none)
    else ([(name, [])], some (inName [c]))
  | beforeValue name, c =>
    if Text.isBlank c then ([], some (beforeValue name))
    else if c = '"' ∨ c = '\'' then ([], some (inQuotes name c []))
    else if c = '>' then ([(name, [])], none)
    else ([], some (inValue name [c]))
  | inQuotes name sign value, c =>
    if c = sign then ([(name, value)], some between)
    else ([], some (inQuotes name sign (value ++ [c])))
  | inValue name value, c =>
    if Text.isBlank c then ([(name, value)], some between)
    else if c = '>' then ([(name, value)], none)
    else ([], some (inValue name (value ++ [c])))

/-- The attributes that a reader finds in what follows, if the tag comes to its end. -/
def readFrom : TagReader → Text → Option (List (Text × Text))
  | _, [] => none
  | r, c :: rest =>
    match r.step c with
    | (found, none) => some found
    | (found, some next) => (readFrom next rest).map (found ++ ·)

/-- The attributes of the first start tag in a text, each as its name and its value. A start tag
begins with a `<` and an ASCII letter. -/
def firstTag? : Text → Option (List (Text × Text))
  | '<' :: c :: rest => if c.isAlpha then readFrom .tagName rest else firstTag? (c :: rest)
  | _ :: rest => firstTag? rest
  | [] => none

variable {r r' r'' : TagReader} {s t rest : Text} {found more : List (Text × Text)} {c : Char}

/-! ## Parts of a tag -/

/-- A reader at `r` finds attributes in a text, and stands at `r'` then, whatever follows. -/
def Passes (r : TagReader) (t : Text) (found : List (Text × Text)) (r' : TagReader) : Prop :=
  ∀ rest, readFrom r (t ++ rest) = (readFrom r' rest).map (found ++ ·)

/-- Nothing is found in nothing. -/
theorem passes_nil (r : TagReader) : Passes r [] [] r := by
  intro rest
  exact Option.map_id'.symm ▸ rfl

/-- What is found in two parts. -/
theorem Passes.append (hs : Passes r s found r') (ht : Passes r' t more r'') :
    Passes r (s ++ t) (found ++ more) r'' := by
  intro rest
  rw [List.append_assoc, hs, ht, Option.map_map]
  congr 1
  funext l
  exact (List.append_assoc found more l).symm

/-- One character that is not the end of the tag. -/
theorem passes_char (h : r.step c = (found, some r')) : Passes r [c] found r' := by
  intro rest
  rw [List.singleton_append, readFrom, h]

/-- A text in which the reader does not move. -/
theorem passes_stay (h : ∀ c ∈ t, r.step c = ([], some r)) : Passes r t [] r := by
  induction t with
  | nil => exact passes_nil r
  | cons c t ih =>
    obtain ⟨hc, ht⟩ := List.forall_mem_cons.1 h
    exact (passes_char hc).append (ih ht)

/-- A text that the reader takes down. -/
theorem passes_collect {collect : Text → TagReader}
    (h : ∀ c ∈ t, ∀ taken, (collect taken).step c = ([], some (collect (taken ++ [c]))))
    (taken : Text) : Passes (collect taken) t [] (collect (taken ++ t)) := by
  induction t generalizing taken with
  | nil =>
    rw [List.append_nil]
    exact passes_nil _
  | cons c t ih =>
    obtain ⟨hc, ht⟩ := List.forall_mem_cons.1 h
    have hall := (passes_char (hc taken)).append (ih ht (taken ++ [c]))
    rwa [List.append_assoc] at hall

end TagReader

/-! ## Attributes as they are written -/

/-- A text of blanks only. -/
structure Blanks where
  text : Text
  blank : ∀ c ∈ text, Text.isBlank c = true

/-- No blanks. -/
def Blanks.none : Blanks :=
  ⟨[], List.forall_mem_nil _⟩

/-- One blank. -/
def Blanks.space : Blanks :=
  ⟨[' '], List.all_eq_true.1 (by decide)⟩

/-- Whether `c` may stand in the name of an attribute. -/
def isAttributeChar (c : Char) : Bool :=
  !Text.isBlank c && c != '=' && c != '/' && c != '>'

/-- Whether `c` may stand in a value without quotes. -/
def isBareChar (c : Char) : Bool :=
  !Text.isBlank c && c != '"' && c != '\'' && c != '=' && c != '<' && c != '>'

/-- What the characters of an attribute's name are not. -/
theorem isAttributeChar_iff {c : Char} :
    isAttributeChar c = true ↔ Text.isBlank c = false ∧ c ≠ '=' ∧ c ≠ '/' ∧ c ≠ '>' := by
  simp [isAttributeChar, and_assoc]

/-- What the characters of a value without quotes are not. -/
theorem isBareChar_iff {c : Char} :
    isBareChar c = true ↔
      Text.isBlank c = false ∧ c ≠ '"' ∧ c ≠ '\'' ∧ c ≠ '=' ∧ c ≠ '<' ∧ c ≠ '>' := by
  simp [isBareChar, and_assoc]

/-- A text ends a name or a value before it: it begins with a blank or with the end of the tag, or
with a slash, where that can be no part of what is before it. -/
def EndsWord (slash : Prop) (rest : Text) : Prop :=
  ∃ c t, rest = c :: t ∧ (Text.isBlank c = true ∨ c = '>' ∨ c = '/' ∧ slash)

/-- What may follow an equals sign for a value. -/
inductive WrittenValue where
  /-- A value in quotes, perhaps with blanks before it. -/
  | quoted (gap : Blanks) (quote : Quote) (value : Text) (closed : quote.sign ∉ value)
  /-- A value without quotes. -/
  | bare (value : Text) (ne_nil : value ≠ []) (chars : ∀ c ∈ value, isBareChar c = true)

namespace WrittenValue

/-- The value as it is written. -/
def text : WrittenValue → Text
  | quoted gap quote value _ => gap.text ++ quote.sign :: value ++ [quote.sign]
  | bare value _ _ => value

/-- The value itself. -/
def value : WrittenValue → Text
  | quoted _ _ value _ => value
  | bare value _ _ => value

end WrittenValue

/-- An attribute with a value as a tag may have it, with the blanks before it. -/
structure WrittenAttribute where
  gap : Blanks
  gap_ne_nil : gap.text ≠ []
  name : Text
  name_ne_nil : name ≠ []
  name_chars : ∀ c ∈ name, isAttributeChar c = true
  /-- The blanks before the equals sign. -/
  beforeEquals : Blanks
  value : WrittenValue

namespace WrittenAttribute

/-- The attribute as it is written. -/
def text (w : WrittenAttribute) : Text :=
  w.gap.text ++ w.name ++ w.beforeEquals.text ++ '=' :: w.value.text

/-- The name of the attribute and its value. -/
def entry (w : WrittenAttribute) : Text × Text :=
  (w.name, w.value.value)

/-- Whether the value stands in quotes. -/
def IsQuoted (w : WrittenAttribute) : Prop :=
  ∀ value ne_nil chars, w.value ≠ .bare value ne_nil chars

end WrittenAttribute

namespace TagReader

variable {r : TagReader} {rest : Text} {c : Char}

/-- A blank is none of the signs of a tag. -/
theorem ne_of_isBlank (h : Text.isBlank c = true) :
    c ≠ '=' ∧ c ≠ '/' ∧ c ≠ '>' := by
  have hsigns : Text.isBlank '=' = false ∧ Text.isBlank '/' = false ∧ Text.isBlank '>' = false := by
    decide
  refine ⟨?_, ?_, ?_⟩ <;> rintro rfl <;> simp [hsigns] at h

/-- Blanks are passed wherever the reader waits. -/
theorem passes_blanks (h : ∀ c, Text.isBlank c = true → r.step c = ([], some r)) (blanks : Blanks) :
    Passes r blanks.text [] r :=
  passes_stay fun c hc => h c (blanks.blank c hc)

/-- Between attributes, blanks do not matter. -/
theorem readFrom_between_blanks (blanks : Blanks) (rest : Text) :
    readFrom between (blanks.text ++ rest) = readFrom between rest := by
  have hpass : Passes between blanks.text [] between :=
    passes_blanks (fun c hc => by simp [step, hc]) blanks
  rw [hpass rest]
  exact Option.map_id'

/-- A name is taken down. -/
theorem passes_name {name : Text} (hne : name ≠ []) (h : ∀ c ∈ name, isAttributeChar c = true) :
    Passes between name [] (inName name) := by
  cases name with
  | nil => exact absurd rfl hne
  | cons c name =>
    obtain ⟨hc, hname⟩ := List.forall_mem_cons.1 h
    obtain ⟨hblank, -, hslash, hend⟩ := isAttributeChar_iff.1 hc
    have hfirst : Passes between [c] [] (inName [c]) :=
      passes_char (by simp [step, hblank, hslash, hend])
    refine hfirst.append (passes_collect ?_ [c])
    intro d hd taken
    obtain ⟨hblank, hequals, hslash, hend⟩ := isAttributeChar_iff.1 (hname d hd)
    simp [step, hblank, hequals, hslash, hend]

/-- After a name comes its equals sign, perhaps behind blanks. -/
theorem passes_equals (name : Text) (blanks : Blanks) :
    Passes (inName name) (blanks.text ++ ['=']) [] (beforeValue name) := by
  obtain ⟨blanks, hblanks⟩ := blanks
  cases blanks with
  | nil => exact passes_char (by simp [step])
  | cons c blanks =>
    obtain ⟨hc, hblanks⟩ := List.forall_mem_cons.1 hblanks
    have hwait (d : Char) (hd : Text.isBlank d = true) :
        (afterName name).step d = ([], some (afterName name)) := by
      simp [step, hd, (ne_of_isBlank hd).1]
    have hfirst : Passes (inName name) [c] [] (afterName name) :=
      passes_char (by simp [step, hc, (ne_of_isBlank hc).1])
    have hequals : Passes (afterName name) ['='] [] (beforeValue name) :=
      passes_char (by simp [step])
    exact hfirst.append ((passes_blanks hwait ⟨blanks, hblanks⟩).append hequals)

/-- A value in quotes is over with its second quote. -/
theorem passes_quoted (name : Text) (gap : Blanks) {quote : Quote} {value : Text}
    (h : quote.sign ∉ value) :
    Passes (beforeValue name) (gap.text ++ quote.sign :: value ++ [quote.sign]) [(name, value)]
      between := by
  have hsign : Text.isBlank quote.sign = false ∧ (quote.sign = '"' ∨ quote.sign = '\'') := by
    cases quote <;> decide
  have hgap : Passes (beforeValue name) gap.text [] (beforeValue name) :=
    passes_blanks (fun c hc => by simp [step, hc]) gap
  have hopen : Passes (beforeValue name) [quote.sign] [] (inQuotes name quote.sign []) :=
    passes_char (by simp [step, hsign])
  have hinside : Passes (inQuotes name quote.sign []) value []
      (inQuotes name quote.sign value) := by
    refine passes_collect ?_ []
    intro c hc taken
    have hne : c ≠ quote.sign := by
      rintro rfl
      exact h hc
    simp [step, hne]
  have hclose : Passes (inQuotes name quote.sign value) [quote.sign] [(name, value)] between :=
    passes_char (by simp [step])
  have hall := hgap.append (hopen.append (hinside.append hclose))
  simpa only [List.append_assoc, List.cons_append, List.nil_append] using hall

/-- A value without quotes is taken down. -/
theorem passes_bare (name : Text) {value : Text} (hne : value ≠ [])
    (h : ∀ c ∈ value, isBareChar c = true) :
    Passes (beforeValue name) value [] (inValue name value) := by
  cases value with
  | nil => exact absurd rfl hne
  | cons c value =>
    obtain ⟨hc, hvalue⟩ := List.forall_mem_cons.1 h
    obtain ⟨hblank, hdouble, hsingle, -, -, hend⟩ := isBareChar_iff.1 hc
    have hfirst : Passes (beforeValue name) [c] [] (inValue name [c]) :=
      passes_char (by simp [step, hblank, hdouble, hsingle, hend])
    refine hfirst.append (passes_collect ?_ [c])
    intro d hd taken
    obtain ⟨hblank, -, -, -, -, hend⟩ := isBareChar_iff.1 (hvalue d hd)
    simp [step, hblank, hend]

/-- A value without quotes is over before a blank and at the end of the tag. -/
theorem readFrom_inValue (name value : Text) (h : Text.isBlank c = true ∨ c = '>') (rest : Text) :
    readFrom (inValue name value) (c :: rest) =
      (readFrom between (c :: rest)).map ((name, value) :: ·) := by
  rcases h with hblank | rfl
  · simp [readFrom, step, hblank]
  · have hend : Text.isBlank '>' = false := by decide
    simp [readFrom, step, hend]

/-- An attribute is found where it is over before what follows. -/
theorem readFrom_writtenAttribute {w : WrittenAttribute} (h : EndsWord w.IsQuoted rest) :
    readFrom between (w.text ++ rest) = (readFrom between rest).map (w.entry :: ·) := by
  have hname := passes_name w.name_ne_nil w.name_chars
  have hbefore := (hname.append (passes_equals w.name w.beforeEquals))
  have htext : w.text ++ rest =
      w.gap.text ++ (w.name ++ (w.beforeEquals.text ++ ['=']) ++ (w.value.text ++ rest)) := by
    simp only [WrittenAttribute.text, List.append_assoc, List.cons_append, List.nil_append]
  rw [htext, readFrom_between_blanks, hbefore]
  unfold WrittenAttribute.entry
  cases hvalue : w.value with
  | quoted gap quote value closed =>
    have hpass := passes_quoted w.name gap closed
    rw [WrittenValue.text, hpass rest, Option.map_map]
    rfl
  | bare value hne hchars =>
    have hpass := passes_bare w.name hne hchars
    rw [WrittenValue.text, hpass rest]
    -- The reader is still inside the value, and the next character is what ends it.
    obtain ⟨c, t, rfl, hc⟩ := h
    have hc : Text.isBlank c = true ∨ c = '>' := by
      rcases hc with hc | hc | ⟨-, hquoted⟩
      · exact .inl hc
      · exact .inr hc
      · exact absurd hvalue (hquoted value hne hchars)
    rw [readFrom_inValue w.name value hc, Option.map_map, Option.map_map]
    rfl

end TagReader

section EndsWord

variable {slash : Prop} {s rest : Text}

/-- Blanks end a word. -/
theorem endsWord_blanks {blanks : Blanks} (h : blanks.text ≠ []) (rest : Text) :
    EndsWord slash (blanks.text ++ rest) := by
  obtain ⟨blanks, hblanks⟩ := blanks
  cases blanks with
  | nil => exact absurd rfl h
  | cons c blanks => exact ⟨c, blanks ++ rest, rfl, .inl (hblanks c List.mem_cons_self)⟩

/-- Attributes end a word, or what is behind them does if there are none. -/
theorem endsWord_texts {l : List WrittenAttribute} (h : l = [] → EndsWord slash rest) :
    EndsWord slash (l.flatMap WrittenAttribute.text ++ rest) := by
  cases l with
  | nil => exact h rfl
  | cons w l =>
    rw [List.flatMap_cons, WrittenAttribute.text]
    simp only [List.append_assoc]
    exact endsWord_blanks w.gap_ne_nil _

/-- How a text goes on does not matter. -/
theorem EndsWord.append (h : EndsWord slash s) (rest : Text) : EndsWord slash (s ++ rest) := by
  obtain ⟨c, t, rfl, hc⟩ := h
  exact ⟨c, t ++ rest, rfl, hc⟩

end EndsWord

namespace TagReader

/-- Attributes one after the other are found, where the last one is over before what follows. -/
theorem readFrom_writtenAttributes {l : List WrittenAttribute} {rest : Text}
    (h : ∀ w ∈ l.getLast?, EndsWord w.IsQuoted rest) :
    readFrom between (l.flatMap WrittenAttribute.text ++ rest) =
      (readFrom between rest).map (l.map WrittenAttribute.entry ++ ·) := by
  induction l with
  | nil => exact Option.map_id'.symm
  | cons w l ih =>
    -- An attribute is ended by the blanks of the next one, and the last one by what follows.
    have hothers : ∀ other ∈ l.getLast?, EndsWord other.IsQuoted rest := by
      intro other hother
      refine h other ?_
      cases l with
      | nil => cases hother
      | cons next l => rwa [List.getLast?_cons_cons]
    have hover : EndsWord w.IsQuoted (l.flatMap WrittenAttribute.text ++ rest) := by
      refine endsWord_texts ?_
      rintro rfl
      exact h w rfl
    rw [List.flatMap_cons, List.append_assoc, readFrom_writtenAttribute hover, ih hothers,
      Option.map_map]
    rfl

end TagReader

/-! ## Start tags -/

/-- Whether `c` may stand in the name of a tag behind the first letter. -/
def isTagChar (c : Char) : Bool :=
  !Text.isBlank c && c != '/' && c != '<' && c != '>'

/-- What the characters of a tag's name are not. -/
theorem isTagChar_iff {c : Char} :
    isTagChar c = true ↔ Text.isBlank c = false ∧ c ≠ '/' ∧ c ≠ '<' ∧ c ≠ '>' := by
  simp [isTagChar, and_assoc]

/-- The end of a start tag. -/
structure TagEnd where
  blanks : Blanks
  slash : Bool

/-- The end as it is written. -/
def TagEnd.text (e : TagEnd) : Text :=
  e.blanks.text ++ (if e.slash then ['/', '>'] else ['>'])

/-- A start tag with attributes that all have values, and with a place for more attributes: it
stands between the attributes `first` with blanks behind them and the attributes `second`. -/
structure OpenTag where
  letter : Char
  letter_isAlpha : letter.isAlpha = true
  name : Text
  name_chars : ∀ c ∈ name, isTagChar c = true
  first : List WrittenAttribute
  gap : Blanks
  second : List WrittenAttribute
  close : TagEnd
  /-- A slash at the end does not belong to a value. -/
  ended : ∀ w ∈ (first ++ second).getLast?,
    EndsWord w.IsQuoted ((if second = [] then gap.text else []) ++ close.text)

namespace OpenTag

/-- The tag up to the place for attributes. -/
def left (tag : OpenTag) : Text :=
  '<' :: tag.letter :: tag.name ++ tag.first.flatMap WrittenAttribute.text ++ tag.gap.text

/-- The tag from the place for attributes on. -/
def right (tag : OpenTag) : Text :=
  tag.second.flatMap WrittenAttribute.text ++ tag.close.text

/-- The attributes of the tag, each as its name and its value. -/
def entries (tag : OpenTag) : List (Text × Text) :=
  (tag.first ++ tag.second).map WrittenAttribute.entry

/-- The names of the attributes of the tag. -/
def names (tag : OpenTag) : List Text :=
  (tag.first ++ tag.second).map WrittenAttribute.name

end OpenTag

/-- No start tag begins in a text: no ASCII letter stands behind a `<`. -/
def TagFree (t : Text) : Prop :=
  List.IsChain (fun c d => c = '<' → d.isAlpha = false) t

instance (t : Text) : Decidable (TagFree t) := by
  unfold TagFree
  infer_instance

/-- What is searched for start tags from the left can be searched behind a text without any. -/
theorem TagFree.skip {α : Type} {before : Text} (h : TagFree before) (search : Nat → Text → α)
    (hskip : ∀ offset c d t, ¬ (c = '<' ∧ d.isAlpha = true) →
      search offset (c :: d :: t) = search (offset + 1) (d :: t))
    (offset : Nat) (letter : Char) (rest : Text) :
    search offset (before ++ '<' :: letter :: rest) =
      search (offset + before.length) ('<' :: letter :: rest) := by
  induction before generalizing offset with
  | nil => rfl
  | cons c before ih =>
    have hlength : offset + (c :: before).length = offset + 1 + before.length := by
      rw [List.length_cons]
      omega
    rw [hlength]
    cases before with
    | nil =>
      have hsign : ('<' : Char).isAlpha = false := by decide
      exact hskip offset c '<' _ (by simp [hsign])
    | cons d before =>
      obtain ⟨hcd, hbefore⟩ := List.isChain_cons_cons.1 h
      refine (hskip offset c d _ ?_).trans (ih hbefore (offset + 1))
      rintro ⟨hc, hd⟩
      rw [hcd hc] at hd
      cases hd

/-- The end of a tag ends a word that a slash is no part of. -/
theorem endsWord_tagEnd {slash : Prop} (h : slash) (e : TagEnd) : EndsWord slash e.text := by
  unfold TagEnd.text
  by_cases hnil : e.blanks.text = []
  · rw [hnil, List.nil_append]
    split
    · exact ⟨'/', ['>'], rfl, .inr (.inr ⟨rfl, h⟩)⟩
    · exact ⟨'>', [], rfl, .inr (.inl rfl)⟩
  · exact endsWord_blanks hnil _

namespace TagReader

variable {rest : Text}

/-- Where no start tag begins, the search goes on behind the next character. -/
theorem firstTag?_skip {c d : Char} (h : ¬ (c = '<' ∧ d.isAlpha = true)) (t : Text) :
    firstTag? (c :: d :: t) = firstTag? (d :: t) := by
  by_cases hc : c = '<'
  · subst hc
    simp [firstTag?, show d.isAlpha = false by simpa using h]
  · rw [firstTag?]
    intro _ _ heq
    exact absurd heq hc

/-- The first start tag begins behind a text without start tags. -/
theorem firstTag?_append {before : Text} (h : TagFree before) {letter : Char}
    (hletter : letter.isAlpha = true) (rest : Text) :
    firstTag? (before ++ '<' :: letter :: rest) = readFrom tagName rest := by
  rw [h.skip (fun _ => firstTag?) (fun _ _ _ t hcd => firstTag?_skip hcd t) 0 letter rest,
    firstTag?, if_pos hletter]

/-- The end of a tag is the end of its attributes. -/
theorem readFrom_tagEnd (e : TagEnd) (rest : Text) :
    readFrom between (e.text ++ rest) = some [] := by
  have hslash : Text.isBlank '>' = false := by decide
  unfold TagEnd.text
  rw [List.append_assoc, readFrom_between_blanks]
  split
  · simp [readFrom, step, hslash]
  · simp [readFrom, step, hslash]

/-- The name of a tag is over where attributes begin and at the end of the tag. -/
theorem readFrom_tagName {name : Text} (h : ∀ c ∈ name, isTagChar c = true)
    (hover : EndsWord True rest) : readFrom tagName (name ++ rest) = readFrom between rest := by
  have hname : Passes tagName name [] tagName := by
    refine passes_stay ?_
    intro d hd
    obtain ⟨hblank, hslash, -, hend⟩ := isTagChar_iff.1 (h d hd)
    simp [step, hblank, hslash, hend]
  obtain ⟨c, t, rfl, hc⟩ := hover
  have hsame : tagName.step c = between.step c := by
    rcases hc with hc | rfl | ⟨rfl, -⟩
    · simp [step, hc]
    · simp [step]
    · simp [step]
  rw [hname, readFrom, readFrom, hsame]
  exact Option.map_id'

/-- In a tag with more attributes in their place, all attributes are found. -/
theorem firstTag?_openTag {before : Text} (hbefore : TagFree before) (tag : OpenTag)
    {added : List WrittenAttribute} (hadded : ∀ w ∈ added, w.IsQuoted) (after : Text) :
    firstTag? (before ++ tag.left ++ added.flatMap WrittenAttribute.text ++ (tag.right ++ after)) =
      some ((tag.first ++ added ++ tag.second).map WrittenAttribute.entry) := by
  have htext : before ++ tag.left ++ added.flatMap WrittenAttribute.text ++ (tag.right ++ after) =
      before ++ '<' :: tag.letter :: (tag.name ++ (tag.first.flatMap WrittenAttribute.text ++
        (tag.gap.text ++ ((added ++ tag.second).flatMap WrittenAttribute.text ++
          (tag.close.text ++ after))))) := by
    simp only [OpenTag.left, OpenTag.right, List.flatMap_append, List.append_assoc,
      List.cons_append]
  -- What follows the first attributes ends the last one of them.
  have hfirst {slash : Prop} (h : added ++ tag.second = [] → tag.gap.text = [] →
      EndsWord slash tag.close.text) : EndsWord slash (tag.gap.text ++
        ((added ++ tag.second).flatMap WrittenAttribute.text ++ (tag.close.text ++ after))) := by
    by_cases hgap : tag.gap.text = []
    · rw [hgap, List.nil_append]
      exact endsWord_texts fun hnone => (h hnone hgap).append after
    · exact endsWord_blanks hgap _
  have hlast : ∀ w ∈ tag.first.getLast?, EndsWord w.IsQuoted (tag.gap.text ++
      ((added ++ tag.second).flatMap WrittenAttribute.text ++ (tag.close.text ++ after))) := by
    intro w hw
    refine hfirst fun hnone hgap => ?_
    have hsecond : tag.second = [] := (List.append_eq_nil_iff.1 hnone).2
    have hover := tag.ended w (by rwa [hsecond, List.append_nil])
    rwa [if_pos hsecond, hgap, List.nil_append] at hover
  have hsecond : ∀ w ∈ (added ++ tag.second).getLast?,
      EndsWord w.IsQuoted (tag.close.text ++ after) := by
    intro w hw
    refine EndsWord.append ?_ after
    by_cases hnone : tag.second = []
    · rw [hnone, List.append_nil] at hw
      exact endsWord_tagEnd (hadded w (List.mem_of_getLast? hw)) tag.close
    · have hover := tag.ended w (by rwa [List.getLast?_append_of_ne_nil _ hnone] at hw ⊢)
      rwa [if_neg hnone, List.nil_append] at hover
  have hname : EndsWord True (tag.first.flatMap WrittenAttribute.text ++ (tag.gap.text ++
      ((added ++ tag.second).flatMap WrittenAttribute.text ++ (tag.close.text ++ after)))) :=
    endsWord_texts fun _ => hfirst fun _ _ => endsWord_tagEnd trivial tag.close
  rw [htext, firstTag?_append hbefore tag.letter_isAlpha, readFrom_tagName tag.name_chars hname,
    readFrom_writtenAttributes hlast, readFrom_between_blanks, readFrom_writtenAttributes hsecond,
    readFrom_tagEnd]
  simp

end TagReader

end Abbrev
