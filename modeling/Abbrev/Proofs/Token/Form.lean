import Abbrev.Token.Lexer

/-!
# The forms of lexemes

Each lexeme has a form of its own (`Lexeme.WellFormed`): no quote is inside a quoted text of its
kind, braces are paired in a text in braces, and no delimiter is in a name, apart from a `+` that
belongs to it.

The whole form depends on what follows (`Lexeme.FitsBefore`), since a `+` belongs to the name before
it in some places and is an operator in all others. What the reader cuts off at the beginning of a
text is of this form, and a lexeme of this form is what it cuts off: a word if no name goes on
behind it, and any other lexeme wherever it stands.
-/

namespace Abbrev

/-- A text that closes `depth` braces which were opened before it, and all that it opens. -/
inductive ClosesBraces : Nat → Text → Prop
  | nil : ClosesBraces 0 []
  | plain {depth : Nat} {c : Char} {t : Text} :
      c ≠ '{' → c ≠ '}' → ClosesBraces depth t → ClosesBraces depth (c :: t)
  | opening {depth : Nat} {t : Text} :
      ClosesBraces (depth + 1) t → ClosesBraces depth ('{' :: t)
  | closing {depth : Nat} {t : Text} :
      ClosesBraces depth t → ClosesBraces (depth + 1) ('}' :: t)

/-- What can be said of a lexeme that has been read: quotes do not come up inside, braces are
paired, and no delimiter but `+` is part of a name. -/
def Lexeme.WellFormed : Lexeme → Prop
  | .name value => ∀ c ∈ value, Token.isDelimiter c = true → c = '+'
  | .number digits => ∀ c ∈ digits, Token.isDelimiter c = true → c = '+'
  | .quoted quote body => (quote = '"' ∨ quote = '\'') ∧ quote ∉ body
  | .braced body => ClosesBraces 0 body
  | .punctuation _ => True
  | .operator _ => True

/-- A text that is one pair of braces: it closes as many braces as it opens, but before its end one
of them is still open. -/
def BracePair (t : Text) : Prop :=
  t.count '{' = t.count '}' ∧ ∀ p, p <+: t → p ≠ [] → p ≠ t → p.count '}' < p.count '{'

/-- What has to follow a `+` that belongs to a name: nothing, or a closing parenthesis. -/
def EndsPart (after : Text) : Prop :=
  after = [] ∨ after.head? = some ')'

namespace Lexeme

/-- What a lexeme looks like if `after` follows it. A number consists of digits, and a name of all
that is no delimiter, not of digits alone, and perhaps of a last `+` in its place. A quoted text
ends at the first quote of its kind, and a text in braces with the brace that closes the first one.
A `+` that is an operator stands where it cannot belong to a name. -/
def FitsBefore (after : Text) : Lexeme → Prop
  | .name value => (∃ c ∈ value, c.isDigit = false) ∧
      ∃ stem, (∀ c ∈ stem, Token.isDelimiter c = false) ∧
        (value = stem ∨ value = stem ++ ['+'] ∧ EndsPart after)
  | .number digits => digits ≠ [] ∧ ∀ c ∈ digits, c.isDigit = true
  | .quoted quote body => (quote = '"' ∨ quote = '\'') ∧ quote ∉ body
  | .braced body => BracePair ('{' :: body ++ ['}'])
  | .punctuation sign => Token.isDelimiter sign.sign = true
  | .operator op => Token.isDelimiter op.sign = true ∧ (op = .sibling → ¬ EndsPart after)

/-- Whether a lexeme is a name or a number, which does not show where it ends. -/
def isWord : Lexeme → Bool
  | .name _ | .number _ => true
  | _ => false

/-- Whether a lexeme is a text between quotes or braces, in which any characters may stand. -/
def isVerbatim : Lexeme → Bool
  | .quoted _ _ | .braced _ => true
  | _ => false

end Lexeme

/-! ## Braces -/

/-- A text has `depth` more closing braces than opening ones, and no beginning of it has still
more. -/
def Surplus (depth : Nat) (t : Text) : Prop :=
  t.count '}' = t.count '{' + depth ∧ ∀ p, p <+: t → p.count '}' ≤ p.count '{' + depth

variable {depth : Nat} {t : Text}

/-- What holds of all beginnings of a text, with its first character set apart. -/
theorem forall_prefix_cons {P : Text → Prop} {c : Char} :
    (∀ p, p <+: c :: t → P p) ↔ P [] ∧ ∀ q, q <+: t → P (c :: q) := by
  constructor
  · intro h
    exact ⟨h [] List.nil_prefix, fun q hq => h (c :: q) (List.cons_prefix_cons.2 ⟨rfl, hq⟩)⟩
  · rintro ⟨hnil, hcons⟩ p hp
    obtain rfl | ⟨q, rfl, hq⟩ := List.prefix_cons_iff.1 hp
    · exact hnil
    · exact hcons q hq

/-- Behind an opening brace, there is one more to close. -/
theorem surplus_opening : Surplus depth ('{' :: t) ↔ Surplus (depth + 1) t := by
  unfold Surplus
  rw [forall_prefix_cons]
  simp [Nat.add_assoc, Nat.add_comm 1]

/-- Behind a closing brace, there is one less to close. -/
theorem surplus_closing : Surplus (depth + 1) ('}' :: t) ↔ Surplus depth t := by
  unfold Surplus
  rw [forall_prefix_cons]
  simp [← Nat.add_assoc]

/-- A closing brace comes first only if there is one to close. -/
theorem not_surplus_closing : ¬ Surplus 0 ('}' :: t) := by
  rintro ⟨-, hbegins⟩
  have hfirst := hbegins ['}'] (List.cons_prefix_cons.2 ⟨rfl, List.nil_prefix⟩)
  cases hfirst

/-- Other characters do not count. -/
theorem surplus_plain {c : Char} (hopen : c ≠ '{') (hclose : c ≠ '}') :
    Surplus depth (c :: t) ↔ Surplus depth t := by
  unfold Surplus
  rw [forall_prefix_cons]
  simp [hopen, hclose]

/-- A text closes `depth` braces exactly if that is its surplus. -/
theorem closesBraces_iff : ClosesBraces depth t ↔ Surplus depth t := by
  constructor
  · intro h
    induction h with
    | nil => simp [Surplus]
    | plain hopen hclose _ ih => exact (surplus_plain hopen hclose).2 ih
    | opening _ ih => exact surplus_opening.2 ih
    | closing _ ih => exact surplus_closing.2 ih
  · intro h
    induction t generalizing depth with
    | nil =>
      obtain rfl : depth = 0 := by simpa using h.1.symm
      exact .nil
    | cons c t ih =>
      by_cases hopen : c = '{'
      · subst hopen
        exact .opening (ih (surplus_opening.1 h))
      · by_cases hclose : c = '}'
        · subst hclose
          cases depth with
          | zero => exact absurd h not_surplus_closing
          | succ depth => exact .closing (ih (surplus_closing.1 h))
        · exact .plain hopen hclose (ih ((surplus_plain hopen hclose).1 h))

/-- Two braces belong together exactly if what stands between them closes all that it opens. -/
theorem bracePair_iff {body : Text} : BracePair ('{' :: body ++ ['}']) ↔ ClosesBraces 0 body := by
  rw [closesBraces_iff, Surplus, BracePair]
  constructor
  · rintro ⟨hcount, hbegins⟩
    refine ⟨?_, fun q hq => ?_⟩
    · simp at hcount
      omega
    · have hprefix : '{' :: q <+: '{' :: body ++ ['}'] :=
        List.cons_prefix_cons.2 ⟨rfl, hq.trans (List.prefix_append body ['}'])⟩
      have hproper : '{' :: q ≠ '{' :: body ++ ['}'] := by
        intro heq
        have hlength := congrArg List.length heq
        have hle := hq.length_le
        simp at hlength
        omega
      have hlt := hbegins ('{' :: q) hprefix (List.cons_ne_nil _ _) hproper
      simp at hlt
      omega
  · rintro ⟨hcount, hbegins⟩
    refine ⟨by simp; omega, fun p hp hne hproper => ?_⟩
    obtain rfl | ⟨q, rfl, hq⟩ := List.prefix_cons_iff.1 hp
    · exact absurd rfl hne
    · obtain rfl | hq := List.prefix_concat_iff.1 hq
      · exact absurd rfl hproper
      · have hle := hbegins q hq
        simp
        omega

namespace Token

/-! ## What is cut off -/

/-- A name and what follows it are the text they were cut from. -/
theorem spanName_append_snd (t : Text) : (spanName t).1 ++ (spanName t).2 = t := by
  induction t with
  | nil => rfl
  | cons c rest ih =>
    rw [spanName]
    split
    · rfl
    · exact congrArg (c :: ·) ih

/-- No name begins with a delimiter that does not belong to one. -/
theorem isDelimiter_of_spanName_eq_nil {c : Char} {rest : Text}
    (h : (spanName (c :: rest)).1 = []) : isDelimiter c = true := by
  rw [spanName] at h
  split at h
  · next hends => exact (Bool.and_eq_true _ _ ▸ hends).1
  · cases h

/-- A quoted text comes before the first quote. -/
theorem spanQuoted_spec {quote : Char} {body after : Text}
    (h : spanQuoted quote t = some (body, after)) : t = body ++ quote :: after ∧ quote ∉ body := by
  induction t generalizing body with
  | nil => cases h
  | cons c rest ih =>
    rw [spanQuoted] at h
    split at h
    · next hc =>
      obtain ⟨rfl, rfl⟩ := Prod.mk.inj (Option.some.inj h)
      exact ⟨by rw [hc]; rfl, List.not_mem_nil⟩
    · next hc =>
      obtain ⟨⟨b, a⟩, hb, he⟩ := Option.map_eq_some_iff.1 h
      obtain ⟨rfl, rfl⟩ := Prod.mk.inj he
      obtain ⟨rfl, hnot⟩ := ih hb
      exact ⟨rfl, List.not_mem_cons_of_ne_of_not_mem (Ne.symm hc) hnot⟩

/-- A text in braces comes before a closing brace, and closes all that is open. -/
theorem spanBraced_spec {depth : Nat} {body after : Text}
    (h : spanBraced depth t = some (body, after)) :
    t = body ++ '}' :: after ∧ ClosesBraces depth body := by
  induction t generalizing depth body with
  | nil => cases h
  | cons c rest ih =>
    rw [spanBraced] at h
    split at h
    · next hc =>
      obtain ⟨rfl, rfl⟩ := Prod.mk.inj (Option.some.inj h)
      obtain ⟨rfl, rfl⟩ := hc
      exact ⟨rfl, .nil⟩
    · next hc =>
      obtain ⟨⟨b, a⟩, hb, he⟩ := Option.map_eq_some_iff.1 h
      obtain ⟨rfl, rfl⟩ := Prod.mk.inj he
      obtain ⟨rfl, hcloses⟩ := ih hb
      refine ⟨rfl, ?_⟩
      split at hcloses
      · next hopen => exact hopen ▸ .opening hcloses
      · next hopen =>
        split at hcloses
        · next hclose =>
          obtain ⟨n, rfl⟩ := Nat.exists_eq_succ_of_ne_zero fun hzero => hc ⟨hclose, hzero⟩
          exact hclose ▸ .closing hcloses
        · next hclose => exact .plain hopen hclose hcloses

/-- A quoted text is read up to the first quote. -/
theorem spanQuoted_append {quote : Char} {body : Text} (h : quote ∉ body) (t : Text) :
    spanQuoted quote (body ++ quote :: t) = some (body, t) := by
  induction body with
  | nil => exact if_pos rfl
  | cons c body ih =>
    obtain ⟨hc, hbody⟩ := not_or.1 (mt List.mem_cons.2 h)
    rw [List.cons_append, spanQuoted, if_neg (Ne.symm hc), ih hbody]
    rfl

/-- A text in braces is read up to the brace that closes what is open. -/
theorem spanBraced_append {depth : Nat} {body : Text} (h : ClosesBraces depth body) (t : Text) :
    spanBraced depth (body ++ '}' :: t) = some (body, t) := by
  induction h with
  | nil => exact if_pos ⟨rfl, rfl⟩
  | plain hopen hclose _ ih =>
    rw [List.cons_append, spanBraced, if_neg fun h => hclose h.1]
    simp only [if_neg hopen, if_neg hclose, ih]
    rfl
  | opening _ ih =>
    rw [List.cons_append, spanBraced, if_neg (by simp)]
    simp only [if_pos, ih]
    rfl
  | closing _ ih =>
    rw [List.cons_append, spanBraced, if_neg (by simp)]
    simp [ih]

/-- A delimiter that stands for itself is spelled by its lexeme. -/
theorem source_of_ofDelimiter? {c : Char} {lexeme : Lexeme} (h : ofDelimiter? c = some lexeme) :
    lexeme.source = [c] ∧ lexeme.isWord = false := by
  unfold ofDelimiter? at h
  split at h <;> (obtain ⟨⟩ := h) <;> exact ⟨rfl, rfl⟩

/-- The only delimiter that stands for nothing is U+0000. -/
theorem eq_separator_of_ofDelimiter? {c : Char} (h : ofDelimiter? c = none)
    (hdelimiter : isDelimiter c = true) (hquote : ¬ (c = '"' ∨ c = '\'')) (hopen : c ≠ '{')
    (hclose : c ≠ '}') : c = '\x00' := by
  have hmem : c ∈ delimiters := List.contains_iff_mem.1 hdelimiter
  simp only [delimiters, List.mem_cons, List.not_mem_nil, or_false] at hmem
  rcases hmem with rfl | rfl | rfl | rfl | rfl | rfl | rfl | rfl | rfl | rfl | rfl | rfl | rfl |
    rfl | rfl | rfl | rfl | rfl | rfl <;> simp_all [ofDelimiter?]

/-- A name is spelled as it is, whether it is a number or not. -/
theorem source_ofName (name : Text) : (ofName name).source = name := by
  unfold ofName
  split <;> rfl

/-! ## Where words end -/

/-- A `+` belongs to a name if what follows it lets it. -/
theorem joinsName_iff {c : Char} {rest : Text} :
    joinsName c rest = true ↔ c = '+' ∧ EndsPart rest := by
  simp [joinsName, EndsPart]

/-- No name begins where nothing follows, or a closing parenthesis. -/
theorem spanName_of_endsPart (h : EndsPart t) : spanName t = ([], t) := by
  cases t with
  | nil => rfl
  | cons c rest =>
    obtain rfl : c = ')' := by simpa [EndsPart] using h
    rfl

/-- A name goes on with characters that are no delimiters. -/
theorem spanName_append {stem : Text} (h : ∀ c ∈ stem, isDelimiter c = false) (t : Text) :
    spanName (stem ++ t) = (stem ++ (spanName t).1, (spanName t).2) := by
  induction stem with
  | nil => rfl
  | cons c stem ih =>
    obtain ⟨hc, hstem⟩ := List.forall_mem_cons.1 h
    rw [List.cons_append, spanName, hc, Bool.false_and, if_neg Bool.false_ne_true, ih hstem]
    rfl

/-- A `+` in its place is the last character of a name. -/
theorem spanName_plus (h : EndsPart t) : spanName ('+' :: t) = (['+'], t) := by
  have hjoins : joinsName '+' t = true := joinsName_iff.2 ⟨rfl, h⟩
  rw [spanName, hjoins, Bool.not_true, Bool.and_false, if_neg Bool.false_ne_true,
    spanName_of_endsPart h]

/-- A name is read as far as it goes: what follows it begins with no name. -/
theorem spanName_snd (t : Text) : spanName (spanName t).2 = ([], (spanName t).2) := by
  induction t with
  | nil => rfl
  | cons c rest ih =>
    rw [spanName]
    split
    · next hends => rw [spanName, if_pos hends]
    · exact ih

/-- A name has no delimiter but a last `+` in its place. -/
theorem exists_stem_spanName (t : Text) : ∃ stem, (∀ c ∈ stem, isDelimiter c = false) ∧
    ((spanName t).1 = stem ∨ (spanName t).1 = stem ++ ['+'] ∧ EndsPart (spanName t).2) := by
  induction t with
  | nil => exact ⟨[], List.forall_mem_nil _, .inl rfl⟩
  | cons c rest ih =>
    by_cases hdelimiter : isDelimiter c = true
    · by_cases hjoins : joinsName c rest = true
      · obtain ⟨rfl, hends⟩ := joinsName_iff.1 hjoins
        rw [spanName_plus hends]
        exact ⟨[], List.forall_mem_nil _, .inr ⟨rfl, hends⟩⟩
      · rw [spanName, if_pos (by simp [hdelimiter, hjoins])]
        exact ⟨[], List.forall_mem_nil _, .inl rfl⟩
    · obtain ⟨stem, hstem, hname⟩ := ih
      have hplain : isDelimiter c = false := by simpa using hdelimiter
      have hcons : spanName ([c] ++ rest) = ([c] ++ (spanName rest).1, (spanName rest).2) :=
        spanName_append (List.forall_mem_singleton.2 hplain) rest
      rw [List.singleton_append] at hcons
      refine ⟨c :: stem, List.forall_mem_cons.2 ⟨hplain, hstem⟩, ?_⟩
      rw [hcons]
      exact hname.imp (congrArg (c :: ·)) (And.imp_left (congrArg (c :: ·)))

/-- Digits are no delimiters. -/
theorem isDelimiter_of_isDigit {c : Char} (h : c.isDigit = true) : isDelimiter c = false := by
  have hall : (delimiters.all fun d => !d.isDigit) = true := rfl
  cases hdelimiter : isDelimiter c with
  | false => rfl
  | true =>
    have hnot := List.all_eq_true.1 hall c (List.contains_iff_mem.1 hdelimiter)
    rw [h] at hnot
    cases hnot

/-- A delimiter begins no name, if it is no `+` that belongs to one. -/
theorem spanName_delimiter {c : Char} (hdelimiter : isDelimiter c = true)
    (hplus : c = '+' → ¬ EndsPart t) : spanName (c :: t) = ([], c :: t) := by
  have hjoins : joinsName c t = false := by
    rw [← Bool.not_eq_true, joinsName_iff]
    exact fun h => hplus h.1 h.2
  rw [spanName, hdelimiter, hjoins]
  rfl

/-- Any delimiter but `+` begins no name. -/
theorem spanName_of_ne_plus {c : Char} (hdelimiter : isDelimiter c = true) (hne : c ≠ '+')
    (t : Text) : spanName (c :: t) = ([], c :: t) :=
  spanName_delimiter hdelimiter fun heq => absurd heq hne

/-! ## What fits -/

/-- The name that is read at the beginning of a text fits what follows it. -/
theorem ofName_fitsBefore (hname : (spanName t).1 ≠ []) :
    (ofName (spanName t).1).FitsBefore (spanName t).2 := by
  unfold ofName
  split
  · next hnatural =>
    simp only [Text.isNatural, Bool.and_eq_true, List.all_eq_true] at hnatural
    exact ⟨hname, hnatural.2⟩
  · next hnatural =>
    refine ⟨?_, exists_stem_spanName t⟩
    simpa [Text.isNatural, hname] using hnatural

/-- A sign that stands for itself fits what follows it, where no name begins. -/
theorem ofDelimiter?_fitsBefore {c : Char} {lexeme : Lexeme} (h : ofDelimiter? c = some lexeme)
    (hname : (spanName (c :: t)).1 = []) : lexeme.FitsBefore t := by
  have hplus : c = '+' → ¬ EndsPart t := by
    rintro rfl hends
    rw [spanName_plus hends] at hname
    cases hname
  unfold ofDelimiter? at h
  split at h
  all_goals obtain ⟨⟩ := h
  -- Of the operators, `+` is the one that could belong to a name.
  case h_11 => exact ⟨rfl, fun _ => hplus rfl⟩
  case h_12 | h_13 | h_14 => exact ⟨rfl, by rintro ⟨⟩⟩
  all_goals rfl

/-- A lexeme has at least one character. -/
theorem source_ne_nil {lexeme : Lexeme} (h : lexeme.FitsBefore t) : lexeme.source ≠ [] := by
  cases lexeme with
  | name value =>
    obtain ⟨⟨c, hc, -⟩, -⟩ := h
    exact List.ne_nil_of_mem hc
  | number digits => exact h.1
  | _ => exact List.cons_ne_nil _ _

/-- A word goes as far as a name does. -/
theorem spanName_word {lexeme : Lexeme} (h : lexeme.FitsBefore t) (hword : lexeme.isWord = true) :
    ∃ more, (spanName (lexeme.source ++ t)).1 = lexeme.source ++ more ∧
      (spanName t = ([], t) → spanName (lexeme.source ++ t) = (lexeme.source, t)) := by
  have hplain {stem : Text} (hstem : ∀ c ∈ stem, isDelimiter c = false) :
      ∃ more, (spanName (stem ++ t)).1 = stem ++ more ∧
        (spanName t = ([], t) → spanName (stem ++ t) = (stem, t)) := by
    rw [spanName_append hstem]
    refine ⟨_, rfl, fun hstop => ?_⟩
    rw [hstop, List.append_nil]
  cases lexeme with
  | name value =>
    obtain ⟨-, stem, hstem, rfl | ⟨rfl, hends⟩⟩ := h
    · exact hplain hstem
    · have hspan : spanName (stem ++ ['+'] ++ t) = (stem ++ ['+'], t) := by
        rw [List.append_assoc, List.singleton_append, spanName_append hstem, spanName_plus hends]
      exact ⟨[], by rw [Lexeme.source, hspan, List.append_nil], fun _ => hspan⟩
  | number digits => exact hplain fun c hc => isDelimiter_of_isDigit (h.2 c hc)
  | _ => cases hword

/-- What is no word begins with a delimiter that begins no name. -/
theorem spanName_sign {lexeme : Lexeme} (h : lexeme.FitsBefore t) (hword : lexeme.isWord = false) :
    spanName (lexeme.source ++ t) = ([], lexeme.source ++ t) := by
  cases lexeme with
  | name value => cases hword
  | number digits => cases hword
  | quoted quote body =>
    obtain ⟨rfl | rfl, -⟩ := h <;> exact spanName_of_ne_plus rfl (by decide) _
  | braced body => exact spanName_of_ne_plus rfl (by decide) _
  | punctuation sign => exact spanName_of_ne_plus h (by cases sign <;> decide) _
  | operator op =>
    cases op with
    | sibling => exact spanName_delimiter h.1 fun _ => h.2 rfl
    | _ => exact spanName_of_ne_plus h.1 (by decide) _

/-- A word is the lexeme of its characters. -/
theorem ofName_source {lexeme : Lexeme} (hfits : lexeme.FitsBefore t)
    (hword : lexeme.isWord = true) : ofName lexeme.source = lexeme := by
  cases lexeme with
  | name value =>
    obtain ⟨⟨c, hc, hdigit⟩, -⟩ := hfits
    refine if_neg fun hnatural => ?_
    simp only [Text.isNatural, Bool.and_eq_true, List.all_eq_true] at hnatural
    have hc := hnatural.2 c hc
    rw [hdigit] at hc
    cases hc
  | number digits =>
    obtain ⟨hne, hall⟩ := hfits
    have hnatural : Text.isNatural digits = true := by simpa [Text.isNatural, hne] using hall
    exact if_pos hnatural
  | _ => cases hword

/-- What is said of a lexeme apart from what follows it. -/
theorem wellFormed_of_fitsBefore {lexeme : Lexeme} (h : lexeme.FitsBefore t) :
    lexeme.WellFormed := by
  cases lexeme with
  | name value =>
    obtain ⟨-, stem, hstem, hvalue⟩ := h
    intro c hc hdelimiter
    have hmem : c ∈ stem ∨ c = '+' := by
      obtain rfl | ⟨rfl, -⟩ := hvalue
      · exact .inl hc
      · simpa using hc
    refine hmem.resolve_left fun hc => ?_
    rw [hstem c hc] at hdelimiter
    cases hdelimiter
  | number digits =>
    intro c hc hdelimiter
    rw [isDelimiter_of_isDigit (h.2 c hc)] at hdelimiter
    cases hdelimiter
  | quoted quote body => exact h
  | braced body => exact bracePair_iff.1 h
  | punctuation sign => trivial
  | operator op => trivial

end Token

end Abbrev
