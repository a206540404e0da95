import Abbrev.Abbreviation.Trailing
import Abbrev.Proofs.Grammar.Brackets
import Abbrev.Proofs.Token.Spelling

/-!
# Going back through an abbreviation

The key before the caret is found from its end, with a count of open brackets (`Trailing.collect`),
while abbreviations are read from their start. The two are compared piece by piece: a piece of text
is passed with as many brackets open behind it as it closes (`Trailing.Passes`), and pieces that are
passed make up a text that is passed. The pieces of an abbreviation are its tokens, and the
induction is the one over the text that they spell (`Trailing.passes_of_spelled`).

A text in braces is one piece, of any characters. It is passed if brackets and braces are paired in
it apart from quotes, and quotes are closed (`Trailing.Paired`); the reader of tokens pairs the
braces only.
-/

namespace Abbrev.Trailing

variable {t u before found : Text} {front middle back n : Nat} {c : Char}

attribute [local simp] collect

/-- Without a `<`, there is no tag to read. -/
theorem foldl_readTag (h : '<' ∉ t) : t.foldl readTag [] = [] := by
  induction t with
  | nil => rfl
  | cons c t ih =>
    simp only [List.mem_cons, not_or] at h
    obtain ⟨hc, ht⟩ := h
    have hread : readTag [] c = [] := if_neg (Ne.symm hc)
    rw [List.foldl_cons, hread, ih ht]

/-- Without a `<`, a text ends in no tag. -/
theorem endsTag_eq_false (h : '<' ∉ t) : endsTag t = false := by
  rw [endsTag, foldl_readTag h]
  rfl

/-! ## Passing pieces of text -/

/-- Going back through `t` with `back` brackets open behind it, all of it is found, and `front`
brackets are open in front of it. No tag begins in what comes before. -/
def Passes (front back : Nat) (t : Text) : Prop :=
  ∀ before found : Text, '<' ∉ before →
    collect back none found (t.reverse ++ before) = collect front none (t ++ found) before

/-- The characters that count for more than themselves: brackets, braces and quotes. -/
def marks : List Char :=
  ['[', ']', '{', '}', '"', '\'']

/-- Nothing to pass. -/
theorem Passes.nil : Passes n n [] :=
  fun _ _ _ => rfl

/-- Two pieces are passed one after the other, the second one first. -/
theorem Passes.append (ht : Passes front middle t) (hu : Passes middle back u) (hlt : '<' ∉ t) :
    Passes front back (t ++ u) := by
  intro before found hbefore
  have hmem : '<' ∉ t.reverse ++ before := by simp [hlt, hbefore]
  rw [List.reverse_append, List.append_assoc, hu _ _ hmem, ht _ _ hbefore, List.append_assoc]

/-- A text is passed if its characters are. -/
theorem passes_of_forall (h : ∀ c ∈ t, Passes n n [c]) (hlt : '<' ∉ t) : Passes n n t := by
  induction t with
  | nil => exact .nil
  | cons c t ih =>
    obtain ⟨hc, ht⟩ := List.forall_mem_cons.1 h
    simp only [List.mem_cons, not_or] at hlt
    exact .append hc (ih ht hlt.2) (by simpa using hlt.1)

/-- An opening bracket or brace is passed. -/
theorem passes_open (hc : c = '[' ∨ c = '{') : Passes n (n + 1) [c] := by
  intro before found _
  rcases hc with rfl | rfl <;> simp

/-- A closing bracket or brace is passed. -/
theorem passes_close (hc : c = ']' ∨ c = '}') : Passes (n + 1) n [c] := by
  intro before found _
  rcases hc with rfl | rfl <;> simp

/-- Where a bracket is open, all characters but marks are passed. -/
theorem passes_inside (hc : c ∉ marks) : Passes (n + 1) (n + 1) [c] := by
  intro before found _
  simp only [marks, List.mem_cons, List.not_mem_nil, or_false, not_or] at hc
  simp [hc]

/-- Where no bracket is open, the characters of abbreviations are passed, apart from marks. -/
theorem passes_outside (hallowed : isAllowed c = true) (hc : c ∉ marks) : Passes 0 0 [c] := by
  intro before found hbefore
  have hne : c ≠ '<' := by
    rintro rfl
    exact absurd hallowed (by decide)
  have htag : endsTag (before.reverse ++ [c]) = false :=
    endsTag_eq_false (by simpa [Ne.symm hne] using hbefore)
  simp only [marks, List.mem_cons, List.not_mem_nil, or_false, not_or] at hc
  simp [hc, hallowed, htag]

/-- Where a quote is open, all is found up to the one that closes it. -/
theorem collect_quoted {quote : Char} (h : quote ∉ u) :
    collect n (some quote) found (u ++ quote :: before) =
      collect n none (quote :: (u.reverse ++ found)) before := by
  induction u generalizing found with
  | nil => simp
  | cons c u ih =>
    simp only [List.mem_cons, not_or] at h
    simp [Ne.symm h.1, ih h.2]

/-- Where a bracket is open, a text between two quotes of the same kind is passed. -/
theorem passes_quoted {quote : Char} (hquote : quote = '"' ∨ quote = '\'') (h : quote ∉ t) :
    Passes (n + 1) (n + 1) (quote :: t ++ [quote]) := by
  intro before found _
  have hreverse : quote ∉ t.reverse := by simpa using h
  rcases hquote with rfl | rfl <;> simp [collect_quoted hreverse]

/-! ## Texts in braces -/

/-- Brackets and braces are paired, one kind as good as the other, where `depth` of them were opened
before the text; quotes are closed, and between quotes anything may stand. -/
inductive Paired : Nat → Text → Prop
  | nil : Paired 0 []
  | plain {depth : Nat} {c : Char} {t : Text} : c ∉ marks → Paired depth t → Paired depth (c :: t)
  | quoted {depth : Nat} {quote : Char} {body t : Text} :
      quote = '"' ∨ quote = '\'' → quote ∉ body → Paired depth t →
      Paired depth ((quote :: body ++ [quote]) ++ t)
  | opening {depth : Nat} {c : Char} {t : Text} :
      c = '[' ∨ c = '{' → Paired (depth + 1) t → Paired depth (c :: t)
  | closing {depth : Nat} {c : Char} {t : Text} :
      c = ']' ∨ c = '}' → Paired depth t → Paired (depth + 1) (c :: t)

/-- Where braces are paired and there are no other marks, all is paired. -/
theorem Paired.of_closesBraces {depth : Nat} (h : ClosesBraces depth t)
    (hmarks : ∀ c ∈ t, c ∈ marks → c = '{' ∨ c = '}') : Paired depth t := by
  induction h with
  | nil => exact .nil
  | @plain depth c t hopen hclose _ ih =>
    obtain ⟨hc, ht⟩ := List.forall_mem_cons.1 hmarks
    exact .plain (fun hmark => (hc hmark).elim hopen hclose) (ih ht)
  | opening _ ih => exact .opening (.inr rfl) (ih (List.forall_mem_cons.1 hmarks).2)
  | closing _ ih => exact .closing (.inr rfl) (ih (List.forall_mem_cons.1 hmarks).2)

/-- Where a bracket is open, a text with paired brackets is passed. -/
theorem Paired.passes {depth : Nat} (h : Paired depth t) (hlt : '<' ∉ t) :
    Passes (n + depth + 1) (n + 1) t := by
  induction h with
  | nil => exact .nil
  | plain hc _ ih =>
    simp only [List.mem_cons, not_or] at hlt
    exact .append (passes_inside hc) (ih hlt.2) (by simpa using hlt.1)
  | quoted hquote hbody _ ih =>
    rw [List.mem_append, not_or] at hlt
    exact .append (passes_quoted hquote hbody) (ih hlt.2) hlt.1
  | opening hc _ ih =>
    simp only [List.mem_cons, not_or] at hlt
    exact .append (passes_open hc) (ih hlt.2) (by simpa using hlt.1)
  | closing hc _ ih =>
    simp only [List.mem_cons, not_or] at hlt
    exact .append (passes_close hc) (ih hlt.2) (by simpa using hlt.1)

/-- A text in braces is passed if brackets are paired in it. -/
theorem Paired.passes_braced (h : Paired 0 t) (hlt : '<' ∉ t) :
    Passes n n ('{' :: t ++ ['}']) := by
  have hinner : Passes n (n + 1) ('{' :: t) := .append (passes_open (.inr rfl)) (h.passes hlt)
    (by simp)
  exact .append hinner (passes_close (.inr rfl)) (by simpa using hlt)

/-! ## Tokens -/

variable {lexeme : Lexeme} {column : Nat} {ts : List Token} {start? : Option Nat}
  {spans : List (Nat × Nat)}

/-- A flat lexeme is a quoted text, or there is no mark in it. -/
theorem flat_cases (hform : lexeme.WellFormed) (hflat : lexeme.isFlat = true) :
    (∃ quote body, lexeme = .quoted quote body) ∨ ∀ c ∈ lexeme.source, c ∉ marks := by
  -- All marks are delimiters, and the only delimiter in names is no mark.
  have hname {name : Text} (h : ∀ c ∈ name, Token.isDelimiter c = true → c = '+') :
      ∀ c ∈ name, c ∉ marks := by
    intro c hc hmark
    have hdelimiters : marks.all Token.isDelimiter = true := by decide
    obtain rfl := h c hc (List.all_eq_true.1 hdelimiters c hmark)
    exact absurd hmark (by decide)
  cases lexeme with
  | name value => exact .inr (hname hform)
  | number digits => exact .inr (hname hform)
  | quoted quote body => exact .inl ⟨quote, body, rfl⟩
  | braced body => cases hflat
  | punctuation sign =>
    refine .inr (List.forall_mem_singleton.2 ?_)
    cases sign <;> first | decide | cases hflat
  | operator op =>
    refine .inr (List.forall_mem_singleton.2 ?_)
    cases op <;> decide

/-- Where a bracket is open, flat lexemes are passed. -/
theorem passes_flat_inside (hform : lexeme.WellFormed) (hflat : lexeme.isFlat = true)
    (hlt : '<' ∉ lexeme.source) : Passes (n + 1) (n + 1) lexeme.source := by
  obtain ⟨quote, body, rfl⟩ | hmarks := flat_cases hform hflat
  · exact passes_quoted hform.1 hform.2
  · exact passes_of_forall (fun c hc => passes_inside (hmarks c hc)) hlt

/-- Where no bracket is open, flat lexemes of characters of abbreviations are passed. -/
theorem passes_flat_outside (hform : lexeme.WellFormed) (hflat : lexeme.isFlat = true)
    (hallowed : ∀ c ∈ lexeme.source, isAllowed c = true) (hlt : '<' ∉ lexeme.source) :
    Passes 0 0 lexeme.source := by
  obtain ⟨quote, body, rfl⟩ | hmarks := flat_cases hform hflat
  · have hquote := hallowed quote List.mem_cons_self
    rcases hform.1 with rfl | rfl <;> exact absurd hquote (by decide)
  · exact passes_of_forall (fun c hc => passes_outside (hallowed c hc) (hmarks c hc)) hlt

/-- Each character of a text that begins at a column is in a span or a character of
abbreviations. -/
def AllowedOutside (spans : List (Nat × Nat)) (column : Nat) (t : Text) : Prop :=
  ∀ i c, t[i]? = some c →
    isAllowed c = true ∨ ∃ span ∈ spans, span.1 ≤ column + i ∧ column + i < span.2

/-- A text has only so many columns to look at. -/
instance : Decidable (AllowedOutside spans column t) :=
  decidable_of_iff
    (∀ i : Fin t.length, isAllowed t[i] = true ∨
      ∃ span ∈ spans, span.1 ≤ column + i ∧ column + i < span.2) <| by
    constructor
    · intro h i c hget
      obtain ⟨hi, rfl⟩ := List.getElem?_eq_some_iff.1 hget
      exact h ⟨i, hi⟩
    · intro h i
      exact h i t[i] (List.getElem?_eq_getElem i.2)

/-- What comes before all spans consists of characters of abbreviations. -/
theorem AllowedOutside.head (h : AllowedOutside spans column (t ++ u))
    (hspans : ∀ span ∈ spans, column + t.length ≤ span.1) : ∀ c ∈ t, isAllowed c = true := by
  intro c hc
  obtain ⟨i, hi, rfl⟩ := List.getElem_of_mem hc
  have hget : (t ++ u)[i]? = some t[i] := by
    rw [List.getElem?_append_left hi, List.getElem?_eq_getElem hi]
  obtain hallowed | ⟨span, hspan, hle, -⟩ := h i t[i] hget
  · exact hallowed
  · have := hspans span hspan
    omega

/-- The rest of such a text. -/
theorem AllowedOutside.tail (h : AllowedOutside spans column (t ++ u)) :
    AllowedOutside spans (column + t.length) u := by
  intro i c hget
  have hget' : (t ++ u)[t.length + i]? = some c := by
    rw [List.getElem?_append_right (Nat.le_add_right _ _), Nat.add_sub_cancel_left, hget]
  have hwhole := h _ c hget'
  rwa [← Nat.add_assoc] at hwhole

/-- A span that ends before the text can be left out. -/
theorem AllowedOutside.drop_span {span : Nat × Nat} (h : AllowedOutside (span :: spans) column t)
    (hend : span.2 ≤ column) : AllowedOutside spans column t := by
  intro i c hget
  obtain hallowed | ⟨other, hother, hle, hlt⟩ := h i c hget
  · exact .inl hallowed
  · rcases List.mem_cons.1 hother with rfl | hmem
    · omega
    · exact .inr ⟨other, hmem, hle, hlt⟩

/-- Flat tokens have no part in the spans. -/
theorem spans_flat (hflat : lexeme.isFlat = true) :
    Token.spans start? (⟨lexeme, column⟩ :: ts) = Token.spans start? ts := by
  cases lexeme with
  | braced body => cases hflat
  | punctuation sign => cases sign <;> first | (cases start? <;> rfl) | cases hflat
  | _ => cases start? <;> rfl

/-- Where no bracket is open, a lexeme other than a bracket is passed: a flat one if it consists of
characters of abbreviations, and a text in braces if brackets are paired in it. -/
theorem passes_between (hform : lexeme.WellFormed) (hbracket : lexeme.isBracket = false)
    (hallowed : lexeme.isFlat = true → ∀ c ∈ lexeme.source, isAllowed c = true)
    (hpaired : ∀ body, lexeme = .braced body → Paired 0 body) (hlt : '<' ∉ lexeme.source) :
    Passes 0 0 lexeme.source := by
  obtain hflat | ⟨body, rfl⟩ := Lexeme.isFlat_or_braced hbracket
  · exact passes_flat_outside hform hflat (hallowed hflat) hlt
  · exact (hpaired body rfl).passes_braced fun hmem => hlt (by simp [Lexeme.source, hmem])

/-- Behind a token other than a bracket, the spans are those of the rest. -/
theorem AllowedOutside.behind
    (h : AllowedOutside (Token.spans none (⟨lexeme, column⟩ :: ts))
      (column + lexeme.source.length) t)
    (hbracket : lexeme.isBracket = false) :
    AllowedOutside (Token.spans none ts) (column + lexeme.source.length) t := by
  obtain hflat | ⟨body, rfl⟩ := Lexeme.isFlat_or_braced hbracket
  · rwa [spans_flat hflat] at h
  · exact h.drop_span (Nat.le_refl _)

/-- The text that tokens spell is passed, if brackets are paired around sets of attributes and in
texts in braces, and all else consists of characters of abbreviations. -/
theorem passes_of_spelled (h : Token.Spelled column t ts)
    (hbrackets : Grammar.Bracketed start?.isSome ts)
    (hallowed : AllowedOutside (Token.spans start? ts) column t)
    (hpaired : ∀ token ∈ ts, ∀ body, token.lexeme = .braced body → Paired 0 body) (hlt : '<' ∉ t) :
    Passes start?.isSome.toNat 0 t := by
  induction h generalizing start? with
  | nil =>
    cases start? with
    | none => exact .nil
    | some start => cases hbrackets
  | @separator column t ts hrest ih =>
    cases start? with
    | none =>
      -- A separator between the sets is none of the characters of abbreviations.
      have hhead := AllowedOutside.head (t := ['\x00']) hallowed hrest.column_le_of_mem_spans
      exact absurd (hhead _ List.mem_cons_self) (by decide)
    | some start =>
      have htail := AllowedOutside.tail (t := ['\x00']) hallowed
      have hpass := ih hbrackets htail hpaired (fun hmem => hlt (List.mem_cons_of_mem _ hmem))
      exact .append (passes_inside (by decide)) hpass (by decide)
  | @token column lexeme t ts hform hrest ih =>
    rw [List.mem_append, not_or] at hlt
    obtain ⟨hltHere, hltRest⟩ := hlt
    obtain ⟨hpairedHere, hpairedRest⟩ := List.forall_mem_cons.1 hpaired
    have htail := hallowed.tail
    cases start? with
    | none =>
      cases hbrackets with
      | opening hinside =>
        have hpass := @ih (some column) hinside htail hpairedRest hltRest
        exact .append (passes_open (.inl rfl)) hpass hltHere
      | between hbracket hoff =>
        have hpass := @ih none hoff (htail.behind hbracket) hpairedRest hltRest
        have hhere := passes_between hform hbracket
          (fun hflat => (spans_flat hflat ▸ hallowed).head hrest.column_le_of_mem_spans)
          hpairedHere hltHere
        exact .append hhere hpass hltHere
    | some start =>
      cases hbrackets with
      | closing hoff =>
        have hpass := @ih none hoff (htail.drop_span (Nat.le_refl _)) hpairedRest hltRest
        exact .append (passes_close (.inl rfl)) hpass hltHere
      | within hflat hinside =>
        rw [spans_flat hflat] at htail
        have hpass := @ih (some start) hinside htail hpairedRest hltRest
        exact .append (passes_flat_inside hform hflat hltHere) hpass hltHere

/-- Behind a character that is in no abbreviation, and with no tag before it, a text that is passed
is found. -/
theorem trailing_append (hbefore : ∀ c ∈ before.getLast?, isAllowed c = false)
    (hlt : '<' ∉ before) (h : Passes 0 0 t) : Abbreviation.trailing (before ++ t) = t := by
  have hpassed := h before.reverse [] (by simpa using hlt)
  rw [Abbreviation.trailing, List.reverse_append, hpassed, List.append_nil]
  rw [List.getLast?_eq_head?_reverse] at hbefore
  cases hreverse : before.reverse with
  | nil => rfl
  | cons c rest =>
    have hc : isAllowed c = false := hbefore c (by rw [hreverse]; rfl)
    -- All brackets and braces are characters of abbreviations.
    have hne {bracket : Char} (h : isAllowed bracket = true) : c ≠ bracket := by
      rintro rfl
      exact Bool.false_ne_true (hc.symm.trans h)
    have hclose : ¬ (c = ']' ∨ c = '}') := not_or.2 ⟨hne (by decide), hne (by decide)⟩
    have hopen : ¬ (c = '[' ∨ c = '{') := not_or.2 ⟨hne (by decide), hne (by decide)⟩
    simp [hclose, hopen, hc]

end Abbrev.Trailing
