import Abbrev.Proofs.Fallible
import Abbrev.Proofs.Token.Form

/-!
# A text is spelled by its tokens

The tokens that are read from a text are the text again: written one after the other they spell it,
each at its column, with nothing between them but U+0000 (`Token.spelled_readFrom`). No other tokens
are the text, if what follows a token is taken into account: tokens that each fit what follows them,
with a gap between any two words (`Token.Segments`), are those that are read
(`Token.readFrom_eq_ok_iff`).

With their columns, the tokens also say where in the text the sets of attributes and the texts in
braces are (`Token.spans`).
-/

namespace Abbrev.Token

variable {column : Nat} {t : Text} {ts : List Token}

/-- A text that begins at a column is spelled by tokens, with separators between them. -/
inductive Spelled : Nat → Text → List Token → Prop
  | nil {column : Nat} : Spelled column [] []
  | separator {column : Nat} {t : Text} {ts : List Token} :
      Spelled (column + 1) t ts → Spelled column ('\x00' :: t) ts
  | token {column : Nat} {lexeme : Lexeme} {t : Text} {ts : List Token} :
      lexeme.WellFormed → Spelled (column + lexeme.source.length) t ts →
      Spelled column (lexeme.source ++ t) (⟨lexeme, column⟩ :: ts)

/-- A text that begins at a column consists of tokens that each fit what follows them, with
separators between them, and with at least one between any two words. -/
inductive Segments : Nat → Text → List Token → Prop
  | nil {column : Nat} : Segments column [] []
  | separator {column : Nat} {t : Text} {ts : List Token} :
      Segments (column + 1) t ts → Segments column ('\x00' :: t) ts
  | token {column : Nat} {lexeme : Lexeme} {t : Text} {ts : List Token} :
      lexeme.FitsBefore t →
      (lexeme.isWord = true → ∀ u ∈ ts, u.lexeme.isWord = true →
        column + lexeme.source.length < u.column) →
      Segments (column + lexeme.source.length) t ts →
      Segments column (lexeme.source ++ t) (⟨lexeme, column⟩ :: ts)

/-- All tokens of a text are of the form they were read in. -/
theorem Spelled.wellFormed (h : Spelled column t ts) : ∀ token ∈ ts, token.lexeme.WellFormed := by
  induction h with
  | nil => exact List.forall_mem_nil _
  | separator _ ih => exact ih
  | token hform _ ih => exact List.forall_mem_cons.2 ⟨hform, ih⟩

/-! ## What is read makes up the text -/

/-- No token stands before the column at which the text begins. -/
theorem Segments.le_column (h : Segments column t ts) : ∀ u ∈ ts, column ≤ u.column := by
  induction h with
  | nil => exact List.forall_mem_nil _
  | separator _ ih => exact fun u hu => Nat.le_of_succ_le (ih u hu)
  | token _ _ _ ih =>
    refine List.forall_mem_cons.2 ⟨Nat.le_refl _, fun u hu => ?_⟩
    exact Nat.le_trans (Nat.le_add_right _ _) (ih u hu)

/-- Tokens of which a text consists spell it. -/
theorem Segments.spelled (h : Segments column t ts) : Spelled column t ts := by
  induction h with
  | nil => exact .nil
  | separator _ ih => exact .separator ih
  | token hfits _ _ ih => exact .token (wellFormed_of_fitsBefore hfits) ih

/-- A name ends before a text exactly if no word stands at its beginning. -/
theorem Segments.spanName_iff (h : Segments column t ts) : spanName t = ([], t) ↔
    ∀ u ∈ ts, u.lexeme.isWord = true → column < u.column := by
  cases h with
  | nil => exact ⟨fun _ => List.forall_mem_nil _, fun _ => rfl⟩
  | separator hmore =>
    refine ⟨fun _ u hu _ => hmore.le_column u hu, fun _ => ?_⟩
    exact spanName_of_ne_plus rfl (by decide) _
  | @token column lexeme t ts hfits _ hmore =>
    have hlength := List.length_pos_iff.2 (source_ne_nil hfits)
    have hbehind : ∀ u ∈ ts, column < u.column := by
      intro u hu
      have hle := hmore.le_column u hu
      omega
    cases hword : lexeme.isWord with
    | true =>
      -- The word itself would be part of the name.
      obtain ⟨more, hspan, -⟩ := spanName_word hfits hword
      constructor
      · intro hstop
        rw [hstop] at hspan
        exact absurd (List.append_eq_nil_iff.1 hspan.symm).1 (source_ne_nil hfits)
      · intro hwords
        exact absurd (hwords _ List.mem_cons_self hword) (Nat.lt_irrefl _)
    | false =>
      refine ⟨fun _ => List.forall_mem_cons.2 ⟨fun hsign => ?_, fun u hu _ => hbehind u hu⟩,
        fun _ => spanName_sign hfits hword⟩
      rw [hword] at hsign
      cases hsign

/-- A lexeme that is written `u` can stand before tokens, if no two words meet. -/
theorem Segments.cons {lexeme : Lexeme} {u : Text} (hsource : lexeme.source = u)
    (hfits : lexeme.FitsBefore t) (hapart : lexeme.isWord = true → ∀ v ∈ ts,
      v.lexeme.isWord = true → column + u.length < v.column)
    (h : Segments (column + u.length) t ts) :
    Segments column (u ++ t) (⟨lexeme, column⟩ :: ts) := by
  subst hsource
  exact .token hfits hapart h

/-- A lexeme that is written `u` and is no word can stand before any tokens. -/
theorem Segments.sign {lexeme : Lexeme} {u : Text} (hsource : lexeme.source = u)
    (hword : lexeme.isWord = false) (hfits : lexeme.FitsBefore t)
    (h : Segments (column + u.length) t ts) :
    Segments column (u ++ t) (⟨lexeme, column⟩ :: ts) := by
  refine .cons hsource hfits (fun hsign => ?_) h
  rw [hword] at hsign
  cases hsign

/-- The text consists of the tokens that are read from it. -/
theorem segments_readFrom (h : readFrom column t = .ok ts) : Segments column t ts := by
  fun_induction readFrom column t generalizing ts with
  | case1 column =>
    obtain rfl := Except.ok.inj h
    exact .nil
  | case2 column c rest hname =>
    rename_i ih
    obtain ⟨tokens, htokens, h⟩ := bind_eq_ok.1 h
    obtain rfl := Except.ok.inj h
    have hmore := ih htokens
    have hwords := hmore.spanName_iff.1 (spanName_snd (c :: rest))
    have hall := Segments.cons (source_ofName _) (ofName_fitsBefore hname) (fun _ => hwords) hmore
    rwa [spanName_append_snd] at hall
  | case4 column c rest _ hquote body after hspan ih =>
    obtain ⟨tokens, htokens, h⟩ := bind_eq_ok.1 h
    obtain rfl := Except.ok.inj h
    obtain ⟨rfl, hbody⟩ := spanQuoted_spec hspan
    have hsource : (Lexeme.quoted c body).source = c :: body ++ [c] := rfl
    have hall := Segments.sign (t := after) hsource rfl ⟨hquote, hbody⟩
      (by simpa [Nat.add_assoc] using ih htokens)
    simpa using hall
  | case6 column rest body after hspan _ _ ih =>
    obtain ⟨tokens, htokens, h⟩ := bind_eq_ok.1 h
    obtain rfl := Except.ok.inj h
    obtain ⟨rfl, hbody⟩ := spanBraced_spec hspan
    have hsource : (Lexeme.braced body).source = '{' :: body ++ ['}'] := rfl
    have hall := Segments.sign (t := after) hsource rfl (bracePair_iff.2 hbody)
      (by simpa [Nat.add_assoc] using ih htokens)
    simpa using hall
  | case8 column c rest hname hquote hopen hclose ih =>
    obtain ⟨tokens, htokens, h⟩ := bind_eq_ok.1 h
    have hnil : (spanName (c :: rest)).1 = [] := Classical.not_not.1 hname
    cases hlexeme : ofDelimiter? c with
    | none =>
      rw [hlexeme] at h
      obtain rfl := Except.ok.inj h
      have hdelimiter := isDelimiter_of_spanName_eq_nil hnil
      obtain rfl := eq_separator_of_ofDelimiter? hlexeme hdelimiter hquote hopen hclose
      exact .separator (ih htokens)
    | some lexeme =>
      rw [hlexeme] at h
      obtain rfl := Except.ok.inj h
      obtain ⟨hsource, hword⟩ := source_of_ofDelimiter? hlexeme
      exact .sign hsource hword (ofDelimiter?_fitsBefore hlexeme hnil) (ih htokens)
  | _ => cases h

/-- The tokens that are read from a text spell it. -/
theorem spelled_readFrom (h : readFrom column t = .ok ts) : Spelled column t ts :=
  (segments_readFrom h).spelled

/-! ## What makes up the text is read -/

/-- A name at the beginning of a text is read as a word, before what is read of the rest. -/
theorem readFrom_spanName (column : Nat) (hne : (spanName t).1 ≠ []) :
    readFrom column t =
      (readFrom (column + (spanName t).1.length) (spanName t).2).map
        (⟨ofName (spanName t).1, column⟩ :: ·) := by
  cases t with
  | nil => exact absurd rfl hne
  | cons c rest =>
    rw [readFrom, dif_pos hne]
    rfl

/-- A text between quotes is read as such, before what is read of the rest. -/
theorem readFrom_quoted (column : Nat) {quote : Char} {body : Text}
    (hquote : quote = '"' ∨ quote = '\'') (hbody : quote ∉ body) :
    readFrom column (quote :: (body ++ quote :: t)) =
      (readFrom (column + body.length + 2) t).map (⟨.quoted quote body, column⟩ :: ·) := by
  have hspan := spanQuoted_append hbody t
  have hname : spanName (quote :: (body ++ quote :: t)) = ([], quote :: (body ++ quote :: t)) := by
    obtain rfl | rfl := hquote <;> exact spanName_of_ne_plus rfl (by decide) _
  rw [readFrom, dif_neg (by rw [hname]; exact fun hne => hne rfl), if_pos hquote]
  split
  · next hnone =>
    rw [hspan] at hnone
    cases hnone
  · next found after hsome =>
    rw [hspan] at hsome
    obtain ⟨rfl, rfl⟩ := Prod.mk.inj (Option.some.inj hsome)
    rfl

/-- A text between braces is read as such, before what is read of the rest. -/
theorem readFrom_braced (column : Nat) {body : Text} (hbody : ClosesBraces 0 body) :
    readFrom column ('{' :: (body ++ '}' :: t)) =
      (readFrom (column + body.length + 2) t).map (⟨.braced body, column⟩ :: ·) := by
  have hspan := spanBraced_append hbody t
  have hname : spanName ('{' :: (body ++ '}' :: t)) = ([], '{' :: (body ++ '}' :: t)) :=
    spanName_of_ne_plus rfl (by decide) _
  rw [readFrom, dif_neg (by rw [hname]; exact fun hne => hne rfl), if_neg (by decide), if_pos rfl]
  split
  · next hnone =>
    rw [hspan] at hnone
    cases hnone
  · next found after hsome =>
    rw [hspan] at hsome
    obtain ⟨rfl, rfl⟩ := Prod.mk.inj (Option.some.inj hsome)
    rfl

/-- A delimiter that opens nothing is read as the lexeme that it stands for, if any, before what is
read of the rest. -/
theorem readFrom_delimiter (column : Nat) {c : Char}
    (hname : spanName (c :: t) = ([], c :: t)) (hopens : c ∉ ['"', '\'', '{', '}']) :
    readFrom column (c :: t) = (readFrom (column + 1) t).map
      (((ofDelimiter? c).map fun lexeme => ⟨lexeme, column⟩).toList ++ ·) := by
  simp only [List.mem_cons, List.not_mem_nil, or_false, not_or] at hopens
  obtain ⟨hdouble, hsingle, hopen, hclose⟩ := hopens
  rw [readFrom, dif_neg (by rw [hname]; exact fun hne => hne rfl),
    if_neg fun hquote => hquote.elim hdouble hsingle, if_neg hopen, if_neg hclose]
  cases ofDelimiter? c <;> cases readFrom (column + 1) t <;> rfl

/-- A lexeme is read as itself, if it fits what follows it, and no name goes on there. -/
theorem readFrom_lexeme {lexeme : Lexeme} (hfits : lexeme.FitsBefore t)
    (hstop : lexeme.isWord = true → spanName t = ([], t))
    (h : readFrom (column + lexeme.source.length) t = .ok ts) :
    readFrom column (lexeme.source ++ t) = .ok (⟨lexeme, column⟩ :: ts) := by
  cases hword : lexeme.isWord with
  | true =>
    obtain ⟨-, -, hspan⟩ := spanName_word hfits hword
    have hname := hspan (hstop hword)
    have hread := readFrom_spanName column (by rw [hname]; exact source_ne_nil hfits)
    rw [hname, h, ofName_source hfits hword] at hread
    exact hread
  | false =>
    have hname := spanName_sign hfits hword
    cases lexeme with
    | name value => cases hword
    | number digits => cases hword
    | quoted quote body =>
      have hread := readFrom_quoted column (t := t) hfits.1 hfits.2
      have hrest : readFrom (column + body.length + 2) t = .ok ts := by
        simpa [Lexeme.source, Nat.add_assoc] using h
      rw [hrest] at hread
      simpa [Lexeme.source, Except.map] using hread
    | braced body =>
      have hread := readFrom_braced column (t := t) (bracePair_iff.1 hfits)
      have hrest : readFrom (column + body.length + 2) t = .ok ts := by
        simpa [Lexeme.source, Nat.add_assoc] using h
      rw [hrest] at hread
      simpa [Lexeme.source, Except.map] using hread
    | punctuation sign =>
      have hread := readFrom_delimiter column hname (by cases sign <;> decide)
      cases sign <;> exact hread.trans (congrArg (Except.map _) h)
    | operator op =>
      have hread := readFrom_delimiter column hname (by cases op <;> decide)
      cases op <;> exact hread.trans (congrArg (Except.map _) h)

/-- The tokens of which a text consists are read from it. -/
theorem Segments.readFrom_eq (h : Segments column t ts) : readFrom column t = .ok ts := by
  induction h with
  | nil => rw [readFrom]
  | @separator column t ts _ ih =>
    rw [readFrom_delimiter _ (spanName_of_ne_plus rfl (by decide) t) (by decide), ih]
    rfl
  | token hfits hapart hmore ih =>
    exact readFrom_lexeme hfits (fun hword => hmore.spanName_iff.2 (hapart hword)) ih

/-- The tokens of a text are those of which it consists. -/
theorem readFrom_eq_ok_iff : readFrom column t = .ok ts ↔ Segments column t ts :=
  ⟨segments_readFrom, Segments.readFrom_eq⟩

/-! ## The spans of attribute sets and texts -/

/-- Where the texts in braces and the sets of attributes stand: the column of the first character of
each, and the column after its last. A set that is open began at the column `start?`. -/
def spans : Option Nat → List Token → List (Nat × Nat)
  | _, [] => []
  | none, t :: ts =>
    match t.lexeme with
    | .braced _ => (t.column, t.stop) :: spans none ts
    | .punctuation .openBracket => spans (some t.column) ts
    | _ => spans none ts
  | some start, t :: ts =>
    match t.lexeme with
    | .punctuation .closeBracket => (start, t.stop) :: spans none ts
    | _ => spans (some start) ts

/-- No span begins before the tokens, or before the set that is open. -/
theorem Spelled.le_of_mem_spans (h : Spelled column t ts) {n : Nat} {start? : Option Nat}
    (hn : n ≤ column) (hstart : ∀ start ∈ start?, n ≤ start) :
    ∀ span ∈ spans start? ts, n ≤ span.1 := by
  induction h generalizing start? with
  | nil => cases start? <;> exact List.forall_mem_nil _
  | separator _ ih => exact ih (Nat.le_succ_of_le hn) hstart
  | @token column lexeme t ts _ _ ih =>
    have hn' : n ≤ column + lexeme.source.length := Nat.le_add_right_of_le hn
    have hnone : ∀ start ∈ (none : Option Nat), n ≤ start := by simp
    cases start? with
    | none =>
      rw [spans]
      split
      · exact List.forall_mem_cons.2 ⟨hn, ih hn' hnone⟩
      · exact ih hn' (by simpa using hn)
      · exact ih hn' hnone
    | some start =>
      rw [spans]
      split
      · exact List.forall_mem_cons.2 ⟨hstart start rfl, ih hn' hnone⟩
      · exact ih hn' hstart

/-- Where no set is open, no span begins before the tokens. -/
theorem Spelled.column_le_of_mem_spans (h : Spelled column t ts) :
    ∀ span ∈ spans none ts, column ≤ span.1 :=
  h.le_of_mem_spans (Nat.le_refl column) (by simp)

end Abbrev.Token
