import Abbrev.Proofs.Grammar.Selectors

/-!
# The reader accepts exactly the grammar

An expression is read from the front of a list of tokens, and a reader does not know where its
phrase ends. `Derives.complete` therefore speaks of a phrase with tokens behind it that may follow a
phrase of its kind (`Follows`), and `phrases_sound` of the tokens that a reader has taken. Both are
inductions, one over the derivation and one over the calls of the readers, with a lemma for each way
in which a phrase is put together.

For whole lists the two meet: `parseTokens_eq_ok_iff` says that the tokens of an abbreviation are
those that the grammar derives, apart from texts where the generator has no place for them and from
texts that stand alone.
-/

namespace Abbrev.Grammar

variable {g : Grammar} {ts us rest : List Token}

/-! ## What may follow a phrase -/

/-- The lexemes that may stand after a phrase of some kind: what ends an expression ends all kinds,
an operator ends a primary, and one other than `*` ends a term. -/
def mayFollow : Phrase → Lexeme → Bool
  | _, .punctuation .closeParen => true
  | _, .punctuation .bar => true
  | .primary, .operator _ => true
  | .term, .operator op => op != .times
  | _, _ => false

/-- Whether tokens may stand after a phrase of some kind. -/
def Follows (p : Phrase) (ts : List Token) : Prop :=
  ∀ t ∈ ts.head?, mayFollow p t.lexeme = true

/-- What may follow a phrase may follow the smaller phrase that stands at its end. -/
theorem mayFollow_mono (lexeme : Lexeme) :
    (mayFollow .expression lexeme = true → mayFollow .term lexeme = true) ∧
      (mayFollow .term lexeme = true → mayFollow .primary lexeme = true) := by
  cases lexeme with
  | punctuation sign => cases sign <;> simp [mayFollow]
  | _ => simp [mayFollow]

/-- What may follow an expression may follow a term. -/
theorem Follows.term (h : Follows .expression ts) : Follows .term ts := by
  intro t ht
  exact (mayFollow_mono t.lexeme).1 (h t ht)

/-- What may follow a term may follow a primary. -/
theorem Follows.primary (h : Follows .term ts) : Follows .primary ts := by
  intro t ht
  exact (mayFollow_mono t.lexeme).2 (h t ht)

/-- No selector follows a primary: it would belong to the element. -/
theorem Follows.startsSelector (h : Follows .primary ts) : startsSelector ts = false := by
  cases ts with
  | nil => rfl
  | cons t more =>
    have ht := h t rfl
    obtain ⟨lexeme, c⟩ := t
    cases lexeme with
    | punctuation sign => cases sign <;> first | rfl | cases ht
    | _ => rfl

/-- No text follows a primary: it would belong to the element. -/
theorem Follows.startsBraced (h : Follows .primary ts) : startsBraced ts = false := by
  cases ts with
  | nil => rfl
  | cons t more =>
    have ht := h t rfl
    obtain ⟨lexeme, c⟩ := t
    cases lexeme with
    | braced => cases ht
    | _ => rfl

/-! ## What is read is derived -/

/-- If a reader of phrases succeeds, then its tokens are a phrase of the kind `p`, and the rest. -/
def Sound (g : Grammar) (p : Phrase) (result : Except Halt (Abbreviation × Shorter ts)) : Prop :=
  ∀ a last, result = .ok (a, last) → ∃ us, ts = us ++ last.1 ∧ Derives g p us a

/-- Under a repetition, a text is put into a group. -/
theorem repeats_iff {a b : Abbreviation} : Repeats a b ↔ repeatable a = b := by
  constructor
  · intro h
    cases h with
    | text => rfl
    | other hne =>
      cases a with
      | text body => exact absurd rfl (hne body)
      | _ => rfl
  · rintro rfl
    cases a with
    | text body => exact .text
    | _ => exact .other (by simp)

/-- Digits are read as the number that they denote, if there are not too many. -/
theorem readNatural_eq (digits : Text) :
    Text.readNatural digits =
      if 4300 < digits.length then .error (.digits digits.length)
      else .ok (Text.decimal digits) := by
  rw [Text.decimal, ← Text.foldl_eq_positional]
  rfl

/-- A primary with the repetition that was read after it is a term. -/
theorem repetition_sound {a b : Abbreviation} {last : NoLonger ts} (h : Derives g .primary us a)
    (hread : repetition a ts = .ok (b, last)) :
    ∃ vs, ts = vs ++ last.1 ∧ Derives g .term (us ++ vs) b := by
  unfold repetition at hread
  split at hread
  · split at hread
    · next digits d rest =>
      rw [readNatural_eq] at hread
      split at hread
      · next count hcount =>
        obtain ⟨rfl, rfl⟩ := Prod.mk.inj (Except.ok.inj hread)
        split at hcount
        · cases hcount
        · next hshort =>
          obtain rfl := Except.ok.inj hcount
          exact ⟨_, rfl, .times h (repeats_iff.2 rfl) (Nat.le_of_not_lt hshort)⟩
      · cases hread
    · obtain ⟨rfl, rfl⟩ := Prod.mk.inj (Except.ok.inj hread)
      exact ⟨_, rfl, .perLine h (repeats_iff.2 rfl)⟩
  · obtain ⟨rfl, rfl⟩ := Prod.mk.inj (Except.ok.inj hread)
    exact ⟨[], rfl, by simpa using Derives.once h⟩

/-- A term, an operator that joins and an expression are an expression. -/
theorem Derives.join {op : Operator} {join : Abbreviation → Abbreviation → Abbreviation}
    (hjoin : join? op = some join) {a b : Abbreviation} {c : Nat} (ha : Derives g .term ts a)
    (hb : Derives g .expression us b) :
    Derives g .expression (ts ++ ⟨.operator op, c⟩ :: us) (join a b) := by
  cases op with
  | sibling => cases hjoin; exact .sibling ha hb
  | child => cases hjoin; exact .child ha hb
  | climb => cases hjoin; exact .climb ha hb
  | times => cases hjoin

/-- Reading an expression that begins with `^` is sound if reading the rest is. -/
theorem expression_sound_climb {c : Nat} (hrest : Sound g .expression (g.expression ts)) :
    Sound g .expression (g.expression (⟨.operator .climb, c⟩ :: ts)) := by
  intro a last h
  rw [expression] at h
  obtain ⟨⟨right, last'⟩, hread, h⟩ := bind_eq_ok.1 h
  obtain ⟨rfl, rfl⟩ := Prod.mk.inj (Except.ok.inj h)
  obtain ⟨us, hus, hright⟩ := hrest right last' hread
  have hts : ⟨.operator .climb, c⟩ :: ts = ⟨.operator .climb, c⟩ :: us ++ last'.1 := by
    rw [List.cons_append, ← hus]
  exact ⟨_, hts, .leadingClimb hright⟩

/-- Reading an expression that begins with a term is sound if reading its parts is. -/
theorem expression_sound_term (hclimb : ∀ c rest, ts = ⟨.operator .climb, c⟩ :: rest → False)
    (hprimary : Sound g .primary (g.primary ts))
    (hright : ∀ (op : Operator) (c : Nat) (after : List Token),
      List.length (⟨.operator op, c⟩ :: after) < ts.length →
        Sound g .expression (g.expression after)) :
    Sound g .expression (g.expression ts) := by
  intro a last h
  rw [expression.eq_2 g ts hclimb] at h
  -- A primary and its repetition are the term on the left.
  obtain ⟨⟨inner, afterInner⟩, hread, h⟩ := bind_eq_ok.1 h
  obtain ⟨us, hus, hinner⟩ := hprimary inner afterInner hread
  obtain ⟨⟨left, rest, hle⟩, hrepetition, h⟩ := bind_eq_ok.1 h
  obtain ⟨vs, hvs, hterm⟩ := repetition_sound hinner hrepetition
  have hts := hus.trans (congrArg (us ++ ·) hvs)
  dsimp only at h hts
  split at h
  · next op c after shorter =>
    cases hjoin : join? op with
    | none => simp [hjoin] at h
    | some join =>
      simp only [hjoin] at h
      obtain ⟨⟨right, last'⟩, hread', h⟩ := bind_eq_ok.1 h
      obtain ⟨rfl, rfl⟩ := Prod.mk.inj (Except.ok.inj h)
      obtain ⟨ws, hws, hexpression⟩ := hright op c after shorter right last' hread'
      have hall : ts = us ++ vs ++ ⟨.operator op, c⟩ :: ws ++ last'.1 := by
        rw [hts, List.append_assoc, List.append_assoc, List.cons_append, ← hws]
      exact ⟨_, hall, hterm.join hjoin hexpression⟩
  · obtain ⟨rfl, rfl⟩ := Prod.mk.inj (Except.ok.inj h)
    have hall : ts = us ++ vs ++ rest := by
      rw [hts, List.append_assoc]
    exact ⟨_, hall, .single hterm⟩

/-- Reading a group is sound if reading what stands inside is. -/
theorem primary_sound_group {c : Nat} (hinner : Sound g .expression (g.expression ts)) :
    Sound g .primary (g.primary (⟨.punctuation .openParen, c⟩ :: ts)) := by
  intro a last h
  rw [primary] at h
  obtain ⟨⟨inner, afterInner⟩, hread, h⟩ := bind_eq_ok.1 h
  obtain ⟨us, hus, hinner⟩ := hinner inner afterInner hread
  dsimp only at h
  split at h
  · next d rest shorter =>
    obtain ⟨rfl, rfl⟩ := Prod.mk.inj (Except.ok.inj h)
    have hts : ⟨.punctuation .openParen, c⟩ :: ts =
        ⟨.punctuation .openParen, c⟩ :: us ++ [⟨.punctuation .closeParen, d⟩] ++ rest := by
      rw [hus]
      simp
    exact ⟨_, hts, .group hinner⟩
  · cases h

/-- Reading expressions and primaries is sound. -/
theorem phrases_sound (g : Grammar) :
    (∀ ts, Sound g .expression (g.expression ts)) ∧ ∀ ts, Sound g .primary (g.primary ts) := by
  -- One case for each way in which a call of the two readers goes on.
  refine expression.mutual_induct (fun ts => Sound g .expression (g.expression ts))
    (fun ts => Sound g .primary (g.primary ts)) ?_ ?_ ?_ ?_ ?_
  · intro c rest ih
    exact expression_sound_climb ih
  · intro ts hclimb ihPrimary ihExpression
    exact expression_sound_term hclimb ihPrimary ihExpression
  · intro c afterOpen ih
    exact primary_sound_group ih
  · intro body c rest a last h
    rw [primary] at h
    obtain ⟨rfl, rfl⟩ := Prod.mk.inj (Except.ok.inj h)
    exact ⟨_, rfl, .text⟩
  · intro ts hopen hbraced a last h
    rw [primary.eq_3 g ts hopen hbraced] at h
    obtain ⟨us, hus, hform⟩ := element_sound h
    exact ⟨us, hus, .element hform⟩

/-! ## What is derived is read -/

/-- The lexemes that an element begins with: a name or the sign of a selector. -/
def startsElement : Lexeme → Bool
  | .name _ => true
  | .punctuation .dot => true
  | .punctuation .hash => true
  | .punctuation .openBracket => true
  | _ => false

/-- An element begins with a name or a selector. -/
theorem ElementForm.head {a : Abbreviation} (h : ElementForm g us a) :
    ∃ t more, us = t :: more ∧ startsElement t.lexeme = true := by
  cases h with
  | named => exact ⟨_, _, rfl, rfl⟩
  | unnamed hknown hrun hne hinline =>
    cases hrun with
    | nil => exact absurd rfl hne
    | cons hform hrun => cases hform <;> exact ⟨_, _, rfl, rfl⟩

/-- Neither a primary nor a term begins with an operator. -/
theorem Derives.head {p : Phrase} {a : Abbreviation} (h : Derives g p us a) (hp : p ≠ .expression) :
    ∃ t more, us = t :: more ∧ ∀ op, t.lexeme ≠ .operator op := by
  induction h with
  | group => exact ⟨_, _, rfl, by simp⟩
  | text => exact ⟨_, _, rfl, by simp⟩
  | element hform =>
    obtain ⟨t, more, rfl, ht⟩ := hform.head
    refine ⟨t, more, rfl, ?_⟩
    rintro op hop
    rw [hop] at ht
    cases ht
  | once _ ih => exact ih (by simp)
  | perLine _ _ ih =>
    obtain ⟨t, more, rfl, ht⟩ := ih (by simp)
    exact ⟨t, _, rfl, ht⟩
  | times _ _ _ ih =>
    obtain ⟨t, more, rfl, ht⟩ := ih (by simp)
    exact ⟨t, _, rfl, ht⟩
  | _ => exact absurd rfl hp

/-- The phrase `us` is read from the front of its tokens, and `rest` is left. A term is read in two
steps, a primary and its repetition. -/
def Complete (g : Grammar) (p : Phrase) (us : List Token) (a : Abbreviation) (rest : List Token) :
    Prop :=
  match p with
  | .expression => Reads (g.expression (us ++ rest)) a rest
  | .primary => Reads (g.primary (us ++ rest)) a rest
  | .term => ∃ inner after, Reads (g.primary (us ++ rest)) inner after ∧
      ∃ hle : rest.length ≤ after.length, repetition inner after = .ok (a, ⟨rest, hle⟩)

/-- Tokens that may follow a term do not go on with a repetition. -/
theorem repetition_none {a : Abbreviation} (h : Follows .term rest) :
    repetition a rest = .ok (a, ⟨rest, Nat.le_refl _⟩) := by
  unfold repetition
  split
  · next c more =>
    have := h _ rfl
    cases this
  · rfl

/-- Tokens that may follow a term are no number, so that a lone `*` counts the lines. -/
theorem repetition_perLine {a : Abbreviation} {c : Nat} (h : Follows .term rest) :
    repetition a (⟨.operator .times, c⟩ :: rest) =
      .ok (.repeated (repeatable a) .perLine, ⟨rest, Nat.le_succ _⟩) := by
  cases rest with
  | nil => rfl
  | cons t more =>
    have ht := h t rfl
    obtain ⟨lexeme, d⟩ := t
    cases lexeme with
    | number => cases ht
    | _ => rfl

/-- A term does not begin with `^`, so that an expression with it in front is no leading climb. -/
theorem Derives.ne_climb {a : Abbreviation} (h : Derives g .term us a) (rest : List Token) (c : Nat)
    (more : List Token) : us ++ rest = ⟨.operator .climb, c⟩ :: more → False := by
  obtain ⟨t, us, rfl, ht⟩ := h.head (by simp)
  rintro heq
  injection heq with htoken
  exact ht .climb (by rw [htoken])

/-- A term at the front is read as an expression if nothing that joins follows. -/
theorem expression_complete_single {a : Abbreviation} (hterm : Derives g .term us a)
    (hread : Complete g .term us a rest) (hrest : Follows .expression rest) :
    Complete g .expression us a rest := by
  obtain ⟨inner, after, ⟨hlt, hprimary⟩, hle, hrep⟩ := hread
  refine ⟨Nat.lt_of_le_of_lt hle hlt, ?_⟩
  -- After the term the reader looks for an operator, and what may follow does not begin with one.
  rw [expression.eq_2 g _ (hterm.ne_climb rest)]
  simp only [bind, Except.bind, hprimary, hrep]
  cases rest with
  | nil => rfl
  | cons u others =>
    have hu := hrest u rfl
    obtain ⟨lexeme, d⟩ := u
    cases lexeme with
    | operator => cases hu
    | _ => rfl

/-- A term, an operator that joins and an expression are read as one expression. -/
theorem expression_complete_join {op : Operator}
    {join : Abbreviation → Abbreviation → Abbreviation} (hjoin : join? op = some join)
    {a b : Abbreviation} {c : Nat} (hterm : Derives g .term ts a)
    (hread : Complete g .term ts a (⟨.operator op, c⟩ :: (us ++ rest)))
    (hright : Complete g .expression us b rest) :
    Complete g .expression (ts ++ ⟨.operator op, c⟩ :: us) (join a b) rest := by
  obtain ⟨inner, after, ⟨hlt, hprimary⟩, hle, hrep⟩ := hread
  obtain ⟨hlt', hexpression⟩ := hright
  unfold Complete
  rw [List.append_assoc, List.cons_append]
  refine ⟨?_, ?_⟩
  · simp only [List.length_cons, List.length_append] at hlt hle hlt' ⊢
    omega
  · rw [expression.eq_2 g _ (hterm.ne_climb _)]
    simp only [bind, Except.bind, hprimary, hrep, hjoin, hexpression]

/-- Every phrase is read, if what follows cannot belong to it. -/
theorem Derives.complete {p : Phrase} {a : Abbreviation} (h : Derives g p us a) :
    ∀ rest, Follows p rest → Complete g p us a rest := by
  -- On the derivation, for any tokens behind it: inside a phrase these are its next sign.
  induction h with
  | @group ts c d a _ ih =>
    intro rest hrest
    obtain ⟨hlt, hread⟩ := ih (⟨.punctuation .closeParen, d⟩ :: rest) (by rintro t ⟨⟩; rfl)
    unfold Complete
    rw [List.append_assoc, List.cons_append, List.singleton_append]
    refine ⟨by simp only [List.length_cons] at hlt ⊢; omega, ?_⟩
    rw [primary]
    simp only [bind, Except.bind, hread]
  | @text c body =>
    intro rest hrest
    unfold Complete
    rw [List.singleton_append]
    exact ⟨Nat.lt_succ_self _, by rw [primary]⟩
  | @element ts a hform =>
    intro rest hrest
    obtain ⟨hlt, hread⟩ := element_complete hform hrest.startsSelector hrest.startsBraced
    obtain ⟨t, more, rfl, ht⟩ := hform.head
    refine ⟨hlt, ?_⟩
    -- The reader tries groups and texts first; the first token of an element is neither.
    rw [primary.eq_3, hread]
    · rintro c after heq
      injection heq with htoken
      rw [htoken] at ht
      cases ht
    · rintro body c after heq
      injection heq with htoken
      rw [htoken] at ht
      cases ht
  | @once ts a _ ih =>
    intro rest hrest
    exact ⟨a, rest, ih rest hrest.primary, Nat.le_refl _, repetition_none hrest⟩
  | @perLine ts c a b _ hrepeats ih =>
    intro rest hrest
    have hread := ih (⟨.operator .times, c⟩ :: rest) (by rintro t ⟨⟩; rfl)
    obtain rfl := repeats_iff.1 hrepeats
    unfold Complete
    rw [List.append_assoc, List.singleton_append]
    exact ⟨a, _, hread, Nat.le_succ _, repetition_perLine hrest⟩
  | @times ts c d digits a b _ hrepeats hshort ih =>
    intro rest hrest
    have hread := ih (⟨.operator .times, c⟩ :: ⟨.number digits, d⟩ :: rest) (by rintro t ⟨⟩; rfl)
    obtain rfl := repeats_iff.1 hrepeats
    unfold Complete
    rw [List.append_assoc]
    refine ⟨a, _, hread, Nat.le_add_right _ 2, ?_⟩
    rw [repetition, readNatural_eq, if_neg (Nat.not_lt_of_le hshort)]
  | @leadingClimb ts c a _ ih =>
    intro rest hrest
    obtain ⟨hlt, hread⟩ := ih rest hrest
    unfold Complete
    rw [List.cons_append]
    refine ⟨Nat.lt_succ_of_lt hlt, ?_⟩
    rw [expression]
    simp only [bind, Except.bind, hread]
  | @single ts a hterm ih =>
    intro rest hrest
    exact expression_complete_single hterm (ih rest hrest.term) hrest
  | @sibling ts us c a b hterm _ ihTerm ihExpression =>
    intro rest hrest
    have hjoin : join? .sibling = some .sibling := rfl
    exact expression_complete_join hjoin hterm (ihTerm _ (by rintro t ⟨⟩; rfl))
      (ihExpression rest hrest)
  | @child ts us c a b hterm _ ihTerm ihExpression =>
    intro rest hrest
    have hjoin : join? .child = some .child := rfl
    exact expression_complete_join hjoin hterm (ihTerm _ (by rintro t ⟨⟩; rfl))
      (ihExpression rest hrest)
  | @climb ts us c a b hterm _ ihTerm ihExpression =>
    intro rest hrest
    have hjoin : join? .climb = some .climb := rfl
    exact expression_complete_join hjoin hterm (ihTerm _ (by rintro t ⟨⟩; rfl))
      (ihExpression rest hrest)

/-! ## Whole lists of tokens -/

/-- A suffix is allowed if it is in the list of suffixes, where there is one. -/
theorem all_suffixes_contains_iff {name : Text} :
    g.suffixes.all (·.contains name) = true ↔ ∀ allowed ∈ g.suffixes, name ∈ allowed := by
  cases g.suffixes <;> simp

/-- Reading suffixes is sound: they extend what has been read before. -/
theorem suffixed_sound {a b : Abbreviation} (ha : SuffixedForm g us a)
    (h : g.suffixed a ts = .ok (b, rest)) :
    ∃ vs, ts = vs ++ rest ∧ SuffixedForm g (us ++ vs) b := by
  fun_induction suffixed g a ts generalizing us with
  | case1 a c name d more hallowed ih =>
    have hname := all_suffixes_contains_iff.1 hallowed
    obtain ⟨vs, hvs, hform⟩ := ih (.suffix (c := c) (d := d) ha hname) h
    have hall : ⟨.punctuation .bar, c⟩ :: ⟨.name name, d⟩ :: more =
        ⟨.punctuation .bar, c⟩ :: ⟨.name name, d⟩ :: vs ++ rest := by
      rw [List.cons_append, List.cons_append, ← hvs]
    exact ⟨_, hall, by simpa using hform⟩
  | case2 => cases h
  | case3 => cases h
  | case4 a ts =>
    obtain ⟨rfl, rfl⟩ := Prod.mk.inj (Except.ok.inj h)
    exact ⟨[], rfl, by simpa using ha⟩

/-- A suffixed form is an expression, and the suffixes after it are read as those. -/
theorem SuffixedForm.complete {b : Abbreviation} (h : SuffixedForm g ts b) :
    ∃ a us vs, ts = us ++ vs ∧ Derives g .expression us a ∧ Follows .expression vs ∧
      ∀ rest, g.suffixed a (vs ++ rest) = g.suffixed b rest := by
  induction h with
  | @bare ts a hexpression =>
    exact ⟨a, ts, [], by simp, hexpression, by rintro t ⟨⟩, fun rest => rfl⟩
  | @suffix ts c d b name _ hname ih =>
    obtain ⟨a, us, vs, rfl, hexpression, hfollows, hread⟩ := ih
    refine ⟨a, us, vs ++ [⟨.punctuation .bar, c⟩, ⟨.name name, d⟩], by simp, hexpression, ?_, ?_⟩
    · -- With no suffix before it, the new one is what follows the expression.
      cases vs with
      | nil => rintro t ⟨⟩; rfl
      | cons t more => exact hfollows
    · intro rest
      rw [List.append_assoc, hread, List.cons_append, List.singleton_append, suffixed,
        if_pos (all_suffixes_contains_iff.2 hname)]

/-- There is no text to complain about exactly if texts are allowed or there are none. -/
theorem unsupportedText?_eq_none_iff : g.unsupportedText? ts = none ↔ TextsAllowed g ts := by
  unfold unsupportedText? TextsAllowed
  cases g.generator with
  | none => simp
  | some generator =>
    cases hsupports : generator.supportsText with
    | true => simp [hsupports]
    | false =>
      simp only [hsupports, Bool.false_eq_true, if_false, Option.map_eq_none_iff,
        List.find?_eq_none, Option.mem_def, Option.some.injEq, forall_eq', true_implies]
      constructor
      · intro h t ht body hbody
        exact h t ht (by rw [hbody])
      · intro h t ht
        cases hlexeme : t.lexeme with
        | braced body => exact absurd hlexeme (h t ht body)
        | _ => simp

/-- An abbreviation is a bare text exactly if it is one under its suffixes. -/
theorem isBareText_iff (a : Abbreviation) :
    isBareText a = true ↔ ∃ value, a.unfiltered = .text value := by
  unfold isBareText
  cases a.unfiltered <;> simp

/-- The tokens that an expression and its suffixes are read from are an abbreviation, and the
rest. -/
theorem abbreviation_sound {a : Abbreviation}
    (h : (do let (a, rest) ← g.expression ts; g.suffixed a rest.1) = .ok (a, rest)) :
    ∃ us, ts = us ++ rest ∧ SuffixedForm g us a := by
  obtain ⟨⟨inner, after⟩, hinner, hsuffixed⟩ := bind_eq_ok.1 h
  obtain ⟨us, hus, hexpression⟩ := (phrases_sound g).1 ts inner after hinner
  obtain ⟨vs, hvs, hform⟩ := suffixed_sound (.bare hexpression) hsuffixed
  exact ⟨us ++ vs, by rw [List.append_assoc, ← hvs, ← hus], hform⟩

/-- Tokens that are read as an abbreviation derive it, have no text where there is no place for one,
and are not a text alone. -/
theorem parseTokens_sound {a : Abbreviation} (h : g.parseTokens ts = .ok a) :
    SuffixedForm g ts a ∧ TextsAllowed g ts ∧ ∀ value, a.unfiltered ≠ .text value := by
  unfold parseTokens at h
  dsimp only at h
  split at h
  · cases h
  · next htexts =>
    split at h
    · cases h
    · next b rest hread =>
      obtain ⟨us, hus, hform⟩ := abbreviation_sound hread
      split at h
      · cases h
      · next hrest =>
        split at h
        · cases h
        · next hbare =>
          obtain rfl := Except.ok.inj h
          obtain rfl : rest = [] := by simpa using hrest
          rw [List.append_nil] at hus
          rw [isBareText_iff, not_exists] at hbare
          exact ⟨hus ▸ hform, unsupportedText?_eq_none_iff.1 htexts, hbare⟩

/-- The expression and the suffixes of an abbreviation are read to the end of its tokens. -/
theorem SuffixedForm.reads {a : Abbreviation} (h : SuffixedForm g ts a) :
    (do let (inner, after) ← g.expression ts; g.suffixed inner after.1) = .ok (a, []) := by
  obtain ⟨inner, us, vs, rfl, hexpression, hfollows, hsuffixed⟩ := h.complete
  obtain ⟨hlt, hread⟩ := hexpression.complete vs hfollows
  have hnil := hsuffixed []
  rw [List.append_nil] at hnil
  simp only [bind, Except.bind, hread, hnil]
  rfl

/-- Tokens that derive an abbreviation are read as it, unless they are refused as a text. -/
theorem parseTokens_complete {a : Abbreviation} (hform : SuffixedForm g ts a)
    (htexts : TextsAllowed g ts) (hbare : ∀ value, a.unfiltered ≠ .text value) :
    g.parseTokens ts = .ok a := by
  have hnotBare : isBareText a = false := by
    rw [Bool.eq_false_iff, ne_eq, isBareText_iff, not_exists]
    exact hbare
  unfold parseTokens
  dsimp only
  rw [unsupportedText?_eq_none_iff.2 htexts, hform.reads]
  simp [hnotBare]

/-- Tokens derive one abbreviation at most. -/
theorem SuffixedForm.unique {a b : Abbreviation} (ha : SuffixedForm g ts a)
    (hb : SuffixedForm g ts b) : a = b := by
  have h := ha.reads.symm.trans hb.reads
  exact congrArg Prod.fst (Except.ok.inj h)

/-- A text is read by cutting it into tokens and reading those. -/
theorem parse_eq_ok_iff {source : Text} {a : Abbreviation} :
    g.parse source = .ok a ↔ ∃ ts, Token.read source = .ok ts ∧ g.parseTokens ts = .ok a := by
  unfold parse
  cases Token.read source with
  | error => simp
  | ok ts => cases hts : g.parseTokens ts <;> simp [hts]

/-- A source is accepted if it can be read. -/
theorem accepts_eq_ok_true_iff {source : Text} :
    g.accepts source = .ok true ↔ ∃ a, g.parse source = .ok a := by
  unfold accepts
  cases hparse : g.parse source with
  | error e => cases e <;> simp
  | ok a => simp

/-- A source without texts in braces is read as what its tokens derive, whatever the generator. -/
theorem parse_of_suffixedForm {source : Text} {a : Abbreviation}
    (hread : Token.read source = .ok ts) (hform : SuffixedForm g ts a)
    (htexts : ∀ t ∈ ts, ∀ body, t.lexeme ≠ .braced body)
    (hbare : ∀ value, a.unfiltered ≠ .text value) : g.parse source = .ok a :=
  parse_eq_ok_iff.2 ⟨ts, hread, parseTokens_complete hform (fun _ _ _ => htexts) hbare⟩

/-- A key by itself is read as an element if it is known. -/
theorem parse_key {key : Text} {c : Nat} (hread : Token.read key = .ok [⟨.name key, c⟩])
    (hknown : g.knows key = true) : g.parse key = .ok (.element key [] none) :=
  parse_of_suffixedForm hread (.bare (.single (.once (.key hknown)))) (by simp)
    (by rintro value ⟨⟩)

/-- A key with a number of copies is read as so many copies of the element, if it is known and the
number has no more than 4300 digits. -/
theorem parse_copies {source key digits : Text} {c d e count : Nat}
    (hread : Token.read source =
      .ok [⟨.name key, c⟩, ⟨.operator .times, d⟩, ⟨.number digits, e⟩])
    (hknown : g.knows key = true) (hlength : digits.length ≤ 4300)
    (hcount : Text.decimal digits = count) :
    g.parse source = .ok (.repeated (.element key [] none) (.times count)) := by
  have hderives : Derives g .term
      [⟨.name key, c⟩, ⟨.operator .times, d⟩, ⟨.number digits, e⟩]
      (.repeated (.element key [] none) (.times count)) :=
    hcount ▸ .times (.key hknown) (.other (by simp)) hlength
  exact parse_of_suffixedForm hread (.bare (.single hderives)) (by simp) (by rintro value ⟨⟩)

/-- What is derived has no suffix. -/
theorem Derives.suffixes_eq_nil {p : Phrase} {a : Abbreviation} (h : Derives g p ts a) :
    a.suffixes = [] := by
  induction h with
  | element hform => cases hform <;> rfl
  | once _ ih => exact ih
  | single _ ih => exact ih
  | _ => rfl

/-- The suffixes of what is read are among those that the grammar allows. -/
theorem suffixes_allowed {a : Abbreviation} (h : SuffixedForm g ts a) {allowed : List Text}
    (hallowed : g.suffixes = some allowed) : ∀ suffix ∈ a.suffixes, suffix ∈ allowed := by
  induction h with
  | bare hderives =>
    rw [hderives.suffixes_eq_nil]
    rintro suffix ⟨⟩
  | suffix _ hname ih =>
    rw [Abbreviation.suffixes]
    exact List.forall_mem_cons.2 ⟨hname allowed hallowed, ih⟩

/-- The tokens of an abbreviation are exactly those that the grammar derives, where texts have to be
allowed and no text stands alone; and the abbreviation read is the one derived. -/
theorem parseTokens_eq_ok_iff (g : Grammar) (ts : List Token) (a : Abbreviation) :
    g.parseTokens ts = .ok a ↔
      SuffixedForm g ts a ∧ TextsAllowed g ts ∧ ∀ value, a.unfiltered ≠ .text value :=
  ⟨parseTokens_sound, fun ⟨hform, htexts, hbare⟩ => parseTokens_complete hform htexts hbare⟩

/-- A text that is copied twelve times is a group, and so it does not stand alone. -/
theorem parseTokens_eq_ok_iff_sampleCopies :
    Grammar.parseTokens {} [⟨.braced ['a'], 0⟩, ⟨.operator .times, 3⟩, ⟨.number ['1', '2'], 4⟩] =
      .ok (.repeated (.group (.text ['a'])) (.times 12)) := by
  have hderives : Derives {} .term
      [⟨.braced ['a'], 0⟩, ⟨.operator .times, 3⟩, ⟨.number ['1', '2'], 4⟩]
      (.repeated (.group (.text ['a'])) (.times 12)) :=
    .times .text .text (by decide)
  refine (parseTokens_eq_ok_iff _ _ _).2 ⟨.bare (.single hderives), ?_, ?_⟩
  · rintro generator ⟨⟩
  · rintro value ⟨⟩

/-- The number one, written with so many zeros in front that there are 4301 digits. -/
def sampleDigits : Text :=
  List.replicate 4300 '0' ++ ['1']

/-- A number of copies with 4301 digits is not read, though all of them are digits, the number is
one, and an element stands before it. -/
theorem parseTokens_sampleDigits :
    (∃ place, Grammar.parseTokens {}
        [⟨.name ['p'], 0⟩, ⟨.operator .times, 1⟩, ⟨.number sampleDigits, 2⟩] =
      .error ⟨.size (.digits 4301), place⟩) ∧
    Derives {} .primary [⟨.name ['p'], 0⟩] (.element ['p'] [] none) ∧
    (∀ digit ∈ sampleDigits, digit.isDigit = true) ∧
    Text.decimal sampleDigits = 1 := by
  have hknown : ({} : Grammar).knows ['p'] = true := by decide
  -- Of the digits, only their number is looked at.
  have hrefused {digits : Text} (h : digits.length = 4301) :
      ∃ place, Grammar.parseTokens {}
          [⟨.name ['p'], 0⟩, ⟨.operator .times, 1⟩, ⟨.number digits, 2⟩] =
        .error ⟨.size (.digits 4301), place⟩ := by
    simp [parseTokens, unsupportedText?, expression, primary, element, hknown, selectors,
      selector?, inlineText, repetition, readNatural_eq, h, bind, Except.bind]
  refine ⟨hrefused ?_, .element (.named hknown .nil .absent), ?_, ?_⟩
  · rw [sampleDigits, List.length_append, List.length_replicate]
    rfl
  · rw [sampleDigits, List.forall_mem_append, List.forall_mem_singleton]
    refine ⟨fun digit hdigit => ?_, rfl⟩
    rw [List.eq_of_mem_replicate hdigit]
    rfl
  · rw [Text.decimal, sampleDigits, Text.positional_zeros_append]
    · rfl
    · intro c hc
      rw [List.eq_of_mem_replicate hc]
      exact Nat.sub_self _

end Abbrev.Grammar
