import Abbrev.Proofs.Grammar.Exactness

/-!
# Where reading stops

A list of tokens that is no abbreviation is read up to some token, or to its end, and the reader
says what is amiss there. What it has taken before is the beginning of an abbreviation: complete
phrases, each of which has a part that goes on, and at the end the place where something is missing
or does not belong (`Grammar.Unfinished` and the relations before it). The rules of these relations
are those of the grammar cut off at the place of the error, one for each cause. Two of these
beginnings are refused as a whole, and no abbreviation has them: a set without attributes, and a
number of copies with too many digits.

That a reader stops behind such a beginning is proved for each of them as its soundness is, by the
way in which it goes on: a part that stops makes the whole stop, and a part that is read is a phrase
by its soundness. So the tokens that are left are the last ones of the list on every path, and none
of those before them was left out (`abbreviation_stops`).
-/

namespace Abbrev.Grammar

variable {g : Grammar} {ts us rest : List Token} {halt : Halt}

/-! ## Beginnings of phrases -/

/-- The beginning of attributes, from a name on or with nothing where a name should stand, and what
is amiss behind it. -/
inductive AttributesUnfinished : List Token → ParseCause → Prop where
  | name : AttributesUnfinished [] .expectedAttribute
  | value {c d : Nat} {name : Text} :
      AttributesUnfinished [⟨.name name, c⟩, ⟨.punctuation .equals, d⟩] .expectedValue
  | separator {vs : List Token} {c : Nat} {name value : Text} :
      ValueForm vs value → AttributesUnfinished (⟨.name name, c⟩ :: vs) .expectedSeparator
  | more {vs between ts : List Token} {c : Nat} {name value : Text} {cause : ParseCause} :
      ValueForm vs value → Separators between → between ≠ [] → AttributesUnfinished ts cause →
      AttributesUnfinished (⟨.name name, c⟩ :: vs ++ between ++ ts) cause

/-- The beginning of a selector, and what is amiss behind it. A set without attributes is refused
behind its closing bracket. -/
inductive SelectorUnfinished : List Token → ParseCause → Prop where
  | className {c : Nat} : SelectorUnfinished [⟨.punctuation .dot, c⟩] .expectedClass
  | identifier {c : Nat} : SelectorUnfinished [⟨.punctuation .hash, c⟩] .expectedId
  | attributes {before ts : List Token} {c : Nat} {cause : ParseCause} :
      Separators before → AttributesUnfinished ts cause →
      SelectorUnfinished (⟨.punctuation .openBracket, c⟩ :: before ++ ts) cause
  | empty {before : List Token} {c d : Nat} :
      Separators before →
      SelectorUnfinished
        (⟨.punctuation .openBracket, c⟩ :: before ++ [⟨.punctuation .closeBracket, d⟩])
        .emptyAttributes

/-- The beginning of an element, and what is amiss behind it. A key that is refused is amiss behind
nothing: its own name is the place, or the selector that stands without a name. -/
inductive ElementUnfinished (g : Grammar) : List Token → ParseCause → Prop where
  | start : ElementUnfinished g [] .expectedElement
  | key {key : Text} : g.knows key = false → ElementUnfinished g [] (.invalidElement key)
  | named {ts us : List Token} {c : Nat} {key : Text} {as : List Attribute} {cause : ParseCause} :
      g.knows key = true → SelectorRun ts as → SelectorUnfinished us cause →
      ElementUnfinished g (⟨.name key, c⟩ :: ts ++ us) cause
  | unnamed {ts us : List Token} {as : List Attribute} {cause : ParseCause} :
      g.knows g.defaultTag = true → SelectorRun ts as → SelectorUnfinished us cause →
      ElementUnfinished g (ts ++ us) cause

/-- The beginning of an expression or a primary, and what is amiss behind it. -/
inductive PhraseUnfinished (g : Grammar) : Phrase → List Token → ParseCause → Prop where
  | element {ts : List Token} {cause : ParseCause} :
      ElementUnfinished g ts cause → PhraseUnfinished g .primary ts cause
  | group {ts : List Token} {c : Nat} {cause : ParseCause} :
      PhraseUnfinished g .expression ts cause →
      PhraseUnfinished g .primary (⟨.punctuation .openParen, c⟩ :: ts) cause
  | closing {ts : List Token} {c : Nat} {a : Abbreviation} :
      Derives g .expression ts a →
      PhraseUnfinished g .primary (⟨.punctuation .openParen, c⟩ :: ts) .expectedClosing
  | primary {ts : List Token} {cause : ParseCause} :
      PhraseUnfinished g .primary ts cause → PhraseUnfinished g .expression ts cause
  | leadingClimb {ts : List Token} {c : Nat} {cause : ParseCause} :
      PhraseUnfinished g .expression ts cause →
      PhraseUnfinished g .expression (⟨.operator .climb, c⟩ :: ts) cause
  | numeral {ts : List Token} {c d : Nat} {digits : Text} {a : Abbreviation} :
      Derives g .primary ts a → 4300 < digits.length →
      PhraseUnfinished g .expression (ts ++ [⟨.operator .times, c⟩, ⟨.number digits, d⟩])
        (.size (.digits digits.length))
  | operator {ts : List Token} {a : Abbreviation} {op : Operator} :
      Derives g .term ts a → join? op = none →
      PhraseUnfinished g .expression ts (.unexpectedOperator op)
  | joined {ts us : List Token} {c : Nat} {op : Operator} {a : Abbreviation} {cause : ParseCause} :
      Derives g .term ts a → join? op ≠ none → PhraseUnfinished g .expression us cause →
      PhraseUnfinished g .expression (ts ++ ⟨.operator op, c⟩ :: us) cause

/-- The beginning of an abbreviation, and what is amiss behind it. Behind a whole abbreviation it is
whatever else there is. -/
inductive Unfinished (g : Grammar) : List Token → ParseCause → Prop where
  | expression {ts : List Token} {cause : ParseCause} :
      PhraseUnfinished g .expression ts cause → Unfinished g ts cause
  | filter {ts : List Token} {c : Nat} {a : Abbreviation} :
      SuffixedForm g ts a → Unfinished g (ts ++ [⟨.punctuation .bar, c⟩]) .expectedFilter
  | suffix {ts : List Token} {c : Nat} {a : Abbreviation} {name : Text} :
      SuffixedForm g ts a → (∃ allowed ∈ g.suffixes, name ∉ allowed) →
      Unfinished g (ts ++ [⟨.punctuation .bar, c⟩]) (.unknownFilter name)
  | whole {ts : List Token} {a : Abbreviation} : SuffixedForm g ts a → Unfinished g ts .unexpected

/-! ## Attributes and selectors -/

/-- A value is missing behind the equals sign. -/
theorem attributeValue_stops (h : attributeValue ts = .error halt) :
    ∃ c, ts = ⟨.punctuation .equals, c⟩ :: halt.rest ∧ halt.cause = .expectedValue := by
  unfold attributeValue at h
  split at h
  · next c _ =>
    split at h
    · cases h
    · cases h
    · cases h
    · split at h
      · cases h
      · obtain rfl := Except.error.inj h
        exact ⟨c, rfl, rfl⟩
  · cases h

/-- The attributes of a set are not read to the end only if it does not begin with its end. -/
theorem takeWhile_ne_nil_of_attributesUntilClose (hends : endsAttribute ts = true)
    (h : attributesUntilClose ts = .error halt) : ts.takeWhile isSeparator ≠ [] := by
  obtain ⟨sign, c, more, rfl, hsign⟩ := endsAttribute_iff.1 hends
  rcases hsign with rfl | rfl | rfl
  · exact List.cons_ne_nil _ _
  · exact List.cons_ne_nil _ _
  · obtain ⟨hlt, hread⟩ := attributesUntilClose_separators Separators.nil c more
    cases h.symm.trans hread

/-- The attributes of a set stop behind separators and a beginning of attributes. -/
theorem attributesUntilClose_stops (h : attributesUntilClose ts = .error halt) :
    ∃ us, ts = ts.takeWhile isSeparator ++ us ++ halt.rest ∧
      AttributesUnfinished us halt.cause := by
  fun_induction attributesUntilClose ts with
  | case1 => cases h
  | case2 ts name c afterName hdrop ih =>
    have hts : ts = ts.takeWhile isSeparator ++ ⟨.name name, c⟩ :: afterName := by
      rw [← hdrop, List.takeWhile_append_dropWhile]
    -- At fault is the value, what stands behind it, or an attribute that follows.
    rcases bind_eq_error.1 h with h | ⟨⟨value, rest⟩, hvalue, h⟩
    · obtain ⟨d, hafter, hcause⟩ := attributeValue_stops h
      rw [hafter] at hts
      rw [hcause]
      exact ⟨[⟨.name name, c⟩, ⟨.punctuation .equals, d⟩], hts.trans (by simp), .value⟩
    · obtain ⟨vs, hafter, hform⟩ := attributeValue_sound hvalue
      have hts := hts.trans
        (congrArg (fun us => ts.takeWhile isSeparator ++ ⟨.name name, c⟩ :: us) hafter)
      dsimp only at h
      split at h
      · next hends =>
        rcases bind_eq_error.1 h with h | ⟨_, _, h⟩
        · obtain ⟨us, hrest, hmore⟩ := ih rest h
          have hne := takeWhile_ne_nil_of_attributesUntilClose hends h
          refine ⟨⟨.name name, c⟩ :: vs ++ rest.1.takeWhile isSeparator ++ us, ?_,
            .more hform (separators_takeWhile rest.1) hne hmore⟩
          calc ts = ts.takeWhile isSeparator ++ ⟨.name name, c⟩ :: (vs ++ rest.1) := hts
            _ = ts.takeWhile isSeparator ++ ⟨.name name, c⟩ ::
                  (vs ++ (rest.1.takeWhile isSeparator ++ us ++ halt.rest)) := by rw [← hrest]
            _ = _ := by simp
        · cases h
      · obtain rfl := Except.error.inj h
        exact ⟨⟨.name name, c⟩ :: vs, hts.trans (by simp), .separator hform⟩
  | case3 ts =>
    obtain rfl := Except.error.inj h
    exact ⟨[], by simp, .name⟩

/-- A set of attributes stops behind separators and a beginning of attributes, or behind its end if
it has none. -/
theorem attributeList_stops (h : attributeList ts = .error halt) (c : Nat) :
    ∃ us, ⟨.punctuation .openBracket, c⟩ :: ts = us ++ halt.rest ∧
      SelectorUnfinished us halt.cause := by
  unfold attributeList at h
  rcases bind_eq_error.1 h with h | ⟨⟨as, last⟩, hread, h⟩
  · obtain ⟨us, hts, hform⟩ := attributesUntilClose_stops h
    refine ⟨⟨.punctuation .openBracket, c⟩ :: ts.takeWhile isSeparator ++ us, ?_,
      .attributes (separators_takeWhile ts) hform⟩
    rw [List.cons_append, List.cons_append, ← hts]
  · dsimp only at h
    split at h
    · next hempty =>
      obtain rfl := Except.error.inj h
      obtain ⟨body, d, hts, hform⟩ := attributesUntilClose_sound hread
      cases hform with
      | separators hbody =>
        exact ⟨⟨.punctuation .openBracket, c⟩ :: body ++ [⟨.punctuation .closeBracket, d⟩],
          (congrArg (_ :: ·) hts).trans (by simp), .empty hbody⟩
      | attributes _ hrun _ => exact absurd (List.isEmpty_iff.1 hempty) hrun.ne_nil
    · cases h

/-- A selector stops behind a beginning of one. -/
theorem selector?_stops (h : selector? ts = .error halt) :
    ∃ us, ts = us ++ halt.rest ∧ SelectorUnfinished us halt.cause := by
  unfold selector? at h
  split at h
  · split at h
    · cases h
    · obtain rfl := Except.error.inj h
      exact ⟨_, rfl, .className⟩
  · split at h
    · cases h
    · obtain rfl := Except.error.inj h
      exact ⟨_, rfl, .identifier⟩
  · next c ts =>
    rcases bind_eq_error.1 h with h | ⟨_, _, h⟩
    · exact attributeList_stops h c
    · cases h
  · cases h

/-- Selectors stop behind some whole ones and a beginning of another. -/
theorem selectors_stops (h : selectors ts = .error halt) :
    ∃ us vs as, ts = us ++ vs ++ halt.rest ∧ SelectorRun us as ∧
      SelectorUnfinished vs halt.cause := by
  induction ts using selectors.induct with
  | case1 ts ih =>
    rw [selectors] at h
    rcases bind_eq_error.1 h with h | ⟨found, hfound, h⟩
    · obtain ⟨vs, hts, hform⟩ := selector?_stops h
      exact ⟨[], vs, [], hts, .nil, hform⟩
    · have hsound := selector?_sound hfound
      cases found with
      | none => cases h
      | some first =>
        obtain ⟨first, rest⟩ := first
        obtain ⟨us, hts, hform⟩ := hsound
        rcases bind_eq_error.1 h with h | ⟨_, _, h⟩
        · obtain ⟨vs, ws, as, hrest, hrun, hstop⟩ := ih rest h
          refine ⟨us ++ vs, ws, first ++ as, ?_, .cons hform hrun, hstop⟩
          rw [hts, hrest]
          simp
        · cases h

/-! ## Elements and phrases -/

/-- Tokens at which a selector stops begin with one. -/
theorem startsSelector_of_stops (h : selector? ts = .error halt) : startsSelector ts = true := by
  cases hstarts : startsSelector ts with
  | true => rfl
  | false =>
    rw [selector?_eq_none hstarts] at h
    cases h

/-- An element with a name stops at the name if it is refused, and otherwise where its selectors
do. -/
theorem element_stops_named {key : Text} {c : Nat}
    (h : g.element (⟨.name key, c⟩ :: ts) = .error halt) :
    ∃ us, ⟨.name key, c⟩ :: ts = us ++ halt.rest ∧ ElementUnfinished g us halt.cause := by
  rw [element] at h
  cases hknown : g.knows key with
  | false =>
    simp only [hknown, Bool.not_false, if_true] at h
    obtain rfl := Except.error.inj h
    exact ⟨[], rfl, .key hknown⟩
  | true =>
    simp only [hknown, Bool.not_true, Bool.false_eq_true, if_false] at h
    rcases bind_eq_error.1 h with h | ⟨_, _, h⟩
    · obtain ⟨us, vs, as, hts, hrun, hstop⟩ := selectors_stops h
      refine ⟨⟨.name key, c⟩ :: us ++ vs, ?_, .named hknown hrun hstop⟩
      rw [List.cons_append, List.cons_append, ← hts]
    · cases h

/-- An element without a name stops at once if it has no selector either or if the default tag is
refused, and otherwise where its selectors do. -/
theorem element_stops_unnamed (hname : ∀ key c more, ts = ⟨.name key, c⟩ :: more → False)
    (h : g.element ts = .error halt) :
    ∃ us, ts = us ++ halt.rest ∧ ElementUnfinished g us halt.cause := by
  rw [element.eq_2 g ts hname] at h
  cases hrefused : startsSelector ts && !g.knows g.defaultTag with
  | true =>
    simp only [hrefused, if_true] at h
    obtain rfl := Except.error.inj h
    have hunknown : g.knows g.defaultTag = false := by
      simpa using (Bool.and_eq_true_iff.1 hrefused).2
    exact ⟨[], rfl, .key hunknown⟩
  | false =>
    simp only [hrefused, Bool.false_eq_true, if_false] at h
    -- The default tag has been checked before anything that begins with a selector is read.
    have hdefault : startsSelector ts = true → g.knows g.defaultTag = true := by
      intro hstarts
      rw [hstarts] at hrefused
      simpa using hrefused
    rcases bind_eq_error.1 h with h | ⟨found, hfound, h⟩
    · obtain ⟨us, hts, hstop⟩ := selector?_stops h
      exact ⟨us, hts, .unnamed (hdefault (startsSelector_of_stops h)) .nil hstop⟩
    · have hsound := selector?_sound hfound
      cases found with
      | none =>
        obtain rfl := Except.error.inj h
        exact ⟨[], rfl, .start⟩
      | some first =>
        obtain ⟨first, afterFirst⟩ := first
        obtain ⟨us, hus, hform⟩ := hsound
        have hstarts : startsSelector ts = true := hus ▸ hform.starts afterFirst.1
        rcases bind_eq_error.1 h with h | ⟨_, _, h⟩
        · obtain ⟨vs, ws, as, hafter, hrun, hstop⟩ := selectors_stops h
          refine ⟨us ++ vs ++ ws, ?_, .unnamed (hdefault hstarts) (.cons hform hrun) hstop⟩
          rw [List.append_assoc, List.append_assoc, ← List.append_assoc vs, ← hafter, ← hus]
        · cases h

/-- An element stops behind a beginning of one. -/
theorem element_stops (h : g.element ts = .error halt) :
    ∃ us, ts = us ++ halt.rest ∧ ElementUnfinished g us halt.cause := by
  by_cases hname : ∃ key c more, ts = ⟨.name key, c⟩ :: more
  · obtain ⟨key, c, more, rfl⟩ := hname
    exact element_stops_named h
  · exact element_stops_unnamed (fun key c more hts => hname ⟨key, c, more, hts⟩) h

/-- If a reader of phrases fails, then behind the beginning of a phrase of the kind `p`. -/
def Stops (g : Grammar) (p : Phrase) (ts : List Token)
    (result : Except Halt (Abbreviation × Shorter ts)) : Prop :=
  ∀ halt, result = .error halt →
    ∃ us, ts = us ++ halt.rest ∧ PhraseUnfinished g p us halt.cause

/-- An expression that begins with `^` stops where what follows does. -/
theorem expression_stops_climb {c : Nat} (hrest : Stops g .expression ts (g.expression ts)) :
    Stops g .expression (⟨.operator .climb, c⟩ :: ts)
      (g.expression (⟨.operator .climb, c⟩ :: ts)) := by
  intro halt h
  rw [expression] at h
  rcases bind_eq_error.1 h with h | ⟨_, _, h⟩
  · obtain ⟨us, hus, hstop⟩ := hrest halt h
    exact ⟨⟨.operator .climb, c⟩ :: us, by rw [List.cons_append, ← hus], .leadingClimb hstop⟩
  · cases h

/-- A repetition stops behind a number of copies with too many digits. -/
theorem repetition_stops {a : Abbreviation} (h : repetition a ts = .error halt) :
    ∃ c d digits, ts = ⟨.operator .times, c⟩ :: ⟨.number digits, d⟩ :: halt.rest ∧
      4300 < digits.length ∧ halt.cause = .size (.digits digits.length) := by
  unfold repetition at h
  split at h
  · next c _ =>
    split at h
    · next digits d rest =>
      rw [readNatural_eq] at h
      split at h
      · cases h
      · next e he =>
        obtain rfl := Except.error.inj h
        split at he
        · next hlong =>
          obtain rfl := Except.error.inj he
          exact ⟨c, d, digits, rfl, hlong, rfl⟩
        · cases he
    · cases h
  · cases h

/-- An expression that begins with a term stops where the term does, at an operator that does not
join, or where the right side of one that joins does. -/
theorem expression_stops_term (hclimb : ∀ c rest, ts = ⟨.operator .climb, c⟩ :: rest → False)
    (hprimary : Stops g .primary ts (g.primary ts))
    (hright : ∀ (op : Operator) (c : Nat) (after : List Token),
      List.length (⟨.operator op, c⟩ :: after) < ts.length →
        Stops g .expression after (g.expression after)) :
    Stops g .expression ts (g.expression ts) := by
  intro halt h
  rw [expression.eq_2 g ts hclimb] at h
  rcases bind_eq_error.1 h with h | ⟨⟨inner, afterInner⟩, hread, h⟩
  · obtain ⟨us, hus, hstop⟩ := hprimary halt h
    exact ⟨us, hus, .primary hstop⟩
  obtain ⟨us, hus, hinner⟩ := (phrases_sound g).2 ts inner afterInner hread
  rcases bind_eq_error.1 h with h | ⟨⟨left, rest, hle⟩, hrepetition, h⟩
  · obtain ⟨c, d, digits, hafter, hlong, hcause⟩ := repetition_stops h
    refine ⟨us ++ [⟨.operator .times, c⟩, ⟨.number digits, d⟩], ?_, hcause ▸ .numeral hinner hlong⟩
    rw [List.append_assoc, hus, hafter]
    rfl
  -- A primary and its repetition are the term on the left, and neither is at fault.
  obtain ⟨vs, hvs, hterm⟩ := repetition_sound hinner hrepetition
  have hts := hus.trans (congrArg (us ++ ·) hvs)
  dsimp only at h hts
  split at h
  · next op c after shorter =>
    cases hjoin : join? op with
    | none =>
      simp only [hjoin] at h
      obtain rfl := Except.error.inj h
      exact ⟨us ++ vs, by rw [hts, List.append_assoc], .operator hterm hjoin⟩
    | some join =>
      simp only [hjoin] at h
      rcases bind_eq_error.1 h with h | ⟨_, _, h⟩
      · obtain ⟨ws, hws, hstop⟩ := hright op c after shorter halt h
        refine ⟨us ++ vs ++ ⟨.operator op, c⟩ :: ws, ?_, .joined hterm (by simp [hjoin]) hstop⟩
        rw [hts, List.append_assoc, List.append_assoc, List.cons_append, ← hws]
      · cases h
  · cases h

/-- A group stops where what stands inside does, or behind that if it is not closed. -/
theorem primary_stops_group {c : Nat} (hinner : Stops g .expression ts (g.expression ts)) :
    Stops g .primary (⟨.punctuation .openParen, c⟩ :: ts)
      (g.primary (⟨.punctuation .openParen, c⟩ :: ts)) := by
  intro halt h
  rw [primary] at h
  rcases bind_eq_error.1 h with h | ⟨⟨inner, afterInner⟩, hread, h⟩
  · obtain ⟨us, hus, hstop⟩ := hinner halt h
    exact ⟨⟨.punctuation .openParen, c⟩ :: us, by rw [List.cons_append, ← hus], .group hstop⟩
  · obtain ⟨us, hus, hinner⟩ := (phrases_sound g).1 ts inner afterInner hread
    dsimp only at h
    split at h
    · cases h
    · obtain rfl := Except.error.inj h
      exact ⟨⟨.punctuation .openParen, c⟩ :: us, by rw [List.cons_append, ← hus],
        .closing hinner⟩

/-- Expressions and primaries stop behind beginnings of such phrases. -/
theorem phrases_stop (g : Grammar) :
    (∀ ts, Stops g .expression ts (g.expression ts)) ∧
      ∀ ts, Stops g .primary ts (g.primary ts) := by
  -- One case for each way in which a call of the two readers goes on.
  refine expression.mutual_induct (fun ts => Stops g .expression ts (g.expression ts))
    (fun ts => Stops g .primary ts (g.primary ts)) ?_ ?_ ?_ ?_ ?_
  · intro c rest ih
    exact expression_stops_climb ih
  · intro ts hclimb ihPrimary ihExpression
    exact expression_stops_term hclimb ihPrimary ihExpression
  · intro c afterOpen ih
    exact primary_stops_group ih
  · intro body c rest halt h
    rw [primary] at h
    cases h
  · intro ts hopen hbraced halt h
    rw [primary.eq_3 g ts hopen hbraced] at h
    obtain ⟨us, hus, hstop⟩ := element_stops h
    exact ⟨us, hus, .element hstop⟩

/-! ## Whole lists of tokens -/

/-- Suffixes stop behind a bar that no name follows, or none that the grammar allows. -/
theorem suffixed_stops {a : Abbreviation} (ha : SuffixedForm g us a)
    (h : g.suffixed a ts = .error halt) :
    ∃ vs, ts = vs ++ halt.rest ∧ Unfinished g (us ++ vs) halt.cause := by
  fun_induction suffixed g a ts generalizing us with
  | case1 a c name d more hallowed ih =>
    have hname := all_suffixes_contains_iff.1 hallowed
    obtain ⟨vs, hvs, hstop⟩ := ih (.suffix (c := c) (d := d) ha hname) h
    have hall : ⟨.punctuation .bar, c⟩ :: ⟨.name name, d⟩ :: more =
        ⟨.punctuation .bar, c⟩ :: ⟨.name name, d⟩ :: vs ++ halt.rest := by
      rw [List.cons_append, List.cons_append, ← hvs]
    exact ⟨_, hall, by simpa using hstop⟩
  | case2 a c name d more hallowed =>
    obtain rfl := Except.error.inj h
    have hname : ∃ allowed ∈ g.suffixes, name ∉ allowed := by
      rw [all_suffixes_contains_iff] at hallowed
      simpa only [Classical.not_forall, exists_prop] using hallowed
    exact ⟨[⟨.punctuation .bar, c⟩], rfl, .suffix ha hname⟩
  | case3 a c rest =>
    obtain rfl := Except.error.inj h
    exact ⟨[⟨.punctuation .bar, c⟩], rfl, .filter ha⟩
  | case4 => cases h

/-- An expression and its suffixes stop behind the beginning of an abbreviation. -/
theorem abbreviation_stops
    (h : (do let (a, rest) ← g.expression ts; g.suffixed a rest.1) = .error halt) :
    ∃ us, ts = us ++ halt.rest ∧ Unfinished g us halt.cause := by
  rcases bind_eq_error.1 h with h | ⟨⟨a, after⟩, hread, h⟩
  · obtain ⟨us, hus, hstop⟩ := (phrases_stop g).1 ts halt h
    exact ⟨us, hus, .expression hstop⟩
  · obtain ⟨us, hus, hexpression⟩ := (phrases_sound g).1 ts a after hread
    obtain ⟨vs, hvs, hstop⟩ := suffixed_stops (.bare hexpression) h
    exact ⟨us ++ vs, by rw [List.append_assoc, ← hvs, ← hus], hstop⟩

end Abbrev.Grammar
