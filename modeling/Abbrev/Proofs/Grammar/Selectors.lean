import Abbrev.Proofs.Fallible
import Abbrev.Proofs.Grammar.Derivation

/-!
# Reading selectors and elements

Each reading function takes from its tokens exactly what its rule of the grammar derives. One half
is soundness (`..._sound`): what was read is a phrase, and the tokens are that phrase with the rest
after it. The other half is completeness (`..._complete`): a phrase with tokens behind it that
cannot belong to it is read as a whole. The readers are greedy, so completeness says for each of
them what must not follow.
-/

namespace Abbrev.Grammar

variable {g : Grammar} {ts us rest : List Token}

/-- A reader has read `a`, and `rest` is left. -/
def Reads {α : Type} (result : Except Halt (α × Shorter ts)) (a : α) (rest : List Token) : Prop :=
  ∃ h : rest.length < ts.length, result = .ok (a, ⟨rest, h⟩)

/-- A reader that may take nothing has read `a`, and `rest` is left. -/
def ReadsNoLonger {α : Type} (result : Except Halt (α × NoLonger ts)) (a : α) (rest : List Token) :
    Prop :=
  ∃ h : rest.length ≤ ts.length, result = .ok (a, ⟨rest, h⟩)

/-! ## Attributes -/

/-- The parser's test for separators is the rule's. -/
theorem isSeparator_iff (t : Token) :
    isSeparator t = true ↔ t.lexeme = .punctuation .space ∨ t.lexeme = .punctuation .comma := by
  simp [isSeparator]

/-- Separators are what the reader skips. -/
theorem separators_iff : Separators ts ↔ ts.all isSeparator = true := by
  simp [Separators, isSeparator_iff]

/-- No tokens are separators. -/
theorem Separators.nil : Separators [] := by simp [Separators]

/-- The separators that are skipped are separators. -/
theorem separators_takeWhile (ts : List Token) : Separators (ts.takeWhile isSeparator) := by
  rw [separators_iff]
  exact List.all_takeWhile

/-- A list goes on after separators where it goes on without them. -/
theorem dropWhile_separators (h : Separators ts) (rest : List Token) :
    (ts ++ rest).dropWhile isSeparator = rest.dropWhile isSeparator := by
  rw [separators_iff, List.all_eq_true] at h
  exact List.dropWhile_append_of_pos h

/-- What goes on with a separator or the end of the list begins with one of three signs. -/
theorem endsAttribute_iff :
    endsAttribute ts = true ↔ ∃ sign c more, ts = ⟨.punctuation sign, c⟩ :: more ∧
      (sign = .space ∨ sign = .comma ∨ sign = .closeBracket) := by
  constructor
  · intro h
    cases ts with
    | nil => cases h
    | cons t more =>
      obtain ⟨lexeme, c⟩ := t
      cases lexeme with
      | punctuation sign =>
        refine ⟨sign, c, more, rfl, ?_⟩
        cases sign <;> first | (cases h; done) | simp
      | _ => cases h
  · rintro ⟨sign, c, more, rfl, rfl | rfl | rfl⟩ <;> rfl

/-- Separators before the end of the list end an attribute, and so does the end itself. -/
theorem endsAttribute_separators (h : Separators ts) (c : Nat) (rest : List Token) :
    endsAttribute (ts ++ ⟨.punctuation .closeBracket, c⟩ :: rest) = true := by
  cases ts with
  | nil => rfl
  | cons t more =>
    have ht := (isSeparator_iff t).2 (h t List.mem_cons_self)
    simp [endsAttribute, ht]

/-- The tokens after a name are the form of its value, and the rest. -/
theorem attributeValue_sound {value : Text} {last : NoLonger ts}
    (h : attributeValue ts = .ok (value, last)) : ∃ us, ts = us ++ last.1 ∧ ValueForm us value := by
  unfold attributeValue at h
  split at h
  · split at h
    · obtain ⟨rfl, rfl⟩ := Prod.mk.inj (Except.ok.inj h)
      exact ⟨_, rfl, .quoted⟩
    · obtain ⟨rfl, rfl⟩ := Prod.mk.inj (Except.ok.inj h)
      exact ⟨_, rfl, .name⟩
    · obtain ⟨rfl, rfl⟩ := Prod.mk.inj (Except.ok.inj h)
      exact ⟨_, rfl, .number⟩
    · split at h
      · obtain ⟨rfl, rfl⟩ := Prod.mk.inj (Except.ok.inj h)
        exact ⟨_, rfl, .empty⟩
      · cases h
  · obtain ⟨rfl, rfl⟩ := Prod.mk.inj (Except.ok.inj h)
    exact ⟨[], rfl, .absent⟩

/-- The form of a value is read as that value, if the attribute ends after it. -/
theorem attributeValue_complete {value : Text} (h : ValueForm us value)
    (hends : endsAttribute rest = true) :
    ReadsNoLonger (attributeValue (us ++ rest)) value rest := by
  obtain ⟨sign, c, more, rfl, hsign⟩ := endsAttribute_iff.1 hends
  cases h with
  | absent => exact ⟨Nat.le_refl _, by rcases hsign with rfl | rfl | rfl <;> rfl⟩
  | empty => exact ⟨Nat.le_succ _, by rcases hsign with rfl | rfl | rfl <;> rfl⟩
  | name => exact ⟨Nat.le_add_right _ 2, rfl⟩
  | number => exact ⟨Nat.le_add_right _ 2, rfl⟩
  | quoted => exact ⟨Nat.le_add_right _ 2, rfl⟩

/-- What stands between the brackets of a list. It may hold separators alone, which the reader
refuses only after it has come to the bracket. -/
inductive ListForm : List Token → List Attribute → Prop where
  | separators {ts : List Token} : Separators ts → ListForm ts []
  | attributes {before ts after : List Token} {as : List Attribute} :
      Separators before → AttributeRun ts as → Separators after →
      ListForm (before ++ ts ++ after) as

/-- One more attribute before a list. What ends the attribute begins with a separator unless the
list is empty, as an attribute begins with a name. -/
theorem ListForm.cons {before vs body : List Token} {c d : Nat} {name value : Text}
    {as : List Attribute} (hbefore : Separators before) (hvalue : ValueForm vs value)
    (hends : endsAttribute (body ++ ⟨.punctuation .closeBracket, d⟩ :: rest) = true)
    (hbody : ListForm body as) :
    ListForm (before ++ (⟨.name name, c⟩ :: vs) ++ body) (⟨name, value⟩ :: as) := by
  cases hbody with
  | separators h => exact .attributes hbefore (.last hvalue) h
  | @attributes between us after _ hbetween hrun hafter =>
    -- Without a separator, the name of the next attribute would have to end this one.
    have hne : between ≠ [] := by
      rintro rfl
      obtain ⟨sign, e, more, heq, -⟩ := endsAttribute_iff.1 hends
      cases hrun <;> simp at heq
    have hmore : AttributeRun (⟨.name name, c⟩ :: vs ++ between ++ us) (⟨name, value⟩ :: _) :=
      .more hvalue hbetween hne hrun
    have hlist := ListForm.attributes hbefore hmore hafter
    simpa using hlist

/-- The tokens up to the closing bracket are the form of the attributes that were read. -/
theorem attributesUntilClose_sound {as : List Attribute} {last : Shorter ts}
    (h : attributesUntilClose ts = .ok (as, last)) :
    ∃ body c, ts = body ++ ⟨.punctuation .closeBracket, c⟩ :: last.1 ∧ ListForm body as := by
  fun_induction attributesUntilClose ts generalizing as with
  | case1 ts c rest hdrop =>
    obtain ⟨rfl, rfl⟩ := Prod.mk.inj (Except.ok.inj h)
    refine ⟨ts.takeWhile isSeparator, c, ?_, .separators (separators_takeWhile ts)⟩
    rw [← hdrop, List.takeWhile_append_dropWhile]
  | case2 ts name c afterName hdrop ih =>
    obtain ⟨⟨value, rest⟩, hvalue, h⟩ := bind_eq_ok.1 h
    obtain ⟨vs, hvs, hform⟩ := attributeValue_sound hvalue
    dsimp only at h
    split at h
    · next hends =>
      obtain ⟨⟨more, last'⟩, hmore, h⟩ := bind_eq_ok.1 h
      obtain ⟨rfl, rfl⟩ := Prod.mk.inj (Except.ok.inj h)
      obtain ⟨body, d, hbody, hlist⟩ := ih rest hmore
      -- The reader looks at what ends an attribute only now, after it has read the value.
      rw [hbody] at hends
      refine ⟨ts.takeWhile isSeparator ++ (⟨.name name, c⟩ :: vs) ++ body, d, ?_,
        .cons (separators_takeWhile ts) hform hends hlist⟩
      have hsplit := List.takeWhile_append_dropWhile (p := isSeparator) (l := ts)
      rw [hdrop, hvs, hbody] at hsplit
      exact hsplit.symm.trans (by simp)
    · cases h
  | case3 => cases h

/-- Separators and the end of the list are read as no more attributes. -/
theorem attributesUntilClose_separators (h : Separators ts) (c : Nat) (rest : List Token) :
    Reads (attributesUntilClose (ts ++ ⟨.punctuation .closeBracket, c⟩ :: rest)) [] rest := by
  have hdrop : (ts ++ ⟨.punctuation .closeBracket, c⟩ :: rest).dropWhile isSeparator =
      ⟨.punctuation .closeBracket, c⟩ :: rest := dropWhile_separators h _
  refine ⟨length_lt_of_dropWhile hdrop, ?_⟩
  rw [attributesUntilClose]
  split
  · next hdrop' =>
    rw [hdrop] at hdrop'
    injection hdrop' with _ hrest
    subst hrest
    rfl
  · next hdrop' =>
    rw [hdrop] at hdrop'
    cases hdrop'
  · next hno _ => exact absurd hdrop (hno c rest)

/-- One attribute is read, and then those after it. -/
theorem attributesUntilClose_cons {name value : Text} {d : Nat} {vs : List Token}
    {as : List Attribute} (hdrop : ts.dropWhile isSeparator = ⟨.name name, d⟩ :: (vs ++ us))
    (hvalue : ValueForm vs value) (hends : endsAttribute us = true)
    (hmore : Reads (attributesUntilClose us) as rest) :
    Reads (attributesUntilClose ts) (⟨name, value⟩ :: as) rest := by
  obtain ⟨hle, hread⟩ := attributeValue_complete hvalue hends
  obtain ⟨hlt, hmore⟩ := hmore
  refine ⟨Nat.lt_trans hlt (Nat.lt_of_le_of_lt hle (length_lt_of_dropWhile hdrop)), ?_⟩
  -- Of the three ways to go on after the separators, only the one with a name agrees with `hdrop`.
  rw [attributesUntilClose]
  split
  · next hdrop' =>
    rw [hdrop] at hdrop'
    cases hdrop'
  · next hdrop' =>
    rw [hdrop] at hdrop'
    injection hdrop' with hname hafter
    injection hname with hname
    injection hname with hname
    subst hname hafter
    rw [hread]
    simp [bind, Except.bind, hends, hmore]
  · next _ hno => exact absurd hdrop (hno name d (vs ++ us))

/-- A run of attributes is read up to the end of the list. -/
theorem attributesUntilClose_complete {as : List Attribute} (h : AttributeRun ts as)
    {after : List Token} (hafter : Separators after) (c : Nat) (rest : List Token) :
    ∀ before, Separators before →
      Reads (attributesUntilClose
        (before ++ (ts ++ (after ++ ⟨.punctuation .closeBracket, c⟩ :: rest)))) as rest := by
  induction h with
  | @last vs d name value hvalue =>
    intro before hbefore
    exact attributesUntilClose_cons (dropWhile_separators hbefore _) hvalue
      (endsAttribute_separators hafter c rest) (attributesUntilClose_separators hafter c rest)
  | @more vs between us d name value as hvalue hbetween hne hrun ih =>
    intro before hbefore
    -- The separators between two attributes are those before the rest of the run.
    rw [List.append_assoc (⟨.name name, d⟩ :: vs ++ between), List.append_assoc (_ :: vs)]
    refine attributesUntilClose_cons (dropWhile_separators hbefore _) hvalue ?_
      (ih between hbetween)
    obtain ⟨t, more, rfl⟩ := List.exists_cons_of_ne_nil hne
    have ht := (isSeparator_iff t).2 (hbetween t List.mem_cons_self)
    simp [endsAttribute, ht]

/-! ## Selectors -/

/-- A run of attributes is not empty. -/
theorem AttributeRun.ne_nil {as : List Attribute} (h : AttributeRun ts as) : as ≠ [] := by
  cases h <;> simp

/-- A list that was read holds attributes. -/
theorem attributeList_sound {as : List Attribute} {last : Shorter ts}
    (h : attributeList ts = .ok (as, last)) :
    ∃ before run after c, ts = before ++ run ++ after ++ ⟨.punctuation .closeBracket, c⟩ :: last.1 ∧
      Separators before ∧ AttributeRun run as ∧ Separators after := by
  unfold attributeList at h
  obtain ⟨⟨as', last'⟩, hread, h⟩ := bind_eq_ok.1 h
  dsimp only at h
  split at h
  · cases h
  · next hne =>
    obtain ⟨rfl, rfl⟩ := Prod.mk.inj (Except.ok.inj h)
    obtain ⟨body, c, hts, hform⟩ := attributesUntilClose_sound hread
    cases hform with
    | separators => simp at hne
    | @attributes before run after _ hbefore hrun hafter =>
      exact ⟨before, run, after, c, hts, hbefore, hrun, hafter⟩

/-- A list of attributes is read as these attributes. -/
theorem attributeList_complete {before after : List Token} {as : List Attribute}
    (hbefore : Separators before) (hrun : AttributeRun ts as) (hafter : Separators after) (c : Nat)
    (rest : List Token) :
    Reads (attributeList
      (before ++ (ts ++ (after ++ ⟨.punctuation .closeBracket, c⟩ :: rest)))) as rest := by
  obtain ⟨hlt, hread⟩ := attributesUntilClose_complete hrun hafter c rest before hbefore
  refine ⟨hlt, ?_⟩
  unfold attributeList
  rw [hread]
  simp [bind, Except.bind, hrun.ne_nil]

/-- What is read as a selector has the form of one, and without a selector nothing is taken. -/
theorem selector?_sound {found : Option (List Attribute × Shorter ts)}
    (h : selector? ts = .ok found) :
    match found with
    | some (as, last) => ∃ us, ts = us ++ last.1 ∧ SelectorForm us as
    | none => startsSelector ts = false := by
  unfold selector? at h
  split at h
  · dsimp only at h
    split at h
    · obtain rfl := Except.ok.inj h
      exact ⟨_, rfl, .className⟩
    · cases h
  · dsimp only at h
    split at h
    · obtain rfl := Except.ok.inj h
      exact ⟨_, rfl, .identifier⟩
    · cases h
  · next c _ =>
    obtain ⟨⟨as, last⟩, hread, h⟩ := bind_eq_ok.1 h
    obtain rfl := Except.ok.inj h
    obtain ⟨before, run, after, d, hts, hbefore, hrun, hafter⟩ := attributeList_sound hread
    exact ⟨⟨.punctuation .openBracket, c⟩ :: before ++ run ++ after ++
      [⟨.punctuation .closeBracket, d⟩], (congrArg (_ :: ·) hts).trans (by simp),
      .attributes hbefore hrun hafter⟩
  · next hdot hhash hopen =>
    obtain rfl := Except.ok.inj h
    cases ts with
    | nil => rfl
    | cons t more =>
      obtain ⟨lexeme, c⟩ := t
      cases lexeme with
      | punctuation sign =>
        cases sign with
        | dot => exact (hdot _ _ rfl).elim
        | hash => exact (hhash _ _ rfl).elim
        | openBracket => exact (hopen _ _ rfl).elim
        | _ => rfl
      | _ => rfl

/-- The form of a selector is read as its attributes. -/
theorem selector?_complete {as : List Attribute} (h : SelectorForm us as) (rest : List Token) :
    ∃ hlt : rest.length < (us ++ rest).length,
      selector? (us ++ rest) = .ok (some (as, ⟨rest, hlt⟩)) := by
  cases h with
  | className => exact ⟨Nat.lt_add_of_pos_right Nat.two_pos, rfl⟩
  | identifier => exact ⟨Nat.lt_add_of_pos_right Nat.two_pos, rfl⟩
  | @attributes before run after c d _ hbefore hrun hafter =>
    obtain ⟨hlt, hread⟩ := attributeList_complete hbefore hrun hafter d rest
    have hassoc : ⟨.punctuation .openBracket, c⟩ :: before ++ run ++ after ++
        [⟨.punctuation .closeBracket, d⟩] ++ rest = ⟨.punctuation .openBracket, c⟩ ::
        (before ++ (run ++ (after ++ ⟨.punctuation .closeBracket, d⟩ :: rest))) := by simp
    rw [hassoc]
    refine ⟨Nat.lt_succ_of_lt hlt, ?_⟩
    unfold selector?
    dsimp only
    rw [hread]
    rfl

/-- Tokens that do not begin with a selector are read as none. -/
theorem selector?_eq_none (h : startsSelector ts = false) : selector? ts = .ok none := by
  unfold selector?
  split
  · cases h
  · cases h
  · cases h
  · rfl

/-- The form of a selector begins with the sign of one. -/
theorem SelectorForm.starts {as : List Attribute} (h : SelectorForm us as) (rest : List Token) :
    startsSelector (us ++ rest) = true := by
  cases h <;> rfl

/-- The tokens are the form of the selectors that were read, and the rest begins with none. -/
theorem selectors_sound {as : List Attribute} {last : NoLonger ts}
    (h : selectors ts = .ok (as, last)) : ∃ us, ts = us ++ last.1 ∧ SelectorRun us as := by
  induction ts using selectors.induct generalizing as with
  | case1 ts ih =>
    rw [selectors] at h
    obtain ⟨found, hfound, h⟩ := bind_eq_ok.1 h
    have hsound := selector?_sound hfound
    cases found with
    | none =>
      obtain ⟨rfl, rfl⟩ := Prod.mk.inj (Except.ok.inj h)
      exact ⟨[], rfl, .nil⟩
    | some first =>
      obtain ⟨first, rest⟩ := first
      obtain ⟨us, hts, hform⟩ := hsound
      obtain ⟨⟨more, last'⟩, hmore, h⟩ := bind_eq_ok.1 h
      obtain ⟨rfl, rfl⟩ := Prod.mk.inj (Except.ok.inj h)
      obtain ⟨vs, hrest, hrun⟩ := ih rest hmore
      have hall : ts = us ++ vs ++ last'.1 := by
        rw [List.append_assoc, ← hrest, ← hts]
      exact ⟨_, hall, .cons hform hrun⟩

/-- Selectors are read as their attributes, if no selector follows. -/
theorem selectors_complete {as : List Attribute} (h : SelectorRun us as)
    (hrest : startsSelector rest = false) : ReadsNoLonger (selectors (us ++ rest)) as rest := by
  induction h with
  | nil =>
    refine ⟨Nat.le_refl _, ?_⟩
    have hnone : selector? ([] ++ rest) = .ok none := selector?_eq_none hrest
    rw [selectors, hnone]
    rfl
  | @cons vs ws as bs hform hrun ih =>
    obtain ⟨hle, hread⟩ := ih
    obtain ⟨hlt, hfound⟩ := selector?_complete hform (ws ++ rest)
    rw [List.append_assoc]
    refine ⟨Nat.le_trans hle (Nat.le_of_lt hlt), ?_⟩
    rw [selectors, hfound]
    simp [bind, Except.bind, hread]

/-! ## Elements -/

/-- Whether tokens begin with a text in braces. -/
def startsBraced : List Token → Bool
  | ⟨.braced _, _⟩ :: _ => true
  | _ => false

/-- The tokens are the form of the text that was read, and the rest. -/
theorem inlineText_sound (ts : List Token) :
    ∃ us, ts = us ++ (inlineText ts).2.1 ∧ InlineForm us (inlineText ts).1 := by
  unfold inlineText
  split
  · exact ⟨_, rfl, .braced⟩
  · exact ⟨[], rfl, .absent⟩

/-- The form of a text, or its absence, is read as that. -/
theorem inlineText_complete {text : Option Text} (h : InlineForm us text)
    (hrest : startsBraced rest = false) :
    ∃ hle : rest.length ≤ (us ++ rest).length, inlineText (us ++ rest) = (text, ⟨rest, hle⟩) := by
  cases h with
  | absent =>
    refine ⟨Nat.le_refl _, ?_⟩
    cases rest with
    | nil => rfl
    | cons t more =>
      obtain ⟨lexeme, c⟩ := t
      cases lexeme with
      | braced => cases hrest
      | _ => rfl
  | braced => exact ⟨Nat.le_succ _, rfl⟩

/-- A text in braces, or its absence, does not begin with a selector. -/
theorem startsSelector_inline {text : Option Text} (h : InlineForm us text)
    (hrest : startsSelector rest = false) : startsSelector (us ++ rest) = false := by
  cases h with
  | absent => exact hrest
  | braced => rfl

/-- What is read as an element has the form of one. -/
theorem element_sound {a : Abbreviation} {last : Shorter ts} (h : g.element ts = .ok (a, last)) :
    ∃ us, ts = us ++ last.1 ∧ ElementForm g us a := by
  unfold element at h
  split at h
  · next key column afterKey =>
    cases hknown : g.knows key with
    | false => simp [hknown, bind, Except.bind] at h
    | true =>
      simp only [hknown, Bool.not_true, Bool.false_eq_true, if_false] at h
      obtain ⟨⟨as, rest⟩, hread, h⟩ := bind_eq_ok.1 h
      obtain ⟨rfl, rfl⟩ := Prod.mk.inj (Except.ok.inj h)
      obtain ⟨us, hus, hrun⟩ := selectors_sound hread
      obtain ⟨vs, hvs, hform⟩ := inlineText_sound rest.1
      have hall : ⟨.name key, column⟩ :: afterKey =
          ⟨.name key, column⟩ :: us ++ vs ++ (inlineText rest.1).2.1 := by
        rw [List.append_assoc, ← hvs, List.cons_append, ← hus]
      exact ⟨_, hall, .named hknown hrun hform⟩
  · next _ hname =>
    cases hknown : startsSelector ts && !g.knows g.defaultTag with
    | true => simp [hknown, bind, Except.bind] at h
    | false =>
      simp only [hknown, Bool.false_eq_true, if_false] at h
      obtain ⟨found, hfound, h⟩ := bind_eq_ok.1 h
      have hsound := selector?_sound hfound
      cases found with
      | none => cases h
      | some first =>
        obtain ⟨first, afterFirst⟩ := first
        obtain ⟨us, hus, hform⟩ := hsound
        obtain ⟨⟨more, rest⟩, hread, h⟩ := bind_eq_ok.1 h
        obtain ⟨rfl, rfl⟩ := Prod.mk.inj (Except.ok.inj h)
        obtain ⟨vs, hvs, hrun⟩ := selectors_sound hread
        obtain ⟨ws, hws, hinline⟩ := inlineText_sound rest.1
        -- The first selector was checked before it was read, so the default tag is known.
        have hstarts : startsSelector ts = true := hus ▸ hform.starts afterFirst.1
        rw [hstarts] at hknown
        have hall : ts = us ++ vs ++ ws ++ (inlineText rest.1).2.1 := by
          rw [List.append_assoc, ← hws, List.append_assoc, ← hvs, ← hus]
        have hne : us ++ vs ≠ [] := by cases hform <;> simp
        exact ⟨_, hall, .unnamed (by simpa using hknown) (.cons hform hrun) hne hinline⟩

/-- The form of an element is read as that element, if neither a selector nor a text follows. -/
theorem element_complete {a : Abbreviation} (h : ElementForm g us a)
    (hselector : startsSelector rest = false) (hbraced : startsBraced rest = false) :
    Reads (g.element (us ++ rest)) a rest := by
  cases h with
  | @named vs ws c key as text hknown hrun hinline =>
    obtain ⟨hle, hread⟩ := inlineText_complete hinline hbraced
    have hstops := startsSelector_inline hinline hselector
    obtain ⟨hle', hread'⟩ := selectors_complete hrun hstops
    have hassoc : ⟨.name key, c⟩ :: vs ++ ws ++ rest = ⟨.name key, c⟩ :: (vs ++ (ws ++ rest)) := by
      simp
    rw [hassoc]
    refine ⟨Nat.lt_succ_of_le (Nat.le_trans hle hle'), ?_⟩
    unfold element
    simp [bind, Except.bind, hknown, hread', hread]
  | @unnamed vs ws as text hknown hrun hne hinline =>
    cases hrun with
    | nil => exact absurd rfl hne
    | @cons first more as bs hform hrun =>
      obtain ⟨hle, hread⟩ := inlineText_complete hinline hbraced
      have hstops := startsSelector_inline hinline hselector
      obtain ⟨hle', hread'⟩ := selectors_complete hrun hstops
      obtain ⟨hlt, hfound⟩ := selector?_complete hform (more ++ (ws ++ rest))
      have hstarts := hform.starts (more ++ (ws ++ rest))
      have hassoc : first ++ more ++ ws ++ rest = first ++ (more ++ (ws ++ rest)) := by simp
      rw [hassoc]
      refine ⟨Nat.lt_of_le_of_lt (Nat.le_trans hle hle') hlt, ?_⟩
      rw [element.eq_2]
      · simp [bind, Except.bind, hknown, hfound, hread', hread]
      · intro value column more' heq
        rw [heq] at hstarts
        cases hstarts

end Abbrev.Grammar
