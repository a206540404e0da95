import Abbrev.Proofs.Grammar.Derivation

/-!
# The brackets of an abbreviation

An abbreviation has square brackets only around its sets of attributes. So its tokens are outside
and inside of brackets by turns (`Grammar.Bracketed`), and a set has no set and no text in braces
inside. This is proved for each rule of the grammar, from the tokens of attributes up to whole
abbreviations (`SuffixedForm.bracketed`).
-/

namespace Abbrev

/-- Whether a lexeme is a square bracket. -/
def Lexeme.isBracket : Lexeme → Bool
  | .punctuation .openBracket => true
  | .punctuation .closeBracket => true
  | _ => false

/-- Whether a lexeme may stand inside of square brackets: neither a bracket nor a text in braces. -/
def Lexeme.isFlat : Lexeme → Bool
  | .braced _ => false
  | lexeme => !lexeme.isBracket

/-- A lexeme that is no bracket is flat or a text in braces. -/
theorem Lexeme.isFlat_or_braced {lexeme : Lexeme} (h : lexeme.isBracket = false) :
    lexeme.isFlat = true ∨ ∃ body, lexeme = .braced body := by
  cases lexeme with
  | braced body => exact .inr ⟨body, rfl⟩
  | punctuation sign => exact .inl (by simp [isFlat, h])
  | _ => exact .inl rfl

namespace Grammar

variable {g : Grammar} {ts us : List Token} {inside : Bool}

/-- Tokens with paired square brackets, one pair after the other, and nothing but flat tokens in a
pair; `inside` says whether a bracket is open where the tokens begin. -/
inductive Bracketed : Bool → List Token → Prop
  | nil : Bracketed false []
  | opening {c : Nat} {ts : List Token} :
      Bracketed true ts → Bracketed false (⟨.punctuation .openBracket, c⟩ :: ts)
  | closing {c : Nat} {ts : List Token} :
      Bracketed false ts → Bracketed true (⟨.punctuation .closeBracket, c⟩ :: ts)
  | between {t : Token} {ts : List Token} :
      t.lexeme.isBracket = false → Bracketed false ts → Bracketed false (t :: ts)
  | within {t : Token} {ts : List Token} :
      t.lexeme.isFlat = true → Bracketed true ts → Bracketed true (t :: ts)

namespace Bracketed

/-- Where all brackets are closed, more tokens may follow. -/
theorem append (h : Bracketed inside ts) (hus : Bracketed false us) :
    Bracketed inside (ts ++ us) := by
  induction h with
  | nil => exact hus
  | opening _ ih => exact .opening ih
  | closing _ ih => exact .closing ih
  | between ht _ ih => exact .between ht ih
  | within ht _ ih => exact .within ht ih

/-- Inside of brackets, flat tokens may come first. -/
theorem flat_append (hts : ∀ t ∈ ts, t.lexeme.isFlat = true) (h : Bracketed true us) :
    Bracketed true (ts ++ us) := by
  induction ts with
  | nil => exact h
  | cons t ts ih =>
    obtain ⟨ht, hts⟩ := List.forall_mem_cons.1 hts
    exact .within ht (ih hts)

/-- One token other than a bracket. -/
theorem singleton {t : Token} (h : t.lexeme.isBracket = false) : Bracketed false [t] :=
  .between h .nil

end Bracketed

/-- Separators are flat. -/
theorem Separators.isFlat (h : Separators ts) : ∀ t ∈ ts, t.lexeme.isFlat = true := by
  intro t ht
  rcases h t ht with hspace | hcomma
  · rw [hspace]; rfl
  · rw [hcomma]; rfl

/-- The tokens of a value are flat. -/
theorem ValueForm.isFlat {value : Text} (h : ValueForm ts value) :
    ∀ t ∈ ts, t.lexeme.isFlat = true := by
  cases h <;> simp [Lexeme.isFlat, Lexeme.isBracket]

/-- The tokens of attributes are flat. -/
theorem AttributeRun.isFlat {as : List Attribute} (h : AttributeRun ts as) :
    ∀ t ∈ ts, t.lexeme.isFlat = true := by
  induction h with
  | last hvalue => exact List.forall_mem_cons.2 ⟨rfl, hvalue.isFlat⟩
  | more hvalue hbetween _ _ ih =>
    refine List.forall_mem_append.2 ⟨List.forall_mem_append.2 ⟨?_, hbetween.isFlat⟩, ih⟩
    exact List.forall_mem_cons.2 ⟨rfl, hvalue.isFlat⟩

/-- The brackets of a selector are paired. -/
theorem SelectorForm.bracketed {as : List Attribute} (h : SelectorForm ts as) :
    Bracketed false ts := by
  cases h with
  | className => exact .between rfl (.singleton rfl)
  | identifier => exact .between rfl (.singleton rfl)
  | @attributes before run after c d _ hbefore hrun hafter =>
    have hclose : Bracketed true (after ++ [⟨.punctuation .closeBracket, d⟩]) :=
      .flat_append hafter.isFlat (.closing .nil)
    have hset := Bracketed.flat_append hbefore.isFlat (.flat_append hrun.isFlat hclose)
    have hopen : Bracketed false (⟨.punctuation .openBracket, c⟩ :: _) := .opening hset
    simpa using hopen

/-- The brackets of selectors are paired. -/
theorem SelectorRun.bracketed {as : List Attribute} (h : SelectorRun ts as) :
    Bracketed false ts := by
  induction h with
  | nil => exact .nil
  | cons hselector _ ih => exact hselector.bracketed.append ih

/-- There are no brackets around the text of an element. -/
theorem InlineForm.bracketed {text : Option Text} (h : InlineForm ts text) :
    Bracketed false ts := by
  cases h with
  | absent => exact .nil
  | braced => exact .singleton rfl

/-- The brackets of an element are paired. -/
theorem ElementForm.bracketed {a : Abbreviation} (h : ElementForm g ts a) :
    Bracketed false ts := by
  cases h with
  | named _ hselectors htext => exact .between rfl (hselectors.bracketed.append htext.bracketed)
  | unnamed _ hselectors _ htext => exact hselectors.bracketed.append htext.bracketed

/-- The brackets of a phrase of any kind are paired. -/
theorem Derives.bracketed {p : Phrase} {a : Abbreviation} (h : Derives g p ts a) :
    Bracketed false ts := by
  induction h with
  | group _ ih => exact .between rfl (ih.append (.singleton rfl))
  | text => exact .singleton rfl
  | element helement => exact helement.bracketed
  | once _ ih => exact ih
  | perLine _ _ ih => exact ih.append (.singleton rfl)
  | times _ _ _ ih => exact ih.append (.between rfl (.singleton rfl))
  | leadingClimb _ ih => exact .between rfl ih
  | single _ ih => exact ih
  | sibling _ _ ihLeft ihRight => exact ihLeft.append (.between rfl ihRight)
  | child _ _ ihLeft ihRight => exact ihLeft.append (.between rfl ihRight)
  | climb _ _ ihLeft ihRight => exact ihLeft.append (.between rfl ihRight)

/-- The brackets of an abbreviation are paired. -/
theorem SuffixedForm.bracketed {a : Abbreviation} (h : SuffixedForm g ts a) :
    Bracketed false ts := by
  induction h with
  | bare hderives => exact hderives.bracketed
  | suffix _ _ ih => exact ih.append (.between rfl (.singleton rfl))

end Grammar

end Abbrev
