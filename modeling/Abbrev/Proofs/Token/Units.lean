import Abbrev.Proofs.Token.Spelling

/-!
# Where reading comes to an end

A source is read from left to right, in units that are each complete: a text between two quotes, a
pair of braces with all that it encloses, or a character that is neither quote nor brace. A source
that consists of such units can be read. In any other source there is an offset up to which it does,
and from which on no unit begins (`LexCause.Stuck`): there stands a brace that was never opened, or
a quote or a brace that is never closed. That offset is the column of the error, and what stands
there is its cause (`Token.read_eq_error_iff`).

The tokens of a source need not be its units, as a name has many characters. But whether what comes
behind a unit can be read, and where it cannot, does not depend on the unit
(`Token.error?_readFrom_unit`).
-/

namespace Abbrev

/-- A text that is complete by itself: nothing that it opens is left open. -/
inductive ReadingUnit : Text → Prop
  | quoted {quote : Char} {body : Text} :
      quote = '"' ∨ quote = '\'' → quote ∉ body → ReadingUnit (quote :: body ++ [quote])
  | braced {body : Text} :
      BracePair ('{' :: body ++ ['}']) → ReadingUnit ('{' :: body ++ ['}'])
  | single {c : Char} : c ∉ ['"', '\'', '{', '}'] → ReadingUnit [c]

/-- No unit begins a text: it begins with a quote that does not come up again, with a brace that is
not closed before the end, or with a brace that closes nothing. -/
inductive LexCause.Stuck : LexCause → Text → Prop
  | string {quote : Char} {after : Text} :
      quote = '"' ∨ quote = '\'' → quote ∉ after → Stuck .unterminatedString (quote :: after)
  | opening {after : Text} :
      (∀ body rest, after = body ++ '}' :: rest → ¬ BracePair ('{' :: body ++ ['}'])) →
      Stuck .unbalancedBraces ('{' :: after)
  | closing {after : Text} : Stuck .unmatchedBrace ('}' :: after)

namespace Token

open LexCause (Stuck)

variable {column : Nat} {t rest : Text} {cause : LexCause}

/-! ## Units do not matter to what follows them -/

/-- The error of a reading, if it fails. -/
def error? : Except LexError (List Token) → Option LexError
  | .ok _ => none
  | .error e => some e

/-- What is done with the tokens of a reading does not change its error. -/
theorem error?_map (f : List Token → List Token) (result : Except LexError (List Token)) :
    error? (result.map f) = error? result := by
  cases result <;> rfl

/-- A name at the beginning of a text does not change the error of reading the rest. -/
theorem error?_readFrom_spanName (column : Nat) (t : Text) :
    error? (readFrom column t) =
      error? (readFrom (column + (spanName t).1.length) (spanName t).2) := by
  by_cases hname : (spanName t).1 = []
  · have hrest : (spanName t).2 = t := by
      have hall := spanName_append_snd t
      rwa [hname, List.nil_append] at hall
    rw [hname, hrest, List.length_nil, Nat.add_zero]
  · rw [readFrom_spanName column hname, error?_map]

/-- A single character does not change the error of reading the rest, even if it is part of a longer
name. -/
theorem error?_readFrom_single {c : Char} (hc : c ∉ ['"', '\'', '{', '}']) (column : Nat)
    (t : Text) : error? (readFrom column (c :: t)) = error? (readFrom (column + 1) t) := by
  by_cases hends : (isDelimiter c && !joinsName c t) = true
  · have hname : spanName (c :: t) = ([], c :: t) := by rw [spanName, if_pos hends]
    rw [readFrom_delimiter column hname hc, error?_map]
  · -- The name that begins with the character goes on with the one that begins behind it.
    have hname : spanName (c :: t) = (c :: (spanName t).1, (spanName t).2) := by
      rw [spanName, if_neg hends]
    rw [error?_readFrom_spanName column (c :: t), error?_readFrom_spanName (column + 1) t, hname,
      List.length_cons, Nat.add_assoc, Nat.add_comm 1]

/-- A unit does not change the error of reading the rest. -/
theorem error?_readFrom_unit {u : Text} (h : ReadingUnit u) (column : Nat) (t : Text) :
    error? (readFrom column (u ++ t)) = error? (readFrom (column + u.length) t) := by
  cases h with
  | @quoted quote body hquote hbody =>
    have hsource : quote :: body ++ [quote] ++ t = quote :: (body ++ quote :: t) := by simp
    have hlength : column + (quote :: body ++ [quote]).length = column + body.length + 2 := by
      simp [Nat.add_assoc]
    rw [hsource, hlength, readFrom_quoted column hquote hbody, error?_map]
  | @braced body hbody =>
    have hsource : '{' :: body ++ ['}'] ++ t = '{' :: (body ++ '}' :: t) := by simp
    have hlength : column + ('{' :: body ++ ['}']).length = column + body.length + 2 := by
      simp [Nat.add_assoc]
    rw [hsource, hlength, readFrom_braced column (bracePair_iff.1 hbody), error?_map]
  | @single c hc => exact error?_readFrom_single hc column t

/-- Units do not change the error of reading what follows them. -/
theorem error?_readFrom_units {units : List Text} (h : ∀ u ∈ units, ReadingUnit u) (column : Nat)
    (t : Text) :
    error? (readFrom column (units.flatten ++ t)) =
      error? (readFrom (column + units.flatten.length) t) := by
  induction units generalizing column with
  | nil => rfl
  | cons u units ih =>
    obtain ⟨hu, hunits⟩ := List.forall_mem_cons.1 h
    rw [List.flatten_cons, List.append_assoc, error?_readFrom_unit hu, ih hunits,
      List.length_append, Nat.add_assoc]

/-! ## Where no unit begins -/

/-- Where no unit begins, reading fails at once. -/
theorem readFrom_of_stuck (h : Stuck cause t) (column : Nat) :
    readFrom column t = .error ⟨cause, column⟩ := by
  have hno (c : Char) (after : Text) (hc : c ∈ ['"', '\'', '{', '}']) :
      ¬ (spanName (c :: after)).1 ≠ [] := by
    have hdelimiter : isDelimiter c = true ∧ c ≠ '+' := by
      simp only [List.mem_cons, List.not_mem_nil, or_false] at hc
      rcases hc with rfl | rfl | rfl | rfl <;> decide
    rw [spanName_of_ne_plus hdelimiter.1 hdelimiter.2]
    exact fun hne => hne rfl
  cases h with
  | @string quote after hquote hafter =>
    have hmem : quote ∈ ['"', '\'', '{', '}'] := by
      rcases hquote with rfl | rfl <;> decide
    rw [readFrom, dif_neg (hno quote after hmem), if_pos hquote]
    split
    · rfl
    · next body rest hsome =>
      obtain ⟨rfl, -⟩ := spanQuoted_spec hsome
      exact absurd (List.mem_append_right body List.mem_cons_self) hafter
  | @opening after hafter =>
    rw [readFrom, dif_neg (hno '{' after (by decide)), if_neg (by decide), if_pos rfl]
    split
    · rfl
    · next body rest hsome =>
      obtain ⟨hsplit, hcloses⟩ := spanBraced_spec hsome
      exact absurd (bracePair_iff.2 hcloses) (hafter body rest hsplit)
  | @closing after =>
    rw [readFrom, dif_neg (hno '}' after (by decide)), if_neg (by decide), if_neg (by decide),
      if_pos rfl]

/-- A text begins with a unit, unless it is empty or none begins there. -/
theorem exists_unit_or_stuck (hne : t ≠ []) :
    (∃ u rest, ReadingUnit u ∧ u ++ rest = t ∧ rest.length < t.length) ∨
      ∃ cause, Stuck cause t := by
  obtain ⟨c, after, rfl⟩ := List.exists_cons_of_ne_nil hne
  by_cases hquote : c = '"' ∨ c = '\''
  · cases hspan : spanQuoted c after with
    | none =>
      -- A quote that came up again would end the text.
      refine .inr ⟨_, .string hquote fun hmem => ?_⟩
      obtain ⟨body, rest, rfl, hbody⟩ := List.eq_append_cons_of_mem hmem
      rw [spanQuoted_append hbody] at hspan
      cases hspan
    | some found =>
      obtain ⟨rfl, hbody⟩ := spanQuoted_spec hspan
      exact .inl ⟨_, found.2, .quoted hquote hbody, by simp, by simp; omega⟩
  by_cases hopen : c = '{'
  · subst hopen
    cases hspan : spanBraced 0 after with
    | none =>
      refine .inr ⟨_, .opening fun body rest hsplit hpair => ?_⟩
      rw [hsplit, spanBraced_append (bracePair_iff.1 hpair)] at hspan
      cases hspan
    | some found =>
      obtain ⟨rfl, hbody⟩ := spanBraced_spec hspan
      exact .inl ⟨_, found.2, .braced (bracePair_iff.2 hbody), by simp, by simp; omega⟩
  by_cases hclose : c = '}'
  · subst hclose
    exact .inr ⟨_, .closing⟩
  · refine .inl ⟨[c], after, .single ?_, rfl, Nat.lt_succ_self _⟩
    simp only [List.mem_cons, List.not_mem_nil, or_false, not_or] at hquote ⊢
    exact ⟨hquote.1, hquote.2, hopen, hclose⟩

/-- Every text begins with units, up to its end or up to where no unit begins. -/
theorem exists_units (t : Text) :
    ∃ (units : List Text) (rest : Text), (∀ u ∈ units, ReadingUnit u) ∧
      units.flatten ++ rest = t ∧ (rest = [] ∨ ∃ cause, Stuck cause rest) := by
  induction hlength : t.length using Nat.strongRecOn generalizing t with
  | ind n ih =>
    by_cases hnil : t = []
    · exact ⟨[], [], List.forall_mem_nil _, hnil.symm, .inl rfl⟩
    rcases exists_unit_or_stuck hnil with ⟨u, after, hu, rfl, hshorter⟩ | hstuck
    · obtain ⟨units, rest, hunits, hsplit, hrest⟩ := ih _ (hlength ▸ hshorter) after rfl
      refine ⟨u :: units, rest, List.forall_mem_cons.2 ⟨hu, hunits⟩, ?_, hrest⟩
      rw [List.flatten_cons, List.append_assoc, hsplit]
    · exact ⟨[], t, List.forall_mem_nil _, rfl, .inr hstuck⟩

/-- A source that consists of units can be read. -/
theorem exists_read_eq_ok {units : List Text} (h : ∀ u ∈ units, ReadingUnit u) :
    ∃ ts, read units.flatten = .ok ts := by
  have hnone : error? (read units.flatten) = none := by
    have hend := error?_readFrom_units h 0 []
    rw [List.append_nil, readFrom] at hend
    exact hend
  cases hread : read units.flatten with
  | ok ts => exact ⟨ts, rfl⟩
  | error e =>
    rw [hread] at hnone
    cases hnone

/-- Reading fails where no unit begins behind those of which a source consists. -/
theorem read_eq_error_of_stuck {units : List Text} (h : ∀ u ∈ units, ReadingUnit u)
    (hstuck : Stuck cause rest) :
    read (units.flatten ++ rest) = .error ⟨cause, units.flatten.length⟩ := by
  have hsome : error? (read (units.flatten ++ rest)) = some ⟨cause, units.flatten.length⟩ := by
    rw [read, error?_readFrom_units h, readFrom_of_stuck hstuck, Nat.zero_add]
    rfl
  cases hread : read (units.flatten ++ rest) with
  | ok ts =>
    rw [hread] at hsome
    cases hsome
  | error e =>
    rw [hread] at hsome
    exact congrArg Except.error (Option.some.inj hsome)

/-- A source can be read exactly if it consists of units. Reading fails with a cause at a column
exactly if the source consists of units up to that column, and no unit begins there for that cause:
at the brace that closes nothing, at the quote that is not closed, or at the outermost of the braces
that are not. -/
theorem read_eq_error_iff (source : Text) :
    ((∃ ts, read source = .ok ts) ↔
        ∃ units : List Text, (∀ u ∈ units, ReadingUnit u) ∧ units.flatten = source) ∧
      (∀ cause column, read source = .error ⟨cause, column⟩ ↔
        ∃ (units : List Text) (rest : Text), (∀ u ∈ units, ReadingUnit u) ∧
          units.flatten ++ rest = source ∧ units.flatten.length = column ∧ Stuck cause rest) ∧
      LexCause.message .unmatchedBrace = "Unmatched '\x7d'" := by
  refine ⟨⟨?_, ?_⟩, fun cause column => ⟨?_, ?_⟩, rfl⟩
  · rintro ⟨ts, hts⟩
    obtain ⟨units, rest, hunits, rfl, rfl | ⟨cause, hstuck⟩⟩ := exists_units source
    · exact ⟨units, hunits, (List.append_nil _).symm⟩
    · rw [read_eq_error_of_stuck hunits hstuck] at hts
      cases hts
  · rintro ⟨units, hunits, rfl⟩
    exact exists_read_eq_ok hunits
  · intro hread
    obtain ⟨units, rest, hunits, rfl, rfl | ⟨other, hstuck⟩⟩ := exists_units source
    · obtain ⟨ts, hts⟩ := exists_read_eq_ok hunits
      rw [List.append_nil, hts] at hread
      cases hread
    · rw [read_eq_error_of_stuck hunits hstuck] at hread
      obtain ⟨rfl, rfl⟩ := LexError.mk.inj (Except.error.inj hread)
      exact ⟨units, rest, hunits, rfl, rfl, hstuck⟩
  · rintro ⟨units, rest, hunits, rfl, rfl, hstuck⟩
    exact read_eq_error_of_stuck hunits hstuck

end Token

end Abbrev
