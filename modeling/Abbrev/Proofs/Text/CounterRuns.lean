import Abbrev.Proofs.Text.Counter
import Abbrev.Proofs.Text.Numerals

/-!
# Counters in the parts of a text

Counters are replaced from left to right, with the length of the run of dollars that was just read
in hand, and a backslash takes the dollar behind it. Neither reaches over a character that is no
dollar, so a text may be cut before any such character and its parts taken one by one
(`replaceCounterAfter_append`). A character that is no backslash either stays as it is, which leaves
the runs between such characters (`replaceCounter_parts`): a run of dollars becomes the numeral of
the number, and the dollars that are left are those that stand behind a backslash
(`escapedDollars`).

What a copy of a text says can also be told by rules, without a scan (`Numbered`), and the scan
finds the one text that they allow (`numbered_iff`).
-/

namespace Abbrev.Text

variable {number : Int} {run : Nat} {s t : Text} {c : Char}

/-! ## Where a text may be cut -/

/-- A character that is no dollar, and no backslash before one, ends a run and stays as it is. -/
theorem replaceCounterAfter_other (hdollar : c ≠ '$')
    (hescape : ¬ (c = '\\' ∧ t.head? = some '$')) :
    replaceCounterAfter number run (c :: t) =
      counterNumeral number run ++ c :: replaceCounterAfter number 0 t := by
  refine replaceCounterAfter.eq_4 number run c t hdollar ?_
  rintro more rfl rfl
  exact hescape ⟨rfl, rfl⟩

/-- A run of dollars ends before a text that does not begin with a dollar. -/
theorem replaceCounterAfter_of_head?_ne (h : t.head? ≠ some '$') :
    replaceCounterAfter number run t =
      counterNumeral number run ++ replaceCounterAfter number 0 t := by
  cases t with
  | nil => exact (List.append_nil _).symm
  | cons c rest =>
    by_cases hescape : c = '\\' ∧ rest.head? = some '$'
    · obtain ⟨rfl, hrest⟩ := hescape
      obtain ⟨more, rfl⟩ := List.head?_eq_some_iff.1 hrest
      rfl
    · have hdollar : c ≠ '$' := fun hc => h (congrArg some hc)
      rw [replaceCounterAfter_other hdollar hescape, replaceCounterAfter_other hdollar hescape]
      rfl

/-- A text may be cut before any character but a dollar: neither a run of dollars nor a backslash
reaches over the cut. -/
theorem replaceCounterAfter_append (h : t.head? ≠ some '$') :
    replaceCounterAfter number run (s ++ t) =
      replaceCounterAfter number run s ++ replaceCounterAfter number 0 t := by
  fun_induction replaceCounterAfter number run s with
  | case1 run => exact replaceCounterAfter_of_head?_ne h
  | case2 run rest ih =>
    rw [List.cons_append, replaceCounterAfter]
    exact ih
  | case3 run rest ih =>
    rw [List.cons_append, List.cons_append, replaceCounterAfter, ih]
    simp
  | case4 run c rest hdollar hescape ih =>
    -- A backslash at the end of the first part has no dollar behind it in the whole text either.
    have hjoined : ∀ more, c = '\\' → rest ++ t = '$' :: more → False := by
      rintro more rfl hmore
      cases rest with
      | nil => exact h (by rw [List.nil_append] at hmore; rw [hmore]; rfl)
      | cons d rest =>
        obtain ⟨rfl, -⟩ := List.cons.inj hmore
        exact hescape rest rfl rfl
    rw [List.cons_append, replaceCounterAfter.eq_4 number run c _ hdollar hjoined, ih]
    simp

/-! ## Runs of dollars -/

/-- Dollars in front of a text make the run before it longer. -/
theorem replaceCounterAfter_replicate_append (number : Int) (run k : Nat) (t : Text) :
    replaceCounterAfter number run (List.replicate k '$' ++ t) =
      replaceCounterAfter number (run + k) t := by
  induction k generalizing run with
  | zero => rfl
  | succ k ih =>
    rw [List.replicate_succ, List.cons_append, replaceCounterAfter, ih, Nat.add_assoc,
      Nat.add_comm 1 k]

/-- The numeral of a number that is not negative has no sign, so zeros go in front of it. -/
theorem zeroPad_ofInt (width n : Nat) :
    zeroPad width (ofInt n) =
      List.replicate (width - (Nat.toDigits 10 n).length) '0' ++ Nat.toDigits 10 n := by
  have hdigit {c : Char} (hc : c ∈ ofInt n) : c.isDigit = true :=
    isDigit_of_mem_ofInt (Int.natCast_nonneg n) hc
  unfold zeroPad
  dsimp only
  split
  · next hsign => exact absurd (hdigit (hsign ▸ List.mem_cons_self)) (by decide)
  · next hsign => exact absurd (hdigit (hsign ▸ List.mem_cons_self)) (by decide)
  · rfl

/-- One dollar or more are replaced by the numeral, with zeros up to their number. -/
theorem replaceCounter_replicate (n : Nat) {k : Nat} (hk : 1 ≤ k) :
    replaceCounter n (List.replicate k '$') =
      List.replicate (k - (Nat.toDigits 10 n).length) '0' ++ Nat.toDigits 10 n := by
  obtain ⟨k, rfl⟩ := Nat.exists_eq_add_of_le' hk
  have hrun := replaceCounterAfter_replicate_append n 0 (k + 1) []
  rw [List.append_nil, Nat.zero_add] at hrun
  exact hrun.trans (zeroPad_ofInt (k + 1) n)

/-! ## What a counter is replaced by -/

/-- The decimal numeral of a number, with zeros in front of the digits up to a width, and a sign in
front of these if the number is negative. -/
def paddedNumeral (number : Int) (width : Nat) : Text :=
  let sign : Text := if number < 0 then ['-'] else []
  let digits := Nat.toDigits 10 number.natAbs
  sign ++ List.replicate (width - (sign.length + digits.length)) '0' ++ digits

/-- What a text is in the copy with a number: each run of dollars gives way to the numeral, as wide
as the run is long, a dollar behind a backslash is a dollar, and all else stays as it is. -/
inductive Numbered (number : Int) : Text → Text → Prop where
  | nil : Numbered number [] []
  | run {width : Nat} {t u : Text} :
      0 < width → t.head? ≠ some '$' → Numbered number t u →
      Numbered number (List.replicate width '$' ++ t) (paddedNumeral number width ++ u)
  | escaped {t u : Text} : Numbered number t u → Numbered number ('\\' :: '$' :: t) ('$' :: u)
  | other {c : Char} {t u : Text} :
      c ≠ '$' → ¬ (c = '\\' ∧ t.head? = some '$') → Numbered number t u →
      Numbered number (c :: t) (c :: u)

/-- A run of dollars stands for the padded numeral. -/
theorem counterNumeral_eq {width : Nat} (h : 0 < width) (number : Int) :
    counterNumeral number width = paddedNumeral number width := by
  obtain ⟨others, rfl⟩ := Nat.exists_eq_add_of_le' h
  cases number with
  | ofNat n =>
    have hsign : ¬ Int.ofNat n < 0 := Int.not_lt.2 (Int.natCast_nonneg n)
    simp only [paddedNumeral, if_neg hsign, List.length_nil, Nat.zero_add, List.nil_append]
    exact zeroPad_ofInt (others + 1) n
  | negSucc n =>
    have hsign : Int.negSucc n < 0 := Int.negSucc_lt_zero n
    have hwidth (digits : Nat) : 1 + digits = digits + 1 := Nat.add_comm 1 digits
    simp [counterNumeral, ofInt, zeroPad, paddedNumeral, hsign, hwidth]

/-- Behind a run of dollars, of any length, the copy goes on as it begins elsewhere. -/
theorem Numbered.behind_run {u : Text} (h : Numbered number t u) (ht : t.head? ≠ some '$')
    (run : Nat) :
    Numbered number (List.replicate run '$' ++ t) (counterNumeral number run ++ u) := by
  cases run with
  | zero => exact h
  | succ others =>
    have hwidth : 0 < others + 1 := Nat.succ_pos others
    rw [counterNumeral_eq hwidth]
    exact .run hwidth ht h

/-- What is left after the replacement is the copy of the text and of the run before it. -/
theorem numbered_replaceCounterAfter (number : Int) (run : Nat) (t : Text) :
    Numbered number (List.replicate run '$' ++ t) (replaceCounterAfter number run t) := by
  fun_induction replaceCounterAfter number run t with
  | case1 run => simpa using Numbered.nil.behind_run (by simp) run
  | case2 run rest ih =>
    rwa [List.replicate_succ', List.append_assoc, List.singleton_append] at ih
  | case3 run rest ih => exact (Numbered.escaped ih).behind_run (by simp) run
  | case4 run c rest hdollar hescape ih =>
    refine (Numbered.other hdollar ?_ ih).behind_run (by simpa using hdollar) run
    rintro ⟨hc, hrest⟩
    obtain ⟨more, hmore⟩ := List.head?_eq_some_iff.1 hrest
    exact hescape more hc hmore

/-- Replacing its counters makes of a text what it is in the copy. -/
theorem numbered_iff {number : Int} {t u : Text} :
    Numbered number t u ↔ u = replaceCounter number t := by
  constructor
  · intro h
    induction h with
    | nil => rfl
    | @run width t u hwidth ht _ ih =>
      rw [replaceCounter, replaceCounterAfter_replicate_append, Nat.zero_add,
        replaceCounterAfter_of_head?_ne ht, counterNumeral_eq hwidth, ih]
      rfl
    | escaped _ ih => rw [ih]; rfl
    | other hdollar hescape _ ih =>
      rw [replaceCounter, replaceCounterAfter_other hdollar hescape, ih]
      rfl
  · rintro rfl
    exact numbered_replaceCounterAfter number 0 t

/-! ## Dollars that are left -/

/-- The number of dollars with a backslash directly before them. -/
def escapedDollars (t : Text) : Nat :=
  (t.zip t.tail).count ('\\', '$')

/-- One more character in front makes a difference if it is a backslash before a dollar. -/
theorem escapedDollars_cons (c : Char) (t : Text) :
    escapedDollars (c :: t) =
      escapedDollars t + if c = '\\' ∧ t.head? = some '$' then 1 else 0 := by
  cases t with
  | nil => simp [escapedDollars]
  | cons d t => simp [escapedDollars, List.count_cons]

/-- No numeral of a number that is not negative holds a dollar. -/
theorem count_counterNumeral (n run : Nat) : (counterNumeral n run).count '$' = 0 := by
  refine List.count_eq_zero.2 fun hdollar => ?_
  exact absurd (isDigit_of_mem_counterNumeral (Int.natCast_nonneg n) hdollar) (by decide)

/-- The dollars that are left are those with a backslash directly before them. -/
theorem count_replaceCounterAfter (n run : Nat) (t : Text) :
    (replaceCounterAfter n run t).count '$' = escapedDollars t := by
  fun_induction replaceCounterAfter n run t with
  | case1 run => exact count_counterNumeral n run
  | case2 run rest ih =>
    rw [ih, escapedDollars_cons]
    simp
  | case3 run rest ih =>
    rw [List.count_append, count_counterNumeral, List.count_cons_self, ih, escapedDollars_cons,
      escapedDollars_cons]
    simp
  | case4 run c rest hdollar hescape ih =>
    have hnot : ¬ (c = '\\' ∧ rest.head? = some '$') := by
      rintro ⟨hc, hrest⟩
      obtain ⟨more, hmore⟩ := List.head?_eq_some_iff.1 hrest
      exact hescape more hc hmore
    rw [List.count_append, count_counterNumeral, List.count_cons_of_ne hdollar, ih,
      escapedDollars_cons, if_neg hnot, Nat.zero_add, Nat.add_zero]

/-! ## The whole text -/

/-- Counters are replaced part by part. A character that is neither a dollar nor a backslash stays
where it is, between what is made of the text before it and of the text behind it. A run of dollars
becomes the decimal numeral, with zeros in front up to the length of the run, and denotes the
number. A text without dollars is not changed by the scan, so that it need not be scanned. And
the dollars of the result are as many as the text has behind a backslash. -/
theorem replaceCounter_parts (n : Nat) :
    (∀ (s t : Text) (c : Char), c ≠ '$' → c ≠ '\\' →
      replaceCounter n (s ++ [c] ++ t) = replaceCounter n s ++ [c] ++ replaceCounter n t) ∧
    (∀ k, 1 ≤ k →
      replaceCounter n (List.replicate k '$') =
        List.replicate (k - (Nat.toDigits 10 n).length) '0' ++ Nat.toDigits 10 n ∧
      readInt? (replaceCounter n (List.replicate k '$')) = some (n : Int)) ∧
    (∀ t, '$' ∉ t → replaceCounter n t = t) ∧
    ∀ t, (replaceCounter n t).count '$' = escapedDollars t := by
  refine ⟨?_, ?_, fun t ht => replaceCounter_of_not_mem ht n,
    fun t => count_replaceCounterAfter n 0 t⟩
  · intro s t c hdollar hbackslash
    have hhead : (c :: t).head? ≠ some '$' := fun hc => hdollar (Option.some.inj hc)
    have hcut : replaceCounterAfter n 0 (s ++ c :: t) =
        replaceCounterAfter n 0 s ++ replaceCounterAfter n 0 (c :: t) :=
      replaceCounterAfter_append hhead
    have hkept : replaceCounterAfter n 0 (c :: t) = c :: replaceCounterAfter n 0 t :=
      replaceCounterAfter_cons_of_ne hdollar hbackslash
    rw [List.append_assoc, List.append_assoc, List.singleton_append, List.singleton_append,
      replaceCounter, hcut, hkept]
    rfl
  · intro k hk
    have hnumeral := replaceCounter_replicate n hk
    exact ⟨hnumeral, hnumeral ▸ readInt?_padded _ n⟩

/-- The twelfth copy of a text with an escaped dollar before a run, of a run that a backslash ends,
and of a text without dollars. -/
theorem replaceCounter_parts_twelfth :
    ('-' ≠ '$' ∧ '-' ≠ '\\' ∧
      replaceCounter 12 ("\\$$$$".toList ++ ['-'] ++ "$\\".toList) = "$012-12\\".toList) ∧
    (1 ≤ 4 ∧ replaceCounter 12 (List.replicate 4 '$') = "0012".toList ∧
      readInt? (replaceCounter 12 (List.replicate 4 '$')) = some 12) ∧
    ('$' ∉ "a\\b".toList ∧ replaceCounter 12 "a\\b".toList = "a\\b".toList) := by
  obtain ⟨hcut, hrun, hplain, -⟩ := replaceCounter_parts 12
  refine ⟨⟨by decide, by decide, ?_⟩, ⟨by decide, ?_⟩, ⟨by decide, hplain _ (by decide)⟩⟩
  · exact (hcut "\\$$$$".toList "$\\".toList '-' (by decide) (by decide)).trans (by decide)
  · obtain ⟨hnumeral, hback⟩ := hrun 4 (by decide)
    exact ⟨hnumeral.trans (by decide), hback⟩

end Abbrev.Text
