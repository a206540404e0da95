import Mathlib.Data.List.Nodup
import Mathlib.Data.List.Perm.Subperm
import Abbrev.Proofs.Fragment.Range

/-!
# New names

When a piece is put into a fragment, its tab stops keep their names unless these are in use. This
module says what is known of the new names. The search for one ends, as numerals differ and only so
many names are taken (`exists_freshName`); and what it finds is none of the names around: not one of
the host, not one of the piece, and not another new name. So the names of a piece stay apart from
those of the host (`newName_notMem`) and from each other (`newName_injective`).

`END` and `ATTRS` stay as they are, and no new name is one of them, since it ends in a digit.
-/

namespace Abbrev.Fragment

variable {host piece : Fragment} {name other fresh : Text} {used taken names : List Text}

/-! ## Names with numbers -/

/-- The number can be read off. -/
theorem numbered_injective {m n : Nat} (h : numbered name m = numbered name n) : m = n := by
  have hdigits : Nat.toDigits 10 m = Nat.toDigits 10 n := List.append_cancel_left h
  rw [← Nat.ofDigitChars_ten_toDigits (n := m), hdigits, Nat.ofDigitChars_ten_toDigits]

/-- A name with a number ends in a digit. -/
theorem exists_digit_numbered (name : Text) (n : Nat) :
    ∃ before d, numbered name n = before ++ [d] ∧ Char.isDigit d = true := by
  have hne : Nat.toDigits 10 n ≠ [] := Nat.toDigits_ne_nil
  refine ⟨name ++ (Nat.toDigits 10 n).dropLast, (Nat.toDigits 10 n).getLast hne, ?_, ?_⟩
  · rw [numbered, List.append_assoc, List.dropLast_append_getLast]
  · exact Nat.isDigit_of_mem_toDigits (by decide) (by decide) (List.getLast_mem hne)

/-- A name that does not end in a digit is no name with a number. -/
theorem numbered_ne (before : Text) {c : Char} (hc : Char.isDigit c = false) (name : Text)
    (n : Nat) : numbered name n ≠ before ++ [c] := by
  obtain ⟨start, d, hnumbered, hd⟩ := exists_digit_numbered name n
  rw [hnumbered]
  intro h
  obtain ⟨-, hlast⟩ := List.append_inj' h rfl
  obtain rfl : d = c := List.singleton_inj.1 hlast
  rw [hd] at hc
  cases hc

/-- A name with a number is not reserved. -/
theorem isReserved_numbered (name : Text) (n : Nat) :
    Marker.isReserved (numbered name n) = false := by
  have hend : numbered name n ≠ Marker.endName :=
    numbered_ne "EN".toList (by decide) name n
  have hattributes : numbered name n ≠ Marker.attributesName :=
    numbered_ne "ATTR".toList (by decide) name n
  simp [Marker.isReserved, hend, hattributes]

/-! ## The search for a free name -/

/-- Of the names in a row that is longer than what is taken, one is free. -/
theorem exists_free (taken : List Text) (name : Text) :
    ∃ i < taken.length + 1, numbered name (i + 2) ∉ taken := by
  by_contra hnone
  have htaken : ∀ i < taken.length + 1, numbered name (i + 2) ∈ taken := by
    intro i hi
    by_contra hfree
    exact hnone ⟨i, hi, hfree⟩
  have hnodup : ((List.range (taken.length + 1)).map fun i => numbered name (i + 2)).Nodup := by
    refine List.Nodup.map_on ?_ List.nodup_range
    intro i _ j _ h
    have := numbered_injective h
    omega
  have hsubset : ((List.range (taken.length + 1)).map fun i => numbered name (i + 2)) ⊆ taken := by
    intro candidate hcandidate
    obtain ⟨i, hi, rfl⟩ := List.mem_map.1 hcandidate
    exact htaken i (List.mem_range.1 hi)
  have hlength := (List.subperm_of_subset hnodup hsubset).length_le
  rw [List.length_map, List.length_range] at hlength
  omega

/-- The search ends with a name that is free, and is the first one in its row. -/
theorem exists_freshName (taken : List Text) (name : Text) :
    ∃ n, 2 ≤ n ∧ freshName taken name = numbered name n ∧ numbered name n ∉ taken ∧
      ∀ k, 2 ≤ k → k < n → numbered name k ∈ taken := by
  obtain ⟨free, hfree, hnotMem⟩ := exists_free taken name
  have hfound : ((List.range (taken.length + 1)).find? fun i =>
      !taken.contains (numbered name (i + 2))).isSome = true := by
    rw [List.find?_isSome]
    exact ⟨free, List.mem_range.2 hfree, by simpa using hnotMem⟩
  obtain ⟨i, hi⟩ := Option.isSome_iff_exists.1 hfound
  obtain ⟨hifree, -, hbefore⟩ := List.find?_range_eq_some.1 hi
  refine ⟨i + 2, by omega, ?_, by simpa using hifree, ?_⟩
  · unfold freshName
    dsimp only
    rw [List.find?_map]
    unfold Function.comp
    rw [hi, Option.map_some, Option.getD_some]
  · intro k hk hlt
    have htaken := hbefore (k - 2) (by omega)
    rw [show k - 2 + 2 = k by omega] at htaken
    simpa using htaken

/-! ## The new names of a piece -/

/-- A new name is given to a name in use that is not reserved; it is that name with a number, and it
was not taken. -/
theorem of_mem_renamesFrom (h : (name, fresh) ∈ renamesFrom used taken names) :
    name ∈ used ∧ Marker.isReserved name = false ∧ fresh ∉ taken ∧
      ∃ n, fresh = numbered name n := by
  fun_induction renamesFrom used taken names with
  | case1 => cases h
  | case2 _ _ _ _ ih => exact ih h
  | case3 taken first more hclash newName ih =>
    rcases List.mem_cons.1 h with heq | hmem
    · obtain ⟨rfl, rfl⟩ := Prod.mk.inj heq
      obtain ⟨n, -, hfresh, hfree, -⟩ := exists_freshName taken name
      rw [Bool.or_eq_true, not_or] at hclash
      rw [← hfresh] at hfree
      exact ⟨by simpa using hclash.2, by simpa using hclash.1, hfree, n, hfresh⟩
    · -- What is taken only grows on the way.
      obtain ⟨hused, hreserved, hfree, hnumbered⟩ := ih hmem
      exact ⟨hused, hreserved, fun hold => hfree (List.mem_cons_of_mem _ hold), hnumbered⟩

/-- No new name is given twice. -/
theorem nodup_renamesFrom (used taken names : List Text) :
    ((renamesFrom used taken names).map Prod.snd).Nodup := by
  fun_induction renamesFrom used taken names with
  | case1 => exact List.nodup_nil
  | case2 _ _ _ _ ih => exact ih
  | case3 taken first more hclash newName ih =>
    refine List.nodup_cons.2 ⟨?_, ih⟩
    intro hmem
    obtain ⟨⟨name, fresh⟩, hpair, rfl⟩ := List.mem_map.1 hmem
    obtain ⟨-, -, hfree, -⟩ := of_mem_renamesFrom hpair
    exact hfree List.mem_cons_self

/-- Every name in use that is not reserved gets a new name. -/
theorem exists_mem_renamesFrom (hname : name ∈ names) (hused : name ∈ used)
    (hreserved : Marker.isReserved name = false) (taken : List Text) :
    ∃ fresh, (name, fresh) ∈ renamesFrom used taken names := by
  fun_induction renamesFrom used taken names with
  | case1 => cases hname
  | case2 _ first more hfree ih =>
    rcases List.mem_cons.1 hname with rfl | hname
    · simp [hreserved, hused] at hfree
    · exact ih hname
  | case3 taken first more _ newName ih =>
    rcases List.mem_cons.1 hname with rfl | hname
    · exact ⟨newName, List.mem_cons_self⟩
    · obtain ⟨fresh, hfresh⟩ := ih hname
      exact ⟨fresh, List.mem_cons_of_mem _ hfresh⟩

/-- The name that a marker of `piece` gets in `host`. -/
def newName (host piece : Fragment) (name : Text) : Text :=
  ((host.renames piece).lookup name).getD name

/-- A marker is renamed by its name. -/
@[simp] theorem name_rename (host piece : Fragment) (m : Marker) :
    (rename (host.renames piece) m).name = host.newName piece m.name := rfl

/-- Renaming moves no marker. -/
@[simp] theorem offset_rename (renames : List (Text × Text)) (m : Marker) :
    (rename renames m).offset = m.offset := rfl

/-- The names of a fragment are those of its markers. -/
theorem mem_names : name ∈ piece.names ↔ ∃ m ∈ piece.markers, m.name = name := by
  rw [names, List.mem_eraseDups, List.mem_map]

/-- A marker of a piece keeps its name, or has a new one with a number. -/
theorem newName_cases (host piece : Fragment) (name : Text) :
    (host.renames piece).lookup name = none ∧ host.newName piece name = name ∨
      ∃ n, (name, host.newName piece name) ∈ host.renames piece ∧
        host.newName piece name = numbered name n := by
  unfold newName
  cases hlookup : (host.renames piece).lookup name with
  | none => exact .inl ⟨rfl, rfl⟩
  | some fresh =>
    obtain ⟨before, after, hmem, -⟩ := List.lookup_eq_some_iff.1 hlookup
    have hpair : (name, fresh) ∈ host.renames piece := by
      rw [hmem]
      simp
    obtain ⟨-, -, -, n, hnumbered⟩ := of_mem_renamesFrom hpair
    exact .inr ⟨n, hpair, hnumbered⟩

/-- A reserved name is kept. -/
theorem newName_of_isReserved (h : Marker.isReserved name = true) (host piece : Fragment) :
    host.newName piece name = name := by
  rw [newName, renames, lookup_renamesFrom_of_isReserved _ _ _ h, Option.getD_none]

/-- A name becomes a reserved one only by being it. -/
theorem newName_eq_iff (h : Marker.isReserved other = true) (host piece : Fragment) (name : Text) :
    host.newName piece name = other ↔ name = other := by
  constructor
  · intro heq
    obtain ⟨-, hkept⟩ | ⟨n, -, hnumbered⟩ := newName_cases host piece name
    · exact hkept.symm.trans heq
    · rw [← heq, hnumbered, isReserved_numbered] at h
      cases h
  · rintro rfl
    exact newName_of_isReserved h host piece

/-- Among the markers of the host, no tab stop of a piece is linked to one. -/
theorem newName_notMem (hname : name ∈ piece.names) (hreserved : Marker.isReserved name = false) :
    host.newName piece name ∉ host.names := by
  obtain ⟨hnone, hkept⟩ | ⟨n, hpair, -⟩ := newName_cases host piece name
  · -- A name that is kept is not in use, or there would be a new name for it.
    rw [hkept]
    intro hused
    obtain ⟨fresh, hmem⟩ := exists_mem_renamesFrom hname hused hreserved (host.names ++ piece.names)
    have hsome : ((host.renames piece).lookup name).isSome = true := by
      rw [List.lookup_isSome_iff]
      exact ⟨(name, fresh), hmem, by simp⟩
    rw [hnone] at hsome
    cases hsome
  · obtain ⟨-, -, hfree, -⟩ := of_mem_renamesFrom hpair
    exact fun hhost => hfree (List.mem_append_left _ hhost)

/-- Different names of a piece stay different. -/
theorem newName_injective (hname : name ∈ piece.names) (hother : other ∈ piece.names)
    (h : host.newName piece name = host.newName piece other) : name = other := by
  -- A new name is not a name of the piece, so it cannot meet one that is kept.
  have hfresh {kept given fresh : Text} (hkept : kept ∈ piece.names)
      (hpair : (given, fresh) ∈ host.renames piece) : fresh ≠ kept := by
    rintro rfl
    obtain ⟨-, -, hfree, -⟩ := of_mem_renamesFrom hpair
    exact hfree (List.mem_append_right _ hkept)
  obtain ⟨-, hkept⟩ | ⟨-, hpair, -⟩ := newName_cases host piece name <;>
    obtain ⟨-, hkept'⟩ | ⟨-, hpair', -⟩ := newName_cases host piece other
  · rwa [hkept, hkept'] at h
  · exact absurd (h.symm.trans hkept) (hfresh hname hpair')
  · exact absurd (h.trans hkept') (hfresh hother hpair)
  · have hsame := List.inj_on_of_nodup_map
      (nodup_renamesFrom host.names (host.names ++ piece.names) piece.names) hpair hpair' h
    exact congrArg Prod.fst hsame

/-! ## The caret -/

/-- The number of markers `END`. -/
def endCount (f : Fragment) : Nat :=
  f.markers.countP fun m => m.name = Marker.endName

/-- If no offset is negative, a caret has a place exactly if there is one. -/
theorem has_endName_iff (h : ∀ m ∈ piece.markers, 0 ≤ m.offset) :
    piece.has Marker.endName = true ↔ piece.endCount ≠ 0 := by
  rw [has_iff_of_nonneg h, endCount, ne_eq, List.countP_eq_zero]
  simp

/-- The markers that stay when a piece is put in have no `END` if the piece has one. -/
theorem endCount_remaining (hpiece : ∀ m ∈ piece.markers, 0 ≤ m.offset) (host : Fragment) :
    (host.remaining piece).countP (fun m => m.name = Marker.endName) =
      if piece.endCount = 0 then host.endCount else 0 := by
  have hhas := has_endName_iff hpiece
  unfold remaining
  by_cases hzero : piece.endCount = 0
  · rw [if_pos hzero, if_neg (by rw [hhas]; exact fun h => h hzero), endCount]
  · rw [if_neg hzero, if_pos (hhas.2 hzero), List.countP_filter, List.countP_eq_zero]
    simp

/-- A fragment has the `END` of the piece that is put into it, if the piece has one, and else its
own. -/
theorem endCount_splice (hpiece : ∀ m ∈ piece.markers, 0 ≤ m.offset) (host : Fragment)
    (offset : Nat) (moves : Marker → Bool) :
    (host.splice offset piece moves).endCount =
      if piece.endCount = 0 then host.endCount else piece.endCount := by
  have hreserved : Marker.isReserved Marker.endName = true := by decide
  -- Neither renaming nor moving makes or breaks an `END`.
  have hinserted : (piece.markers.map fun m =>
      (rename (host.renames piece) m).shift offset).countP (fun m => m.name = Marker.endName) =
        piece.endCount := by
    rw [List.countP_map, endCount]
    congr 1
    funext m
    simp only [Function.comp_apply, Marker.shift, name_rename, newName_eq_iff hreserved]
  have hmoved (markers : List Marker) : (markers.map (Marker.shift piece.text.length)).countP
      (fun m => m.name = Marker.endName) = markers.countP fun m => m.name = Marker.endName := by
    rw [List.countP_map]
    rfl
  have hkept := endCount_remaining hpiece host
  rw [List.countP_eq_countP_filter_add _ _ moves] at hkept
  unfold splice
  dsimp only
  rw [endCount, List.countP_append, List.countP_append, hinserted, hmoved]
  by_cases hzero : piece.endCount = 0
  · rw [if_pos hzero] at hkept ⊢
    omega
  · rw [if_neg hzero] at hkept ⊢
    omega

end Abbrev.Fragment
