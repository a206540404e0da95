import Abbrev.Node

/-!
# Classes that collect

The attributes of an element are gone through once. A class that comes after another one goes into
that one, and everything else is put at the end. So from the first class on, what has been made
consists of the attributes before that class, one class, and others behind it, and a step changes
either the value of the class or what stands behind it (`add_class`, `add_other`). A whole run
leaves the attributes before the first class alone, collects the values of all classes in its place,
and keeps the others in order (`merge_of_first`); said of the whole list, that is `gathered`.
Attributes with one class or none are not changed (`merge_eq_self`), and that is what a run makes of
any attributes, so a second run has nothing to do (`merge_collects`).
-/

namespace Abbrev

namespace Text

/-- The first two of several texts may be joined before the rest. -/
theorem join_join (separator first second : Text) (rest : List Text) :
    join separator ((first ++ (separator ++ second)) :: rest) =
      join separator (first :: second :: rest) := by
  cases rest with
  | nil => rw [join_singleton, join_cons_cons, join_singleton]
  | cons next rest =>
    rw [join_cons_cons, join_cons_cons, join_cons_cons, List.append_assoc, List.append_assoc]

/-- Texts are joined to something if the first one is not empty. -/
theorem join_ne_nil {separator first : Text} (h : first ≠ []) (rest : List Text) :
    join separator (first :: rest) ≠ [] := by
  cases rest with
  | nil => rwa [join_singleton]
  | cons next rest =>
    rw [join_cons_cons]
    exact List.append_ne_nil_of_left_ne_nil h _

end Text

namespace Attribute

/-- The values of the classes, in order. -/
def classes (attributes : List Attribute) : List Text :=
  (attributes.filter fun a => a.name = className).map value

/-- The attributes that are no classes, in order. -/
def others (attributes : List Attribute) : List Attribute :=
  attributes.filter fun a => a.name ≠ className

/-- Class values as one: those that are not empty, with a space between neighbours. -/
def collected (values : List Text) : Text :=
  Text.join [' '] (values.filter fun value => value ≠ [])

variable {a first : Attribute} {attributes before after : List Attribute} {value : Text}

/-! ## Classes and others -/

/-- The class values of two lists follow each other. -/
theorem classes_append (attributes more : List Attribute) :
    classes (attributes ++ more) = classes attributes ++ classes more := by
  rw [classes, List.filter_append, List.map_append]
  rfl

/-- The others of two lists follow each other. -/
theorem others_append (attributes more : List Attribute) :
    others (attributes ++ more) = others attributes ++ others more :=
  List.filter_append attributes more

/-- A class brings its value. -/
theorem classes_cons_of_eq (h : a.name = className) :
    classes (a :: attributes) = a.value :: classes attributes := by
  simp [classes, h]

/-- What is no class brings no class value. -/
theorem classes_cons_of_ne (h : a.name ≠ className) :
    classes (a :: attributes) = classes attributes := by
  simp [classes, h]

/-- A class is none of the others. -/
theorem others_cons_of_eq (h : a.name = className) :
    others (a :: attributes) = others attributes := by
  simp [others, h]

/-- What is no class is one of the others. -/
theorem others_cons_of_ne (h : a.name ≠ className) :
    others (a :: attributes) = a :: others attributes := by
  simp [others, h]

/-- No class is among the others. -/
theorem ne_of_mem_others (h : a ∈ others attributes) : a.name ≠ className := by
  simpa using (List.mem_filter.1 h).2

/-- There is no class value exactly if there is no class. -/
theorem classes_eq_nil_iff : classes attributes = [] ↔ ∀ a ∈ attributes, a.name ≠ className := by
  simp [classes, List.filter_eq_nil_iff]

/-- All attributes are others if there is no class. -/
theorem others_eq_self (h : ∀ a ∈ attributes, a.name ≠ className) :
    others attributes = attributes :=
  List.filter_eq_self.2 fun a ha => decide_eq_true (h a ha)

/-- There is no class, or a first one. -/
theorem no_class_or_first (attributes : List Attribute) :
    (∀ a ∈ attributes, a.name ≠ className) ∨
      ∃ before first after, attributes = before ++ first :: after ∧
        (∀ b ∈ before, b.name ≠ className) ∧ first.name = className := by
  cases hfound : attributes.find? fun a => a.name = className with
  | none => exact .inl fun a ha => by simpa using List.find?_eq_none.1 hfound a ha
  | some first =>
    obtain ⟨hfirst, before, after, hcut, hbefore⟩ := List.find?_eq_some_iff_append.1 hfound
    have hnot : ∀ b ∈ before, b.name ≠ className := fun b hb => by simpa using hbefore b hb
    exact .inr ⟨before, first, after, hcut, hnot, of_decide_eq_true hfirst⟩

/-- The class values are those from the first class on. -/
theorem classes_of_first (hbefore : ∀ b ∈ before, b.name ≠ className)
    (hfirst : first.name = className) (after : List Attribute) :
    classes (before ++ first :: after) = first.value :: classes after := by
  rw [classes_append, classes_eq_nil_iff.2 hbefore, List.nil_append, classes_cons_of_eq hfirst]

/-- Cut in front of the first class, attributes are those before it, and the class with the rest. -/
theorem cut_at_first (hbefore : ∀ b ∈ before, b.name ≠ className) (hfirst : first.name = className)
    (after : List Attribute) :
    (before ++ first :: after).takeWhile (fun a => a.name ≠ className) = before ∧
      (before ++ first :: after).dropWhile (fun a => a.name ≠ className) = first :: after := by
  have hother : ∀ b ∈ before, decide (b.name ≠ className) = true :=
    fun b hb => decide_eq_true (hbefore b hb)
  have hbehind : ((first :: after).takeWhile fun a => a.name ≠ className) = [] := by simp [hfirst]
  have hfrom : ((first :: after).dropWhile fun a => a.name ≠ className) = first :: after := by
    simp [hfirst]
  rw [List.takeWhile_append_of_pos hother, List.dropWhile_append_of_pos hother, hbehind, hfrom,
    List.append_nil]
  exact ⟨rfl, rfl⟩

/-! ## Values as one -/

/-- An empty value adds nothing. -/
theorem collected_cons_nil (values : List Text) : collected ([] :: values) = collected values :=
  rfl

/-- A value that is not empty is joined to the rest. -/
theorem collected_cons_of_ne (h : value ≠ []) (values : List Text) :
    collected (value :: values) =
      Text.join [' '] (value :: values.filter fun value => value ≠ []) := by
  simp [collected, h]

/-- A value by itself stays as it is. -/
theorem collected_singleton (value : Text) : collected [value] = value := by
  cases value with
  | nil => rfl
  | cons c value => exact Text.join_singleton _ _

/-- The values are empty as one exactly if each of them is empty. -/
theorem collected_eq_nil_iff {values : List Text} :
    collected values = [] ↔ ∀ value ∈ values, value = [] := by
  induction values with
  | nil => exact iff_of_true rfl (List.forall_mem_nil _)
  | cons value values ih =>
    rw [List.forall_mem_cons]
    by_cases hvalue : value = []
    · rw [hvalue, collected_cons_nil, ih]
      exact (and_iff_right rfl).symm
    · rw [collected_cons_of_ne hvalue]
      exact iff_of_false (Text.join_ne_nil hvalue _) fun h => hvalue h.1

/-- Two class values may be made one before the rest is collected. -/
theorem collected_joinClasses (first second : Text) (rest : List Text) :
    collected (joinClasses first second :: rest) = collected (first :: second :: rest) := by
  -- An empty value is left out on both sides; two that are not empty have the space between them.
  by_cases hfirst : first = []
  · rw [hfirst, collected_cons_nil]
    rfl
  by_cases hsecond : second = []
  · have hjoined : joinClasses first second = first := by
      rw [joinClasses, if_neg hfirst, if_pos hsecond]
    rw [hjoined, hsecond, collected_cons_of_ne hfirst, collected_cons_of_ne hfirst]
    rfl
  · have hjoined : joinClasses first second = first ++ ([' '] ++ second) := by
      rw [joinClasses, if_neg hfirst, if_neg hsecond, List.singleton_append]
    have hne : first ++ ([' '] ++ second) ≠ [] := List.append_ne_nil_of_left_ne_nil hfirst _
    have hkept : ((second :: rest).filter fun value => value ≠ []) =
        second :: rest.filter fun value => value ≠ [] := by simp [hsecond]
    rw [hjoined, collected_cons_of_ne hne, collected_cons_of_ne hfirst, hkept, Text.join_join]

/-! ## One more attribute -/

/-- What is no class is put at the end. -/
theorem add_other (h : a.name ≠ className) : add attributes a = attributes ++ [a] := by
  simp [add, h]

/-- A class is put at the end as long as there is none. -/
theorem add_first (h : ∀ b ∈ attributes, b.name ≠ className) :
    add attributes a = attributes ++ [a] := by
  have hnone : (attributes.any fun b => b.name == className) = false := by simpa using h
  simp [add, hnone]

/-- A class goes into the one that is there already. -/
theorem add_class (hbefore : ∀ b ∈ before, b.name ≠ className)
    (hafter : ∀ b ∈ after, b.name ≠ className) (h : a.name = className) :
    add (before ++ ⟨className, value⟩ :: after) a =
      before ++ ⟨className, joinClasses value a.value⟩ :: after := by
  -- All attributes are looked at, and only the class in the middle is one.
  have hkept {l : List Attribute} (hl : ∀ b ∈ l, b.name ≠ className) :
      (l.map fun b => if b.name = className then
        { b with value := joinClasses b.value a.value } else b) = l :=
    (List.map_congr_left fun b hb => if_neg (hl b hb)).trans (List.map_id l)
  simp [add, h, hkept hbefore, hkept hafter]

/-! ## All attributes -/

/-- Attributes without a class are put at the end one by one. -/
theorem foldl_add_others {more : List Attribute} (h : ∀ a ∈ more, a.name ≠ className) :
    more.foldl add attributes = attributes ++ more := by
  induction more generalizing attributes with
  | nil => rw [List.foldl_nil, List.append_nil]
  | cons a more ih =>
    obtain ⟨ha, hmore⟩ := List.forall_mem_cons.1 h
    rw [List.foldl_cons, add_other ha, ih hmore, List.append_assoc, List.singleton_append]

/-- Once there is a class, all further ones are collected in it, and the others are put at the
end. -/
theorem foldl_add_class (hbefore : ∀ b ∈ before, b.name ≠ className)
    (hafter : ∀ b ∈ after, b.name ≠ className) (value : Text) (more : List Attribute) :
    more.foldl add (before ++ ⟨className, value⟩ :: after) =
      before ++ ⟨className, collected (value :: classes more)⟩ :: (after ++ others more) := by
  -- A step changes the value of the class or what is behind it, so both vary in the induction.
  induction more generalizing value after with
  | nil =>
    have hvalue : collected (value :: classes []) = value := collected_singleton value
    have hbehind : after ++ others [] = after := List.append_nil after
    rw [List.foldl_nil, hvalue, hbehind]
  | cons a more ih =>
    by_cases ha : a.name = className
    · rw [List.foldl_cons, add_class hbefore hafter ha, ih hafter, collected_joinClasses,
        classes_cons_of_eq ha, others_cons_of_eq ha]
    · have hput : add (before ++ ⟨className, value⟩ :: after) a =
          before ++ ⟨className, value⟩ :: (after ++ [a]) := by
        rw [add_other ha, List.append_assoc, List.cons_append]
      have hbehind : ∀ b ∈ after ++ [a], b.name ≠ className :=
        List.forall_mem_append.2 ⟨hafter, List.forall_mem_singleton.2 ha⟩
      rw [List.foldl_cons, hput, ih hbehind, classes_cons_of_ne ha, others_cons_of_ne ha,
        List.append_assoc, List.singleton_append]

/-- Attributes without a class are not changed. -/
theorem merge_of_no_class (h : ∀ a ∈ attributes, a.name ≠ className) :
    merge attributes = attributes :=
  foldl_add_others h

/-- What stands before the first class stays there, the values of all classes are collected in the
place of the first one, and the others follow. -/
theorem merge_of_first (hbefore : ∀ b ∈ before, b.name ≠ className)
    (hfirst : first.name = className) (after : List Attribute) :
    merge (before ++ first :: after) =
      before ++ ⟨className, collected (first.value :: classes after)⟩ :: others after := by
  have hput : add before first = before ++ [⟨className, first.value⟩] := by
    rw [add_first hbefore, ← hfirst]
  rw [merge, List.foldl_append, foldl_add_others hbefore, List.nil_append, List.foldl_cons, hput,
    foldl_add_class hbefore (List.forall_mem_nil _), List.nil_append]

/-- The attributes with one class, in the place of the first one if there are several: its value is
all that are not empty, with spaces between them. -/
def gathered (attributes : List Attribute) : List Attribute :=
  match attributes.dropWhile fun a => a.name ≠ className with
  | [] => attributes
  | _ :: after =>
    attributes.takeWhile (fun a => a.name ≠ className) ++
      ⟨className, collected (classes attributes)⟩ :: others after

/-- Going through the attributes gathers the classes. -/
theorem merge_eq_gathered (attributes : List Attribute) :
    merge attributes = gathered attributes := by
  unfold gathered
  obtain hnone | ⟨before, first, after, rfl, hbefore, hfirst⟩ := no_class_or_first attributes
  · have hall : attributes.dropWhile (fun a => a.name ≠ className) = [] := by
      rw [← List.append_nil attributes,
        List.dropWhile_append_of_pos fun a ha => decide_eq_true (hnone a ha), List.dropWhile_nil]
    rw [hall, merge_of_no_class hnone]
  · obtain ⟨htake, hdrop⟩ := cut_at_first hbefore hfirst after
    rw [hdrop, htake, merge_of_first hbefore hfirst, classes_of_first hbefore hfirst]

/-- At most one class is left. -/
theorem length_classes_merge (attributes : List Attribute) :
    (classes (merge attributes)).length ≤ 1 := by
  obtain hnone | ⟨before, first, after, rfl, hbefore, hfirst⟩ := no_class_or_first attributes
  · rw [merge_of_no_class hnone, classes_eq_nil_iff.2 hnone]
    exact Nat.zero_le 1
  · have hbehind : classes (others after) = [] :=
      classes_eq_nil_iff.2 fun _ => ne_of_mem_others
    rw [merge_of_first hbefore hfirst, classes_of_first hbefore rfl, hbehind]
    exact Nat.le_refl 1

/-- The others are left as they are. -/
theorem others_merge (attributes : List Attribute) :
    others (merge attributes) = others attributes := by
  obtain hnone | ⟨before, first, after, rfl, hbefore, hfirst⟩ := no_class_or_first attributes
  · rw [merge_of_no_class hnone]
  · have hbehind : others (others after) = others after :=
      others_eq_self fun _ => ne_of_mem_others
    rw [merge_of_first hbefore hfirst, others_append, others_append, others_cons_of_eq rfl,
      others_cons_of_eq hfirst, hbehind]

/-- Attributes with one class or none are not changed. -/
theorem merge_eq_self (h : (classes attributes).length ≤ 1) : merge attributes = attributes := by
  obtain hnone | ⟨before, first, after, rfl, hbefore, hfirst⟩ := no_class_or_first attributes
  · exact merge_of_no_class hnone
  · rw [classes_of_first hbefore hfirst, List.length_cons] at h
    have hlast : classes after = [] := List.eq_nil_of_length_eq_zero (by omega)
    rw [merge_of_first hbefore hfirst, hlast, collected_singleton, ← hfirst,
      others_eq_self (classes_eq_nil_iff.1 hlast)]

/-- Merging leaves at most one class, and all others, repeated ones too, in order. If there is a
class, what stands before the first one stays there and the others from behind it follow; the class
between them has the values of all classes that are not empty, in order and with single spaces
between them, and it is empty if all of them are. If there is no class, nothing changes. And
attributes once merged stay as they are. -/
theorem merge_collects (attributes : List Attribute) :
    (classes (merge attributes)).length ≤ 1 ∧
    others (merge attributes) = others attributes ∧
    ((∃ a ∈ attributes, a.name = className) →
      merge attributes = attributes.takeWhile (fun a => a.name ≠ className) ++
        ⟨className, collected (classes attributes)⟩ ::
          others (attributes.dropWhile fun a => a.name ≠ className)) ∧
    (collected (classes attributes) = [] ↔ ∀ value ∈ classes attributes, value = []) ∧
    ((∀ a ∈ attributes, a.name ≠ className) → merge attributes = attributes) ∧
    merge (merge attributes) = merge attributes := by
  refine ⟨length_classes_merge attributes, others_merge attributes, ?_, collected_eq_nil_iff,
    merge_of_no_class, merge_eq_self (length_classes_merge attributes)⟩
  rintro ⟨a, ha, hclass⟩
  obtain hnone | ⟨before, first, after, rfl, hbefore, hfirst⟩ := no_class_or_first attributes
  · exact absurd hclass (hnone a ha)
  · obtain ⟨htake, hdrop⟩ := cut_at_first hbefore hfirst after
    rw [htake, hdrop, others_cons_of_eq hfirst, classes_of_first hbefore hfirst,
      merge_of_first hbefore hfirst]

/-- Four classes, the first and the third of them empty, around a name that is given twice. -/
def sampleClasses : List Attribute :=
  [⟨"id".toList, "i".toList⟩, ⟨className, []⟩, ⟨"title".toList, "s".toList⟩,
    ⟨className, "a".toList⟩, ⟨className, []⟩, ⟨"title".toList, "s".toList⟩,
    ⟨className, "b c".toList⟩]

/-- The four classes are one in the place of the first, behind the attribute before it, and the same
title stays there twice. The attribute by itself has no class and stays as it is. -/
theorem merge_collects_sampleClasses :
    ((∃ a ∈ sampleClasses, a.name = className) ∧
      merge sampleClasses =
        [⟨"id".toList, "i".toList⟩, ⟨className, "a b c".toList⟩, ⟨"title".toList, "s".toList⟩,
          ⟨"title".toList, "s".toList⟩]) ∧
    (∀ a ∈ [(⟨"id".toList, "i".toList⟩ : Attribute)], a.name ≠ className) ∧
      merge [⟨"id".toList, "i".toList⟩] = [⟨"id".toList, "i".toList⟩] := by
  have hclass : ∃ a ∈ sampleClasses, a.name = className := by decide
  have hnone : ∀ a ∈ [(⟨"id".toList, "i".toList⟩ : Attribute)], a.name ≠ className := by decide
  obtain ⟨-, -, hmerged, -⟩ := merge_collects sampleClasses
  obtain ⟨-, -, -, -, hkept, -⟩ := merge_collects [⟨"id".toList, "i".toList⟩]
  exact ⟨⟨hclass, (hmerged hclass).trans (by decide)⟩, hnone, hkept hnone⟩

end Attribute

end Abbrev
