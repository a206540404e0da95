import Abbrev.Proofs.Editing.Outcome
import Abbrev.Proofs.Grammar.Numbers
import Abbrev.Proofs.Registry.Members
import Abbrev.Proofs.Registry.Selection
import Abbrev.Proofs.Rendering.Placement

/-!
# Expanding the key before the caret

With the generators and filters of this library, expanding has three outcomes. Nothing happens at
all; or the key is replaced by a template and the caret goes to the place of its `END`; or a number
in the key is too large, which is a failure that leaves the buffer as it was. No other step can
fail: a generator and filters can be chosen for what has been read, they can write it, and each part
of the template has a place.

Which of the three it is can be told from the key. It has to be an abbreviation, and not a key of
the catalog that begins another one (`Editing.Expands`), and nothing in it may go beyond the limits
of size (`Editing.Oversized`). Only the last is not looked at by the check of a key: a key that is
accepted may still fail to expand (`Editing.outcome_expand_sampleCount`).
-/

namespace Abbrev

namespace Buffer

variable {b : Buffer} {before key after : Text}

/-- A key that ends at the caret can be deleted. -/
theorem deleteKey_eq_ok (htext : b.text = before ++ key ++ after)
    (hcaret : b.caret = (before ++ key).length) :
    b.deleteKey key = .ok { b with text := before ++ after, caret := before.length } := by
  have hstart : b.caret - key.length = before.length := by
    rw [hcaret, List.length_append]
    omega
  -- With the start of the key as a natural number, all slices are `take` and `drop`.
  unfold deleteKey
  rw [hstart, hcaret, htext]
  simp only [Text.slice_natCast, Text.upTo_natCast, Text.onFrom_natCast]
  rw [List.take_left, List.drop_left, List.drop_left, if_pos ⟨Int.natCast_nonneg _, rfl⟩,
    List.append_assoc, List.take_left]

/-- Where the caret goes in a well placed template: to its `END`, or else to its end. -/
theorem caretIn_eq {t : Template} (h : t.WellPlaced) :
    caretIn t = (t.place? Marker.endName).getD t.text.length := by
  unfold caretIn
  cases hplace : t.place? Marker.endName with
  | some n => rfl
  | none =>
    cases hoffset : t.endOffset with
    | none => rfl
    | some offset =>
      -- The template remembers a caret, so it has an `END` and with it a place.
      have hend := h.has_end (by rw [hoffset]; rfl)
      rw [Fragment.has, hplace] at hend
      cases hend

end Buffer

namespace Catalog

variable {catalog : Catalog} {key : Text}

/-- A key of a catalog begins more than one key exactly if it begins another one. -/
theorem one_lt_length_keysFrom (h : (catalog.find? key).isSome = true) :
    1 < (catalog.keysFrom key).length ↔
      ∃ other, (catalog.find? other).isSome = true ∧ other ≠ key ∧ key <+: other := by
  unfold keysFrom
  rw [Text.one_lt_length_sortDistinct]
  simp only [List.mem_filter, List.isPrefixOf_iff_prefix, isSome_find?_iff] at h ⊢
  constructor
  · rintro ⟨t, ⟨ht, hkt⟩, u, ⟨hu, hku⟩, hne⟩
    -- At most one of the two is the key itself.
    by_cases hkey : t = key
    · exact ⟨u, hu, fun hukey => hne (hkey.trans hukey.symm), hku⟩
    · exact ⟨t, ht, hkey, hkt⟩
  · rintro ⟨other, hother, hne, hbegins⟩
    exact ⟨other, ⟨hother, hbegins⟩, key, ⟨h, List.prefix_refl key⟩, hne⟩

end Catalog

/-- A failure because something is too large: a number that is read, or a number of copies. -/
inductive Failure.OfSize : Failure → Prop where
  | numeral (e : SizeError) : OfSize (.read (.size e))
  | copies (e : SizeError) : OfSize (.size e)

namespace Editing

/-! ## When a key is expanded -/

/-- The key is just a key of the catalog that begins another key. -/
def BeginsOtherKey (g : Grammar) (key : Text) : Prop :=
  (∃ attributes text, g.parse key = .ok (.element key attributes text)) ∧
    (g.catalog.find? key).isSome = true ∧
      ∃ other, (g.catalog.find? other).isSome = true ∧ other ≠ key ∧ key <+: other

/-- The key is an abbreviation in the context of the buffer, and no key of the catalog that begins
another one. -/
def Expands (registry : Registry) (b : Buffer) (key : Text) : Prop :=
  (accepts (.fixed registry) key false).outcome b = (.ok true, b) ∧
    ∀ chosen ∈ registry.defaultGenerator? b.context false,
      ¬ BeginsOtherKey (grammar registry chosen.1 b) key

/-- The key goes beyond a limit: a number in it is not read for its size, or it is read and
something in it is copied too often. -/
def Oversized (registry : Registry) (b : Buffer) (key : Text) : Prop :=
  ∃ chosen ∈ registry.defaultGenerator? b.context false,
    (∃ e, (grammar registry chosen.1 b).parse key = .error (.size e)) ∨
      ∃ a, (grammar registry chosen.1 b).parse key = .ok a ∧ a.Oversized

/-- What is read from a key is ambiguous exactly if it is just a key that begins another one. -/
theorem isAmbiguous_iff {g : Grammar} {key : Text} {a : Abbreviation} (h : g.parse key = .ok a) :
    isAmbiguous a key g.catalog = true ↔ BeginsOtherKey g key := by
  unfold BeginsOtherKey isAmbiguous
  rw [h]
  cases a with
  | element name attributes text =>
    dsimp only
    rw [Bool.and_eq_true, Bool.and_eq_true, beq_iff_eq, decide_eq_true_iff]
    constructor
    · rintro ⟨⟨rfl, hfound⟩, hmore⟩
      exact ⟨⟨_, _, rfl⟩, hfound, (Catalog.one_lt_length_keysFrom hfound).1 hmore⟩
    · rintro ⟨⟨_, _, heq⟩, hfound, hother⟩
      injection heq with heq
      injection heq with hname
      exact ⟨⟨hname, hfound⟩, (Catalog.one_lt_length_keysFrom hfound).2 hother⟩
  | _ => simp

/-- What begins another key is an element, so nothing in it is copied. -/
theorem not_oversized_of_isAmbiguous {catalog : Catalog} {key : Text} {a : Abbreviation}
    (h : isAmbiguous a key catalog = true) : ¬ a.Oversized := by
  rintro ⟨count, hcopies, -⟩
  cases a with
  | element => exact hcopies
  | _ => cases h

variable {registry : Registry} {b : Buffer} {key : Text}

/-- An edit that begins with a look at its registry and its buffer goes on with these. -/
theorem outcome_fixed {α : Type} (registry : Registry) (b : Buffer)
    (next : Registry → Buffer → Edit α) :
    (do let r ← (Setup.fixed registry).registry; let current ← get; next r current).outcome b =
      (next registry b).outcome b := by
  unfold Setup.registry
  rw [Edit.outcome_bind_of_ok b (Edit.outcome_pure b registry),
    Edit.outcome_bind_of_ok b (Edit.outcome_get b)]

/-- In a buffer without a default generator, no key is an abbreviation. -/
theorem outcome_accepts_of_none (h : registry.defaultGenerator? b.context false = none) :
    (accepts (.fixed registry) key false).outcome b = (.ok false, b) := by
  unfold accepts
  rw [outcome_fixed, h]
  rfl

/-- Elsewhere, a key is an abbreviation if the grammar of the default generator accepts it. -/
theorem outcome_accepts_of_some {chosen : Generator × Nat}
    (h : registry.defaultGenerator? b.context false = some chosen) :
    (accepts (.fixed registry) key false).outcome b =
      (((grammar registry chosen.1 b).accepts key).mapError fun e => .read (.size e), b) := by
  unfold accepts
  rw [outcome_fixed, h]
  dsimp only
  cases (grammar registry chosen.1 b).accepts key <;> rfl

/-- If a generator and filters can be chosen, what is inserted depends on the forest. -/
theorem outcome_insertExpansion_eq {a : Abbreviation} {wrapped : Option Text} {wrapping : Bool}
    {generator : Generator × Nat} {filters : List (Filter × Nat)}
    (hgenerator :
      (registry.selectGenerator a.suffixes b.context wrapping).run.value = .ok generator)
    (hfilters :
      (registry.selectFilters a.suffixes b.context (some generator.1)).run.value = .ok filters)
    (hfault : generator.1.fault? (filters.map Prod.fst)
      (a.expand { catalog := b.catalog } 0 (wrapped.map Text.trim)) = none) :
    (insertExpansion registry a wrapped wrapping).outcome b =
      match a.expand? { catalog := b.catalog } 0 (wrapped.map Text.trim) with
      | .error e => (.error (.size e), b)
      | .ok nodes =>
        let t := (generator.1.assemble (filters.map Prod.fst) nodes).value
        (.ok t, b.start t) := by
  unfold insertExpansion
  rw [Edit.outcome_bind_of_ok b (Edit.outcome_get b),
    Edit.outcome_bind_of_ok b (Edit.outcome_check_of_ok b .selection hgenerator)]
  dsimp only
  rw [Edit.outcome_bind_of_ok b (Edit.outcome_check_of_ok b .selection hfilters)]
  obtain ⟨-, hexpand⟩ | ⟨-, e, hexpand⟩ :=
    a.expand?_outcome { catalog := b.catalog } 0 (wrapped.map Text.trim) <;> rw [hexpand]
  · dsimp only
    rw [Edit.outcome_bind_of_ok b (Edit.outcome_record b _), hfault, Node.misplacedIn?_eq_none]
    dsimp only
    rw [Edit.outcome_bind_of_ok b (Edit.outcome_logged b _),
      Edit.outcome_bind_of_ok b (Edit.outcome_modify b _), Edit.outcome_pure]
  · rfl

/-- What is read with the grammar of a context can be inserted there as a template, unless something
is copied too often. -/
theorem outcome_insertExpansion {profile : Profile} {a : Abbreviation} {wrapping : Bool}
    (hdefault : ((Registry.ofProfile profile).defaultGenerator? b.context wrapping).isSome = true)
    (hsuffixes : ∀ suffix ∈ a.suffixes, suffix ∈ (Registry.ofProfile profile).suffixesFor b.context)
    (wrapped : Option Text) :
    (¬ a.Oversized ∧ ∃ t : Template, t.WellPlaced ∧
        (insertExpansion (.ofProfile profile) a wrapped wrapping).outcome b =
          (.ok t, b.start t)) ∨
      (a.Oversized ∧ ∃ e, (insertExpansion (.ofProfile profile) a wrapped wrapping).outcome b =
        (.error (.size e), b)) := by
  obtain ⟨generator, hgenerator, hmember, -⟩ := Registry.selectGenerator_ok a.suffixes hdefault
  obtain ⟨filters, hfilters, hmembers⟩ := Registry.selectFilters_ok (some generator.1) hsuffixes
  have hrefuse : ∀ f ∈ filters.map Prod.fst, f.failure? = none := by
    intro f hf
    obtain ⟨chosen, hchosen, rfl⟩ := List.mem_map.1 hf
    exact Registry.failure?_eq_none (hmembers chosen hchosen)
  -- The two selections succeed, nothing is refused, and nothing is misplaced.
  have hfault := Generator.fault?_eq_none (Registry.dialect_ne_textual hmember) hrefuse
  rw [outcome_insertExpansion_eq hgenerator hfilters (hfault _)]
  obtain ⟨hsize, hexpand⟩ | ⟨hsize, e, hexpand⟩ :=
    a.expand?_outcome { catalog := b.catalog } 0 (wrapped.map Text.trim) <;> rw [hexpand]
  · exact .inl ⟨hsize, _, Generator.wellPlaced_assemble generator.1 (filters.map Prod.fst) _, rfl⟩
  · exact .inr ⟨hsize, e, rfl⟩

/-! ## The three outcomes -/

/-- The buffer with `t` in place of the text between `before` and `after`, and the caret where it
goes in `t`. -/
def replaced (b : Buffer) (before after : Text) (t : Template) : Buffer :=
  { b with
    text := before ++ t.text ++ after
    caret := before.length + (t.place? Marker.endName).getD t.text.length
    started := b.started ++ [t] }

/-- A template that is started where a key was deleted stands in place of the key. -/
theorem start_eq_replaced {t : Template} (ht : t.WellPlaced) (before after : Text) :
    ({ b with text := before ++ after, caret := before.length } : Buffer).start t =
      replaced b before after t := by
  unfold Buffer.start Buffer.textWith replaced
  rw [Buffer.caretIn_eq ht]
  simp only [Text.upTo_natCast, Text.onFrom_natCast]
  rw [List.take_left, List.drop_left]

/-- Without a default generator, nothing is expanded. -/
theorem outcome_expand_of_none (h : registry.defaultGenerator? b.context false = none) :
    (expand (.fixed registry) key).outcome b = (.ok none, b) := by
  unfold expand
  rw [outcome_fixed, h]
  rfl

/-- A number that is not read for its size is a failure. -/
theorem outcome_expand_of_size {chosen : Generator × Nat} {e : SizeError}
    (h : registry.defaultGenerator? b.context false = some chosen)
    (hparse : (grammar registry chosen.1 b).parse key = .error (.size e)) :
    (expand (.fixed registry) key).outcome b = (.error (.read (.size e)), b) := by
  unfold expand
  rw [outcome_fixed, h]
  dsimp only
  rw [hparse]
  rfl

/-- What cannot be read for any other reason is not expanded. -/
theorem outcome_expand_of_error {chosen : Generator × Nat} {e : ReadError}
    (h : registry.defaultGenerator? b.context false = some chosen)
    (hparse : (grammar registry chosen.1 b).parse key = .error e) (hsize : ∀ e', e ≠ .size e') :
    (expand (.fixed registry) key).outcome b = (.ok none, b) := by
  unfold expand
  rw [outcome_fixed, h]
  dsimp only
  rw [hparse]
  cases e with
  | size e' => exact absurd rfl (hsize e')
  | lex | parse => rfl

/-- A key that begins another one is not expanded. -/
theorem outcome_expand_of_isAmbiguous {chosen : Generator × Nat} {a : Abbreviation}
    (h : registry.defaultGenerator? b.context false = some chosen)
    (hparse : (grammar registry chosen.1 b).parse key = .ok a)
    (hambiguous : isAmbiguous a key b.catalog = true) :
    (expand (.fixed registry) key).outcome b = (.ok none, b) := by
  unfold expand
  rw [outcome_fixed, h]
  dsimp only
  rw [hparse]
  dsimp only
  rw [if_pos hambiguous]
  rfl

/-- Any other key that has been read is deleted, and what it abbreviates is inserted; if that fails,
the buffer is restored. -/
theorem outcome_expand_of_parse {chosen : Generator × Nat} {a : Abbreviation}
    {before after : Text} (htext : b.text = before ++ key ++ after)
    (hcaret : b.caret = (before ++ key).length)
    (h : registry.defaultGenerator? b.context false = some chosen)
    (hparse : (grammar registry chosen.1 b).parse key = .ok a)
    (hambiguous : isAmbiguous a key b.catalog = false) :
    (expand (.fixed registry) key).outcome b =
      match (insertExpansion registry a none false).outcome
        { b with text := before ++ after, caret := before.length } with
      | (.ok t, inserted) => (.ok (some t), inserted)
      | (.error e, left) => (.error e, left.restore b) := by
  unfold expand
  rw [outcome_fixed, h]
  dsimp only
  rw [hparse]
  dsimp only
  rw [hambiguous, if_neg Bool.false_ne_true, Edit.outcome_group,
    Edit.outcome_bind_of_ok b (Edit.outcome_get b), Buffer.deleteKey_eq_ok htext hcaret]
  dsimp only
  rw [Edit.outcome_bind_of_ok b (Edit.outcome_set b _), Edit.outcome_bind]
  obtain ⟨result, left⟩ := (insertExpansion registry a none false).outcome
    { b with text := before ++ after, caret := before.length }
  cases result <;> rfl

/-- So it is replaced by a template, unless something is copied too often, and then it stays. -/
theorem outcome_expand_of_read {profile : Profile} {chosen : Generator × Nat} {a : Abbreviation}
    {before after : Text} (htext : b.text = before ++ key ++ after)
    (hcaret : b.caret = (before ++ key).length)
    (h : (Registry.ofProfile profile).defaultGenerator? b.context false = some chosen)
    (hparse : (grammar (.ofProfile profile) chosen.1 b).parse key = .ok a)
    (hambiguous : isAmbiguous a key b.catalog = false) :
    (¬ a.Oversized ∧ ∃ t, (expand (.fixed (.ofProfile profile)) key).outcome b =
        (.ok (some t), replaced b before after t)) ∨
      (a.Oversized ∧ ∃ e, (expand (.fixed (.ofProfile profile)) key).outcome b =
        (.error (.size e), b)) := by
  obtain ⟨ts, -, hts⟩ := Grammar.parse_eq_ok_iff.1 hparse
  have hsuffixes := Grammar.suffixes_allowed (Grammar.parseTokens_sound hts).1 rfl
  have hdefault :
      ((Registry.ofProfile profile).defaultGenerator? b.context false).isSome = true := by
    rw [h]
    rfl
  rw [outcome_expand_of_parse htext hcaret h hparse hambiguous]
  -- The insertion takes place in the buffer that is left after the key is deleted.
  obtain ⟨hsize, t, ht, hinsert⟩ | ⟨hsize, e, hinsert⟩ := outcome_insertExpansion
    (b := { b with text := before ++ after, caret := before.length }) hdefault hsuffixes none
  · rw [hinsert, start_eq_replaced ht]
    exact .inl ⟨hsize, t, rfl⟩
  · -- Only text and caret have changed, and nothing has been started.
    have hrestore :
        ({ b with text := before ++ after, caret := before.length } : Buffer).restore b = b := by
      rw [Buffer.restore, List.take_length]
    rw [hinsert]
    exact .inr ⟨hsize, e, congrArg _ hrestore⟩

/-- Whether a key goes beyond a limit depends on what is read from it. -/
theorem oversized_iff {chosen : Generator × Nat}
    (h : registry.defaultGenerator? b.context false = some chosen) :
    Oversized registry b key ↔
      (∃ e, (grammar registry chosen.1 b).parse key = .error (.size e)) ∨
        ∃ a, (grammar registry chosen.1 b).parse key = .ok a ∧ a.Oversized := by
  unfold Oversized
  rw [h]
  simp

/-- A key that goes beyond a limit has a number of copies that is too large. -/
theorem tooLarge_of_oversized (h : Oversized registry b key) :
    ∃ ts, Token.read key = .ok ts ∧ Grammar.TooLarge ts := by
  obtain ⟨chosen, -, ⟨e, hparse⟩ | ⟨a, hparse, hsize⟩⟩ := h
  · exact Grammar.tooLarge_of_size hparse
  · exact Grammar.tooLarge_of_oversized hparse hsize

/-- In a buffer without a default generator, no key is expanded. -/
theorem not_expands_of_none (h : registry.defaultGenerator? b.context false = none) :
    ¬ Expands registry b key := by
  rintro ⟨haccepts, -⟩
  rw [outcome_accepts_of_none h] at haccepts
  cases haccepts

/-- Elsewhere, a key is expanded if it can be read and what is read is not ambiguous. -/
theorem expands_iff_of_some {chosen : Generator × Nat}
    (h : registry.defaultGenerator? b.context false = some chosen) :
    Expands registry b key ↔
      ∃ a, (grammar registry chosen.1 b).parse key = .ok a ∧
        isAmbiguous a key b.catalog = false := by
  unfold Expands
  rw [outcome_accepts_of_some h, h]
  unfold Grammar.accepts
  cases hparse : (grammar registry chosen.1 b).parse key with
  | error e => cases e <;> simp [Except.mapError]
  | ok a =>
    have hambiguous : isAmbiguous a key b.catalog = true ↔ _ := isAmbiguous_iff hparse
    simp [← hambiguous, Except.mapError]

/-- A key that is not expanded is left alone, if it stays within the limits. -/
theorem outcome_expand_of_not_expands (hsize : ¬ Oversized registry b key)
    (h : ¬ Expands registry b key) : (expand (.fixed registry) key).outcome b = (.ok none, b) := by
  cases hdefault : registry.defaultGenerator? b.context false with
  | none => exact outcome_expand_of_none hdefault
  | some chosen =>
    rw [oversized_iff hdefault] at hsize
    rw [expands_iff_of_some hdefault] at h
    cases hparse : (grammar registry chosen.1 b).parse key with
    | error e =>
      refine outcome_expand_of_error hdefault hparse ?_
      rintro e' rfl
      exact hsize (.inl ⟨e', hparse⟩)
    | ok a =>
      have hambiguous : isAmbiguous a key b.catalog = true := by
        by_contra hnot
        exact h ⟨a, hparse, Bool.eq_false_iff.2 hnot⟩
      exact outcome_expand_of_isAmbiguous hdefault hparse hambiguous

section Replacing

variable {profile : Profile} {before after : Text}

/-- A key that is expanded is replaced by a template, if it stays within the limits. -/
theorem outcome_expand_of_expands (htext : b.text = before ++ key ++ after)
    (hcaret : b.caret = (before ++ key).length) (hsize : ¬ Oversized (.ofProfile profile) b key)
    (h : Expands (.ofProfile profile) b key) :
    ∃ t, (expand (.fixed (.ofProfile profile)) key).outcome b =
      (.ok (some t), replaced b before after t) := by
  cases hdefault : (Registry.ofProfile profile).defaultGenerator? b.context false with
  | none => exact absurd h (not_expands_of_none hdefault)
  | some chosen =>
    rw [oversized_iff hdefault] at hsize
    obtain ⟨a, hparse, hambiguous⟩ := (expands_iff_of_some hdefault).1 h
    obtain ⟨-, htemplate⟩ | ⟨hcopied, -⟩ :=
      outcome_expand_of_read htext hcaret hdefault hparse hambiguous
    · exact htemplate
    · exact absurd (.inr ⟨a, hparse, hcopied⟩) hsize

/-- A key that goes beyond a limit is left alone with a failure. -/
theorem outcome_expand_of_oversized (htext : b.text = before ++ key ++ after)
    (hcaret : b.caret = (before ++ key).length) (h : Oversized (.ofProfile profile) b key) :
    ∃ e : Failure, e.OfSize ∧
      (expand (.fixed (.ofProfile profile)) key).outcome b = (.error e, b) := by
  obtain ⟨chosen, hdefault, ⟨e, hparse⟩ | ⟨a, hparse, hcopied⟩⟩ := h
  · exact ⟨_, .numeral e, outcome_expand_of_size hdefault hparse⟩
  · have hambiguous : isAmbiguous a key b.catalog = false := by
      by_contra hnot
      exact not_oversized_of_isAmbiguous (Bool.not_eq_false _ ▸ hnot) hcopied
    obtain ⟨hfits, -⟩ | ⟨-, e, hfailure⟩ :=
      outcome_expand_of_read htext hcaret hdefault hparse hambiguous
    · exact absurd hcopied hfits
    · exact ⟨_, .copies e, hfailure⟩

end Replacing

/-- Expanding the key that ends at the caret either does nothing and gives no template, or puts a
template in place of the key, and the caret to the template's `END`, or to its end if it has none;
the template is then the last one started, and nothing else changes. The second is the case exactly
if the key is an abbreviation and does not begin another key of the catalog. But if the key goes
beyond a limit of size, there is a failure, and the buffer is as it was; some number of copies in
the key is then too large. -/
theorem outcome_expand (profile : Profile) {b : Buffer} {before key after : Text}
    (htext : b.text = before ++ key ++ after) (hcaret : b.caret = (before ++ key).length) :
    (¬ Oversized (.ofProfile profile) b key ∧ ¬ Expands (.ofProfile profile) b key ∧
        (expand (.fixed (.ofProfile profile)) key).outcome b = (.ok none, b)) ∨
      (¬ Oversized (.ofProfile profile) b key ∧ Expands (.ofProfile profile) b key ∧
        ∃ t, (expand (.fixed (.ofProfile profile)) key).outcome b =
          (.ok (some t), replaced b before after t)) ∨
      (Oversized (.ofProfile profile) b key ∧
        (∃ e : Failure, e.OfSize ∧
          (expand (.fixed (.ofProfile profile)) key).outcome b = (.error e, b)) ∧
        ∃ ts, Token.read key = .ok ts ∧ Grammar.TooLarge ts) := by
  by_cases hsize : Oversized (.ofProfile profile) b key
  · exact .inr (.inr ⟨hsize, outcome_expand_of_oversized htext hcaret hsize,
      tooLarge_of_oversized hsize⟩)
  by_cases hexpands : Expands (.ofProfile profile) b key
  · exact .inr (.inl ⟨hsize, hexpands,
      outcome_expand_of_expands htext hcaret hsize hexpands⟩)
  · exact .inl ⟨hsize, hexpands, outcome_expand_of_not_expands hsize hexpands⟩

/-- A buffer with the caret behind the key `p`, in the middle of a text. -/
def sampleBuffer : Buffer :=
  ⟨"x p y".toList, 3, none, some "html".toList, .empty, []⟩

/-- The key of the sample is expanded in its place. -/
theorem outcome_expand_sample :
    sampleBuffer.text = "x ".toList ++ "p".toList ++ " y".toList ∧
      sampleBuffer.caret = ("x ".toList ++ "p".toList).length ∧
      ∃ t, (expand (.fixed (.ofProfile {})) "p".toList).outcome sampleBuffer =
        (.ok (some t), replaced sampleBuffer "x ".toList " y".toList t) := by
  have htext : sampleBuffer.text = "x ".toList ++ "p".toList ++ " y".toList := rfl
  have hcaret : sampleBuffer.caret = ("x ".toList ++ "p".toList).length := rfl
  have hdefault : (Registry.ofProfile {}).defaultGenerator? sampleBuffer.context false =
      some (.ofDialect {} .html, 0) := rfl
  have hread : Token.read "p".toList = .ok [⟨.name "p".toList, 0⟩] := by decide +kernel
  have hparse : (grammar (.ofProfile {}) (.ofDialect {} .html) sampleBuffer).parse "p".toList =
      .ok (.element "p".toList [] none) := Grammar.parse_key hread (by decide)
  refine ⟨htext, hcaret, ?_⟩
  obtain ⟨-, hnot, -⟩ | ⟨-, -, htemplate⟩ | ⟨hover, -⟩ := outcome_expand {} htext hcaret
  · exact absurd ((expands_iff_of_some hdefault).2 ⟨_, hparse, rfl⟩) hnot
  · exact htemplate
  · rw [oversized_iff hdefault, hparse] at hover
    obtain ⟨e, ⟨⟩⟩ | ⟨a, ⟨⟩, count, ⟨⟩, -⟩ := hover

/-- A key that asks for `2 ^ 63` copies. -/
def sampleCount : Text :=
  "p*9223372036854775808".toList

/-- A buffer with nothing but that key in it. -/
def sampleCountBuffer : Buffer :=
  .atEnd sampleCount (some "html".toList) .empty

/-- The key is read as what it asks for. -/
theorem parse_sampleCount {g : Grammar} (hknown : g.knows "p".toList = true) :
    g.parse sampleCount = .ok (.repeated (.element "p".toList [] none) (.times (2 ^ 63))) := by
  have hread : Token.read sampleCount = .ok [⟨.name "p".toList, 0⟩, ⟨.operator .times, 1⟩,
      ⟨.number "9223372036854775808".toList, 2⟩] := by decide +kernel
  exact Grammar.parse_copies hread hknown (by decide) rfl

/-- The key is one that is expanded, and to expand it fails. -/
theorem expands_and_fails_sampleCount :
    Expands (.ofProfile {}) sampleCountBuffer sampleCount ∧
      ∃ e, (expand (.fixed (.ofProfile {})) sampleCount).outcome sampleCountBuffer =
        (.error (.size e), sampleCountBuffer) := by
  have htext : sampleCountBuffer.text = [] ++ sampleCount ++ [] := (List.append_nil _).symm
  have hdefault : (Registry.ofProfile {}).defaultGenerator? sampleCountBuffer.context false =
      some (.ofDialect {} .html, 0) := rfl
  have hparse :
      (grammar (.ofProfile {}) (.ofDialect {} .html) sampleCountBuffer).parse sampleCount = _ :=
    parse_sampleCount (by decide)
  refine ⟨(expands_iff_of_some hdefault).2 ⟨_, hparse, rfl⟩, ?_⟩
  obtain ⟨hnot, -⟩ | ⟨-, hfailure⟩ := outcome_expand_of_read htext rfl hdefault hparse rfl
  · exact absurd ⟨2 ^ 63, .inl rfl, by decide⟩ hnot
  · exact hfailure

/-- The key is accepted and begins no other key, but it is neither left without a result nor
replaced by a template: expanding it fails. -/
theorem outcome_expand_sampleCount :
    sampleCountBuffer.text = [] ++ sampleCount ++ [] ∧
      sampleCountBuffer.caret = ([] ++ sampleCount).length ∧
      Expands (.ofProfile {}) sampleCountBuffer sampleCount ∧
      (∃ e, (expand (.fixed (.ofProfile {})) sampleCount).outcome sampleCountBuffer =
        (.error (.size e), sampleCountBuffer)) ∧
      ¬ ∃ result after, (expand (.fixed (.ofProfile {})) sampleCount).outcome sampleCountBuffer =
        (.ok result, after) := by
  obtain ⟨hexpands, e, hfails⟩ := expands_and_fails_sampleCount
  refine ⟨(List.append_nil _).symm, rfl, hexpands, ⟨e, hfails⟩, ?_⟩
  rintro ⟨result, after, hok⟩
  exact nomatch hfails.symm.trans hok

end Editing

end Abbrev
