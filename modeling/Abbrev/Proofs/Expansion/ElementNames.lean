import Abbrev.Proofs.Expansion.Leaves
import Abbrev.Proofs.Grammar.Exactness

/-!
# The names of expanded elements

A key is checked where it is read, with each dollar taken for a digit, and the names of the elements
come about later, copy by copy. What was checked still holds of them. A key that looks like a name
has no backslash, so all its dollars become digits, and it does not start with one of them
(`ElementName.isValid_replaceCounter`). A key that only the catalog knows has no dollar if no key of
the catalog has one, and then the element is named by the key itself.

The argument has three parts: the keys of an abbreviation that is read are known to the grammar
(`Grammar.keys_known`), an element with a known key is usable in each copy that is not numbered
negatively (`Expansion.usable_ofElement`), and what holds of the elements of an abbreviation in all
such copies holds everywhere in its expansion, because no operator numbers copies negatively
(`Abbreviation.everywhere_numbered_expansion`).
-/

namespace Abbrev

namespace ElementName

variable {key : Text}

/-- What is looked at in place of a character of a key: the digit that a dollar stands for. -/
def shown (c : Char) : Char :=
  if c = '$' then '1' else c

/-- A key can name an element if its first character may start a name and each of its characters
may stand in one, dollars taken for digits. -/
theorem isValid_cons_iff {first : Char} {rest : Text} :
    isValid (first :: rest) = true ↔
      isStart (shown first) = true ∧ ∀ c ∈ first :: rest, isPart (shown c) = true := by
  show (isStart (shown first) && ((first :: rest).map shown).all isPart) = true ↔ _
  rw [Bool.and_eq_true, List.all_eq_true, List.forall_mem_map]

/-- A character other than a dollar is looked at itself. -/
theorem shown_of_ne {c : Char} (h : c ≠ '$') : shown c = c :=
  if_neg h

/-- A digit may stand in a name. -/
theorem isPart_of_isDigit {c : Char} (h : c.isDigit = true) : isPart c = true := by
  simp [isPart, Text.isAlphanumeric, Text.isNumeral, h]

/-- No name starts with a digit. -/
theorem isStart_digit : isStart '1' = false := by
  decide

/-- No name has a backslash in it. -/
theorem isPart_backslash : isPart '\\' = false := by
  decide

/-- A key that can name an element starts with a character other than a dollar, which may start a
name. -/
theorem exists_cons_of_isValid (h : isValid key = true) :
    ∃ first rest, key = first :: rest ∧ first ≠ '$' ∧ isStart first = true := by
  cases key with
  | nil => exact absurd h (by decide)
  | cons first rest =>
    obtain ⟨hstart, -⟩ := isValid_cons_iff.1 h
    have hfirst : first ≠ '$' := by
      rintro rfl
      exact absurd (isStart_digit.symm.trans hstart) (by decide)
    rw [shown_of_ne hfirst] at hstart
    exact ⟨first, rest, rfl, hfirst, hstart⟩

/-- The characters of a key that can name an element may stand in names, apart from dollars. -/
theorem isPart_of_isValid (h : isValid key = true) {c : Char} (hc : c ∈ key) (hne : c ≠ '$') :
    isPart c = true := by
  obtain ⟨first, rest, rfl, -, -⟩ := exists_cons_of_isValid h
  have hpart := (isValid_cons_iff.1 h).2 c hc
  rwa [shown_of_ne hne] at hpart

/-- A key that can name an element has no backslash. -/
theorem backslash_not_mem_of_isValid (h : isValid key = true) : '\\' ∉ key := by
  intro hmem
  have hpart := isPart_of_isValid h hmem (by decide)
  exact absurd (isPart_backslash.symm.trans hpart) (by decide)

/-- A key that can name an element names it in each copy: its dollars become digits, and its first
character stays. -/
theorem isValid_replaceCounter {number : Int} (hnumber : 0 ≤ number) (h : isValid key = true) :
    '$' ∉ Text.replaceCounter number key ∧ isValid (Text.replaceCounter number key) = true := by
  have hbackslash := backslash_not_mem_of_isValid h
  have hdollar := Text.dollar_not_mem_replaceCounter hnumber hbackslash
  have hparts : ∀ c ∈ Text.replaceCounter number key, isPart (shown c) = true := by
    intro c hc
    have hne : c ≠ '$' := fun heq => hdollar (heq ▸ hc)
    rw [shown_of_ne hne]
    obtain hdigit | ⟨hmem, -⟩ := Text.mem_replaceCounterAfter hnumber hbackslash hc
    · exact isPart_of_isDigit hdigit
    · exact isPart_of_isValid h hmem hne
  obtain ⟨first, rest, rfl, hfirst, hstart⟩ := exists_cons_of_isValid h
  have hhead : first ≠ '\\' := fun heq => hbackslash (heq ▸ List.mem_cons_self)
  have hcopy : Text.replaceCounter number (first :: rest) =
      first :: Text.replaceCounterAfter number 0 rest := by
    rw [Text.replaceCounter, Text.replaceCounterAfter_cons_of_ne hfirst hhead]
    rfl
  rw [hcopy] at hdollar hparts ⊢
  refine ⟨hdollar, isValid_cons_iff.2 ⟨?_, hparts⟩⟩
  rwa [shown_of_ne hfirst]

end ElementName

/-! ## The keys of an abbreviation -/

namespace Abbreviation

/-- The keys of the elements of an abbreviation, in the order in which they are written. -/
def keys : Abbreviation → List Text
  | .element key _ _ => [key]
  | .text _ | .empty => []
  | .group inner | .repeated inner _ | .filtered inner _ => inner.keys
  | .child left right | .sibling left right | .climb left right => left.keys ++ right.keys

/-- Where something is repeated, it has the keys that it has elsewhere. -/
theorem keys_of_repeats {a b : Abbreviation} (h : Grammar.Repeats a b) : b.keys = a.keys := by
  cases h <;> rfl

end Abbreviation

namespace Grammar

variable {g : Grammar} {ts : List Token} {a : Abbreviation}

/-- An element is read only if its key is known. -/
theorem ElementForm.keys_known (h : ElementForm g ts a) : ∀ key ∈ a.keys, g.knows key = true := by
  cases h with
  | named hknown _ _ => exact List.forall_mem_singleton.2 hknown
  | unnamed hknown _ _ _ => exact List.forall_mem_singleton.2 hknown

/-- The keys of a phrase are known. -/
theorem Derives.keys_known {p : Phrase} (h : Derives g p ts a) :
    ∀ key ∈ a.keys, g.knows key = true := by
  induction h with
  | group _ ih => exact ih
  | text => exact List.forall_mem_nil _
  | element hform => exact hform.keys_known
  | once _ ih => exact ih
  | perLine _ hrepeats ih | times _ hrepeats _ ih =>
    rwa [Abbreviation.keys, Abbreviation.keys_of_repeats hrepeats]
  | leadingClimb _ ih => exact ih
  | single _ ih => exact ih
  | sibling _ _ iha ihb => exact List.forall_mem_append.2 ⟨iha, ihb⟩
  | child _ _ iha ihb => exact List.forall_mem_append.2 ⟨iha, ihb⟩
  | climb _ _ iha ihb => exact List.forall_mem_append.2 ⟨iha, ihb⟩

/-- The keys of a phrase with suffixes are known. -/
theorem SuffixedForm.keys_known (h : SuffixedForm g ts a) :
    ∀ key ∈ a.keys, g.knows key = true := by
  induction h with
  | bare hderives => exact hderives.keys_known
  | suffix _ _ ih => exact ih

/-- The keys of an abbreviation that is read are known. -/
theorem keys_known {source : Text} (h : g.parse source = .ok a) :
    ∀ key ∈ a.keys, g.knows key = true := by
  obtain ⟨ts, -, hread⟩ := parse_eq_ok_iff.1 h
  exact (parseTokens_sound hread).1.keys_known

end Grammar

/-! ## Nodes that can be rendered -/

/-- Whether a node can be rendered: it is literal text, or an element whose key has no counter left,
with the snippet that the catalog has for the key, and with a key that can name it if there is no
snippet. -/
def NodeKind.Usable (catalog : Catalog) : NodeKind → Prop
  | .element key _ snippet =>
    '$' ∉ key ∧ snippet = catalog.find? key ∧ (snippet = none → ElementName.isValid key = true)
  | .literal => True

/-- A node of a copy that is not numbered negatively, of a kind that satisfies `p`. -/
def Node.Numbered (p : NodeKind → Prop) (node : Node) : Prop :=
  0 ≤ node.index ∧ p node.kind

namespace Expansion

open Node (Numbered)

variable {p : NodeKind → Prop}

/-- An element with a known key is usable in each copy, if no key of the catalog has a dollar. -/
theorem usable_ofElement {g : Grammar} {key : Text} (hknown : g.knows key = true)
    (hcatalog : ∀ key ∈ g.catalog.entries.map Prod.fst, '$' ∉ key) {setting : ExpansionSetting}
    (hsetting : setting.catalog = g.catalog) (attributes : List Attribute) (text : Option Text)
    {index : Int} (hindex : 0 ≤ index) (wrapped : Option Text) :
    (ofElement setting key attributes text index wrapped).kind.Usable g.catalog := by
  rw [Grammar.knows, Bool.or_eq_true] at hknown
  have hcopy : '$' ∉ Text.replaceCounter (index + 1) key ∧
      (g.catalog.find? (Text.replaceCounter (index + 1) key) = none →
        ElementName.isValid (Text.replaceCounter (index + 1) key) = true) := by
    obtain hentry | hvalid := hknown
    · -- The key is the name in every copy, and the catalog has an entry for it.
      have hdollar : '$' ∉ key := hcatalog key (Catalog.isSome_find?_iff.1 hentry)
      rw [Text.replaceCounter_of_not_mem hdollar]
      refine ⟨hdollar, fun hnone => ?_⟩
      rw [hnone] at hentry
      exact absurd hentry (by decide)
    · have hnumber : 0 ≤ index + 1 := by omega
      obtain ⟨hdollar, hname⟩ := ElementName.isValid_replaceCounter hnumber hvalid
      exact ⟨hdollar, fun _ => hname⟩
  rw [← hsetting] at hcopy ⊢
  exact ⟨hcopy.1, rfl, hcopy.2⟩

/-- Nodes that are numbered may be filled with what grows such nodes for their numbers. -/
theorem everywhere_numbered_fillAll {grow : Int → Option Text → Expansion}
    (hgrow : ∀ index, 0 ≤ index → ∀ wrapped, (grow index wrapped).Everywhere (Numbered p))
    {forest : List Node} (hforest : Node.Everywhere (Numbered p) forest) (wrapped : Option Text) :
    (fillAll grow wrapped forest).Everywhere (Numbered p) := by
  induction forest using Node.forest_induction generalizing wrapped with
  | nil => exact everywhere_nothing
  | cons node rest ihChildren ihRest =>
    obtain ⟨hown, hinside, hbehind⟩ := Node.everywhere_cons.1 hforest
    rw [fillAll_cons]
    refine .append ?_ (ihRest hbehind wrapped)
    generalize (if rest.isEmpty then wrapped else none) = share
    have hfilled : Expansion.Everywhere (Numbered p) (if node.children = [] then
        grow node.index share else fillAll grow share node.children) := by
      split
      · exact hgrow node.index hown.1 share
      · exact ihChildren hinside share
    exact hfilled.inside hown

end Expansion

namespace Abbreviation

open Node (Numbered)
open Expansion

variable {setting : ExpansionSetting} {p : NodeKind → Prop}

/-- What holds of literal text, and of the elements of an abbreviation in each copy that is not
numbered negatively, holds of all nodes of its expansion, and none of these is numbered
negatively. -/
theorem everywhere_numbered_expansion (hliteral : p .literal) (a : Abbreviation)
    (helement : ∀ key ∈ a.keys, ∀ attributes text index, 0 ≤ index → ∀ wrapped,
      p (ofElement setting key attributes text index wrapped).kind)
    {index : Int} (hindex : 0 ≤ index) (wrapped : Option Text) :
    (a.expansion setting index wrapped).Everywhere (Numbered p) := by
  induction a generalizing index wrapped with
  | element key attributes text =>
    have hnode := helement key (List.mem_singleton.2 rfl) attributes text index hindex wrapped
    exact ⟨.cons ⟨hindex, hnode⟩ .nil .nil, List.forall_mem_nil _⟩
  | text value => exact ⟨.cons ⟨hindex, hliteral⟩ .nil .nil, List.forall_mem_nil _⟩
  | empty => exact everywhere_nothing
  | group inner ih => exact ⟨(ih helement hindex wrapped).flatten, List.forall_mem_nil _⟩
  | filtered inner suffix ih => exact ih helement hindex wrapped
  | sibling left right ihLeft ihRight =>
    obtain ⟨hleft, hright⟩ := List.forall_mem_append.1 helement
    exact (ihLeft hleft hindex none).append (ihRight hright hindex wrapped)
  | climb left right ihLeft ihRight =>
    obtain ⟨hleft, hright⟩ := List.forall_mem_append.1 helement
    rw [expansion_climb]
    exact (ihLeft hleft hindex none).append (ihRight hright hindex wrapped).raised
  | child left right ihLeft ihRight =>
    obtain ⟨hleft, hright⟩ := List.forall_mem_append.1 helement
    have houter := ihLeft hleft hindex none
    have hlifted : (⟨[], (left.expansion setting index none).lifted⟩ : Expansion).Everywhere
        (Numbered p) := ⟨.nil, houter.lifted⟩
    have hgrow (i : Int) (hi : 0 ≤ i) (wrapped : Option Text) := ihRight hright hi wrapped
    rw [expansion_child]
    exact hlifted.append (everywhere_numbered_fillAll hgrow houter.nodes wrapped)
  | repeated inner count ih =>
    -- The copies are numbered from zero.
    cases count with
    | perLine =>
      rw [expansion]
      split
      · exact ih helement (Int.le_refl 0) wrapped
      · refine everywhere_foldr_append (List.forall_mem_map.2 ?_)
        intro share _
        exact ih helement (Int.natCast_nonneg share.2) (some share.1)
    | times count =>
      rw [expansion]
      refine everywhere_foldr_append (List.forall_mem_map.2 ?_)
      intro share _
      exact ih helement (Int.natCast_nonneg share.2) share.1

/-- If no key of the catalog has a dollar, an abbreviation that is read with the catalog expands,
from any copy that is not numbered negatively and around any text, into nodes that can be rendered:
no element has a counter left in its key, each has the snippet that the catalog has for its key, and
a key that can name it if there is none. -/
theorem everywhere_usable_expand {g : Grammar} {source : Text} {a : Abbreviation}
    (hcatalog : ∀ key ∈ g.catalog.entries.map Prod.fst, '$' ∉ key)
    (hread : g.parse source = .ok a) {index : Int} (hindex : 0 ≤ index) (atEnd : Bool)
    (wrapped : Option Text) :
    Node.Everywhere (fun node => node.kind.Usable g.catalog)
      (a.expand { catalog := g.catalog, atEnd } index wrapped) := by
  have helement : ∀ key ∈ a.keys, ∀ attributes text index, 0 ≤ index → ∀ wrapped,
      (ofElement { catalog := g.catalog, atEnd } key attributes text index wrapped).kind.Usable
        g.catalog := by
    intro key hkey attributes text index hindex wrapped
    exact usable_ofElement (Grammar.keys_known hread key hkey) hcatalog rfl attributes text hindex
      wrapped
  have hexpansion :
      (a.expansion { catalog := g.catalog, atEnd } index wrapped).Everywhere
        (Numbered (NodeKind.Usable g.catalog)) :=
    everywhere_numbered_expansion trivial a helement hindex wrapped
  exact hexpansion.flatten.imp fun _ hnode => hnode.2

/-- A grammar whose catalog has a snippet for one of two copies. -/
def sampleCatalogGrammar : Grammar where
  catalog := ⟨[("li2".toList, "<li>$END$</li>".toList)]⟩

/-- What is read from `li$*2`. -/
def sampleCopies : Abbreviation :=
  .repeated (.element "li$".toList [] none) (.times 2)

/-- The copies of `li$` are an element without a snippet, which its key can name, and one with the
snippet of its key. -/
theorem everywhere_usable_expand_sampleCopies :
    (∀ key ∈ sampleCatalogGrammar.catalog.entries.map Prod.fst, '$' ∉ key) ∧
      sampleCatalogGrammar.parse "li$*2".toList = .ok sampleCopies ∧
      ((sampleCopies.expand { catalog := sampleCatalogGrammar.catalog } 0 none).map fun node =>
        node.kind) = [.element "li1".toList [] none,
          .element "li2".toList [] (some "<li>$END$</li>".toList)] ∧
      Node.Everywhere (fun node => node.kind.Usable sampleCatalogGrammar.catalog)
        (sampleCopies.expand { catalog := sampleCatalogGrammar.catalog } 0 none) := by
  have hcatalog : ∀ key ∈ sampleCatalogGrammar.catalog.entries.map Prod.fst, '$' ∉ key := by decide
  have htokens : Token.read "li$*2".toList = .ok [⟨.name "li$".toList, 0⟩, ⟨.operator .times, 3⟩,
      ⟨.number "2".toList, 4⟩] := by decide +kernel
  have hread : sampleCatalogGrammar.parse "li$*2".toList = .ok sampleCopies :=
    Grammar.parse_copies htokens (by decide) (by decide) rfl
  exact ⟨hcatalog, hread, by decide,
    everywhere_usable_expand hcatalog hread (Int.le_refl 0) true none⟩

end Abbreviation

end Abbrev
