import Abbrev.Abbreviation.Trailing
import Abbrev.Catalog
import Abbrev.Fragment.Splice
import Abbrev.Text.Quoted

/-!
# Buffers

A buffer is what an editor shows of itself: a text with a caret and perhaps a selection, the context
of the document, the catalog of snippets, and the templates that were started. A host may put the
caret and the ends of the selection anywhere, also outside of the text and in either direction;
where the text is cut there, the rules of `Text.place` hold.
-/

namespace Abbrev

/-- A text that is being edited. -/
structure Buffer where
  text : Text
  caret : Int
  selection : Option (Int × Int)
  context : Option Text
  catalog : Catalog
  /-- The templates started so far, the first one first. -/
  started : List Template

/-- Why a buffer cannot be made or edited. -/
inductive BufferError where
  | caretOutside (caret : Int)
  | keyNotAtCaret (key : Text)
  /-- A part of a template has no place in the part that it goes into. -/
  | misplaced (e : Fragment.OffsetError)
  deriving DecidableEq, Repr

/-- The wording of an error. -/
def BufferError.message : BufferError → String
  | .caretOutside caret => s!"caret {caret} outside buffer"
  | .keyNotAtCaret key => s!"{(Text.quoted key).str} does not end at the caret"
  | .misplaced e => e.message

namespace Buffer

/-- A buffer with the caret at an offset of the text, or at its end if none is given. -/
def make (text : Text) (caret : Option Int) (selection : Option (Int × Int)) (context : Option Text)
    (catalog : Catalog) : Except BufferError Buffer :=
  let caret := caret.getD text.length
  if 0 ≤ caret ∧ caret ≤ text.length then .ok ⟨text, caret, selection, context, catalog, []⟩
  else .error (.caretOutside caret)

/-- A buffer with the caret at the end of the text. -/
def atEnd (text : Text) (context : Option Text) (catalog : Catalog) : Buffer :=
  ⟨text, text.length, none, context, catalog, []⟩

/-- A buffer with all of the text selected. -/
def allSelected (text : Text) (context : Option Text) (catalog : Catalog) : Buffer :=
  ⟨text, text.length, some (0, text.length), context, catalog, []⟩

/-- The abbreviation that ends at the caret. -/
def key (b : Buffer) : Text :=
  Abbreviation.trailing (Text.upTo b.caret b.text)

/-- The selected text. -/
def selectedText? (b : Buffer) : Option Text :=
  b.selection.map fun (start, stop) => Text.slice start stop b.text

/-- The text of the buffer with `t` at the caret. -/
def textWith (b : Buffer) (t : Text) : Text :=
  Text.upTo b.caret b.text ++ t ++ Text.onFrom b.caret b.text

/-- Types a text at the caret. -/
def type (b : Buffer) (t : Text) : Buffer :=
  { b with text := b.textWith t, caret := b.caret + t.length }

/-- Deletes the key that ends at the caret. -/
def deleteKey (b : Buffer) (key : Text) : Except BufferError Buffer :=
  let start := b.caret - key.length
  if 0 ≤ start ∧ Text.slice start b.caret b.text = key then
    .ok { b with text := Text.upTo start b.text ++ Text.onFrom b.caret b.text, caret := start }
  else .error (.keyNotAtCaret key)

/-- Deletes the selection, and says what was in it. -/
def deleteSelection (b : Buffer) : Text × Buffer :=
  match b.selection with
  | none => ([], b)
  | some (start, stop) =>
    (Text.slice start stop b.text,
      { b with
        text := Text.upTo start b.text ++ Text.onFrom stop b.text
        caret := start
        selection := none })

/-- Where the caret goes in a template: to `END`, or else where the template says, or else to its
end. -/
def caretIn (t : Template) : Nat :=
  (t.place? Marker.endName <|> t.endOffset.bind Int.toNat?).getD t.text.length

/-- Inserts a template at the caret and puts the caret where it goes in the template. -/
def start (b : Buffer) (t : Template) : Buffer :=
  { b with
    text := b.textWith t.text
    caret := b.caret + caretIn t
    started := b.started ++ [t] }

/-- The buffer as it was before a failed group of edits. The context and the catalog are no part of
what the group edits. -/
def restore (b before : Buffer) : Buffer :=
  { b with
    text := before.text
    caret := before.caret
    selection := before.selection
    started := b.started.take before.started.length }

end Buffer

end Abbrev
