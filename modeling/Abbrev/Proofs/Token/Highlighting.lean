import Abbrev.Highlight
import Abbrev.Proofs.Token.Segmentation

/-!
# Highlighting leaves a line as it is

A line is shown as a row of runs: the tokens in their styles, and between them what no token covers.
The runs are put together from the columns of the tokens and from their characters, so they are the
line only because each token stands at its column and none begins before the one in front of it has
ended. That is what a segmentation of the line is (`Token.Segmentation`). It is carried from one
token to the next: behind a token, the tokens that are left are a segmentation of what is left of
the line. So no token is passed over, and the runs spell the line (`flatMap_text_line`), with any
separators in it, however its brackets are paired, and if it cannot be read as well.
-/

namespace Abbrev.Highlight

open Token (Segmentation)

variable {line : Text} {start : Nat} {previous : Option Lexeme} {depth : Nat} {t : Token}
  {ts : List Token}

/-- The characters of a gap are those that it was made of. -/
@[simp] theorem flatMap_text_gap (t : Text) : (gap t).flatMap Run.text = t := by
  unfold gap
  split
  · next h => rw [h]; rfl
  · exact List.append_nil t

/-- The first token of a segmentation is not passed over: it is shown behind what stands before
it. -/
theorem runsFrom_cons (h : Segmentation line start (t :: ts)) :
    runsFrom line start previous depth (t :: ts) =
      gap ((line.take t.column).drop start) ++
        ⟨styleOf previous (depthAfter depth t.lexeme) t.lexeme, t.source⟩ ::
          runsFrom line t.stop (some t.lexeme) (depthAfter depth t.lexeme) ts := by
  have hbehind : ¬ t.column < start := Nat.not_lt.2 (h.behind t List.mem_cons_self)
  have hne : t.source ≠ [] := (h.placed t List.mem_cons_self).1
  rw [runsFrom]
  exact if_neg (not_or.2 ⟨hbehind, hne⟩)

/-- What stands before a token, and the line from the token on. -/
theorem append_drop_column (h : start ≤ t.column) :
    (line.take t.column).drop start ++ line.drop t.column = line.drop start := by
  calc (line.take t.column).drop start ++ line.drop t.column
      = (line.drop start).take (t.column - start) ++
          (line.drop start).drop (t.column - start) := by
        rw [List.drop_take, List.drop_drop, Nat.add_sub_cancel' h]
    _ = line.drop start := List.take_append_drop _ _

/-- The runs for a segmentation of the rest of a line are that rest. -/
theorem flatMap_text_runsFrom (h : Segmentation line start ts) :
    (runsFrom line start previous depth ts).flatMap Run.text = line.drop start := by
  induction ts generalizing start previous depth with
  | nil => exact flatMap_text_gap _
  | cons t ts ih =>
    have hrest : (runsFrom line t.stop (some t.lexeme) (depthAfter depth t.lexeme) ts).flatMap
        Run.text = line.drop t.stop := ih h.of_token
    have htoken : line.drop t.column = t.source ++ line.drop t.stop :=
      Token.slice_eq_iff.1 (h.placed t List.mem_cons_self).2
    rw [runsFrom_cons h, List.flatMap_append, flatMap_text_gap, List.flatMap_cons, hrest,
      ← htoken]
    exact append_drop_column (h.behind t List.mem_cons_self)

/-- Every token of a segmentation is shown, in its order. -/
theorem sources_sublist_runsFrom (h : Segmentation line start ts) :
    (ts.map Token.source).Sublist ((runsFrom line start previous depth ts).map Run.text) := by
  induction ts generalizing start previous depth with
  | nil => exact List.nil_sublist _
  | cons t ts ih =>
    rw [runsFrom_cons h, List.map_append, List.map_cons, List.map_cons]
    exact (List.Sublist.cons_cons _ (ih h.of_token)).trans (List.sublist_append_right _ _)

/-- Every token of a line that can be read is shown, in its order. -/
theorem sources_sublist_line (h : Token.read line = .ok ts) :
    (ts.map Token.source).Sublist ((Highlight.line line).map Run.text) := by
  by_cases hempty : line = []
  · subst hempty
    rw [Token.read, Token.readFrom] at h
    obtain rfl := Except.ok.inj h
    exact List.nil_sublist _
  · rw [Highlight.line, if_neg hempty, h]
    exact sources_sublist_runsFrom (Token.segmentation_read h)

/-- The runs of a line are the line, whatever it is: the characters of the runs, one run after the
other, are the characters of the line. -/
theorem flatMap_text_line (t : Text) : (Highlight.line t).flatMap Run.text = t := by
  unfold Highlight.line
  split
  · next hempty => rw [hempty]; rfl
  · split
    · exact List.append_nil t
    · next tokens hread => exact flatMap_text_runsFrom (Token.segmentation_read hread)

end Abbrev.Highlight
