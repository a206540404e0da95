/-!
# Steps that may fail

The functions that read are chains of steps each of which gives a value or an error. A chain is
taken apart from its result: behind a value stand the values of all its steps, and behind an error
the one step that failed.
-/

namespace Abbrev

variable {ε α β : Type} {x : Except ε α} {f : α → Except ε β}

/-- What succeeds after a step that may fail: the step, and then what goes on from it. -/
theorem bind_eq_ok {b : β} : (x >>= f) = .ok b ↔ ∃ a, x = .ok a ∧ f a = .ok b := by
  cases x with
  | error e => simp [bind, Except.bind]
  | ok a => simp [bind, Except.bind]

/-- What fails after a step that may fail: the step, or what goes on from it. -/
theorem bind_eq_error {e : ε} :
    (x >>= f) = .error e ↔ x = .error e ∨ ∃ a, x = .ok a ∧ f a = .error e := by
  cases x with
  | error e' => simp [bind, Except.bind]
  | ok a => simp [bind, Except.bind]

/-- A step fails exactly if it has no value. -/
theorem exists_error_iff : (∃ e, x = .error e) ↔ ¬ ∃ a, x = .ok a := by
  cases x <;> simp

end Abbrev
