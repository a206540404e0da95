import Abbrev.Editing

/-!
# Outcomes of edits

An edit threads a buffer, may fail, and leaves records. What it does apart from the records is its
outcome: a value or a failure, and the buffer after it. The lemmas of this module give the outcome
of each step, so that an edit can be run in a proof without looking at the monads it is made of.
-/

namespace Abbrev.Edit

variable {α β ε : Type} (b : Buffer)

/-- What an edit gives, and the buffer after it. -/
def outcome (edit : Edit α) (b : Buffer) : Except Failure α × Buffer :=
  (edit.apply b).value

/-- The outcome of an edit that is given by what it does. -/
theorem outcome_of (run : Buffer → Logged (Except Failure α × Buffer)) :
    (of run).outcome b = (run b).value := rfl

/-- Giving a value changes nothing. -/
@[simp] theorem outcome_pure (a : α) : (pure a : Edit α).outcome b = (.ok a, b) := rfl

/-- One edit after another: the second one starts where the first one has come to. -/
theorem outcome_bind (edit : Edit α) (next : α → Edit β) :
    (edit >>= next).outcome b =
      match edit.outcome b with
      | (.ok a, after) => (next a).outcome after
      | (.error e, after) => (.error e, after) := by
  unfold outcome apply
  rw [ExceptT.run_bind, StateT.run_bind, Logged.value_bind]
  obtain ⟨result, after⟩ := (edit.run.run b).value
  cases result <;> rfl

/-- After an edit that gives a value, the next one starts with that value. -/
theorem outcome_bind_of_ok {edit : Edit α} {a : α} {after : Buffer}
    (h : edit.outcome b = (.ok a, after)) (next : α → Edit β) :
    (edit >>= next).outcome b = (next a).outcome after := by
  rw [outcome_bind, h]

/-- The buffer can be looked at. -/
@[simp] theorem outcome_get : (get : Edit Buffer).outcome b = (.ok b, b) := rfl

/-- The buffer can be replaced. -/
@[simp] theorem outcome_set (after : Buffer) :
    (set after : Edit PUnit).outcome b = (.ok ⟨⟩, after) := rfl

/-- The buffer can be changed. -/
@[simp] theorem outcome_modify (change : Buffer → Buffer) :
    (modify change : Edit PUnit).outcome b = (.ok ⟨⟩, change b) := rfl

/-- A record changes nothing. -/
@[simp] theorem outcome_record (e : Event) : (record e).outcome b = (.ok (), b) := rfl

/-- A value with records is given as it is. -/
@[simp] theorem outcome_logged (x : Logged α) : (logged x).outcome b = (.ok x.value, b) := rfl

/-- A value is given or its error is a failure, and the buffer stays. -/
theorem outcome_check_eq (failure : ε → Failure) (x : ExceptT ε Logged α) :
    (check failure x).outcome b = ((ExceptT.run x).value.mapError failure, b) := by
  unfold check
  rw [outcome_of, Logged.value_bind]
  cases x.run.value <;> rfl

/-- A value that is there is given as it is. -/
theorem outcome_check_of_ok (failure : ε → Failure) {x : ExceptT ε Logged α} {a : α}
    (h : (ExceptT.run x).value = .ok a) : (check failure x).outcome b = (.ok a, b) := by
  rw [outcome_check_eq, h]
  rfl

/-- A value is given or not, but the buffer stays. -/
theorem outcome_check (failure : ε → Failure) (x : ExceptT ε Logged α) :
    ((check failure x).outcome b).2 = b := by
  rw [outcome_check_eq]

/-- A failure leaves the buffer as it is. -/
@[simp] theorem outcome_throw (e : Failure) : (throw e : Edit α).outcome b = (.error e, b) := rfl

/-- A group is what is in it, but if that fails, the buffer is restored. -/
theorem outcome_group (edits : Edit α) :
    (group edits).outcome b =
      match edits.outcome b with
      | (.ok a, after) => (.ok a, after)
      | (.error e, after) => (.error e, after.restore b) := by
  unfold group
  rw [outcome_of, Logged.value_bind]
  unfold outcome
  obtain ⟨result, after⟩ := (edits.apply b).value
  cases result <;> rfl

/-! ## What an edit that gives a value has done -/

variable {edit : Edit α} {next : α → Edit β} {a : α} {result : β} {after : Buffer}

/-- Where one edit after another gives a value, the first one has given a value as well, and the
second one has started with it. -/
theorem exists_of_outcome_bind (h : (edit >>= next).outcome b = (.ok result, after)) :
    ∃ a between, edit.outcome b = (.ok a, between) ∧
      (next a).outcome between = (.ok result, after) := by
  rw [outcome_bind] at h
  split at h
  · next a between hfirst => exact ⟨a, between, hfirst, h⟩
  · exact nomatch h

/-- A value that a check lets through was there, and the buffer is the same. -/
theorem of_outcome_check {failure : ε → Failure} {x : ExceptT ε Logged α}
    (h : (check failure x).outcome b = (.ok a, after)) :
    (ExceptT.run x).value = .ok a ∧ after = b := by
  unfold check at h
  rw [outcome_of, Logged.value_bind] at h
  split at h
  · next value hvalue =>
    obtain ⟨hresult, hafter⟩ := Prod.mk.inj h
    obtain rfl := Except.ok.inj hresult
    exact ⟨hvalue, hafter.symm⟩
  · exact nomatch h

/-- What is in a group that gives a value gives the same value. -/
theorem of_outcome_group (h : (group edit).outcome b = (.ok a, after)) :
    edit.outcome b = (.ok a, after) := by
  rw [outcome_group] at h
  split at h
  · next value other hedit => rwa [hedit]
  · exact nomatch h

end Abbrev.Edit
