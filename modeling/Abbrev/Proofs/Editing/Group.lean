import Abbrev.Proofs.Editing.Outcome
import Abbrev.Script

/-!
# Groups of edits are atomic

A group either does all that is in it, or nothing: after a failure the text, the caret, the
selection and the started templates are those from before the group, wherever in it the failure
came up, and however deep groups are nested.

Text, caret and selection are put back from before. The started templates are not: the list is cut
back to the length that it had. That gives the old list because no edit ever takes a template away
(`Edit.KeepsStarted`), not even one that fails or is rolled back itself. Each step of a host is
moreover atomic (`Edit.Guarded`): it fails before it has changed anything, or it is a group. Both
are shown operation by operation, then for expanding and wrapping, and then by recursion for all
scripts (`Step.guarded_run`).

How an edit ends, by a failure or with a buffer, is the same for a group and for what is in it. So
groups can be dissolved at any depth (`Step.ending_ungrouped`), and a script with groups does what
its steps do one after the other, until one of them fails.
-/

namespace Abbrev

namespace Buffer

/-- Two buffers agree in all that edits change. They may differ in the context and the catalog,
which belong to the host. -/
structure Agrees (b other : Buffer) : Prop where
  text : b.text = other.text
  caret : b.caret = other.caret
  selection : b.selection = other.selection
  started : b.started = other.started

/-- A buffer agrees with itself. -/
theorem agrees_refl (b : Buffer) : b.Agrees b :=
  ⟨rfl, rfl, rfl, rfl⟩

/-- If no started template was taken away, a restored buffer agrees with the earlier one. -/
theorem agrees_restore {b before : Buffer} (h : before.started <+: b.started) :
    (b.restore before).Agrees before :=
  ⟨rfl, rfl, rfl, (List.prefix_iff_eq_take.1 h).symm⟩

/-- A key that is deleted ended at the caret, so the caret goes back by its length. -/
theorem eq_of_deleteKey {b after : Buffer} {key : Text} (h : b.deleteKey key = .ok after) :
    0 ≤ b.caret - key.length ∧
      after = { b with
        text := Text.upTo (b.caret - key.length) b.text ++ Text.onFrom b.caret b.text
        caret := b.caret - key.length } := by
  unfold deleteKey at h
  dsimp only at h
  split at h
  · next hkey => exact ⟨hkey.1, (Except.ok.inj h).symm⟩
  · cases h

/-- Deleting a key leaves the started templates alone. -/
theorem started_deleteKey {b after : Buffer} {key : Text} (h : b.deleteKey key = .ok after) :
    after.started = b.started := by
  obtain ⟨-, rfl⟩ := eq_of_deleteKey h
  rfl

/-- Deleting the selection leaves the started templates alone. -/
theorem started_deleteSelection (b : Buffer) : b.deleteSelection.2.started = b.started := by
  unfold deleteSelection
  split <;> rfl

end Buffer

namespace Edit

variable {α β ε : Type} {edit : Edit α} {next : α → Edit β}

/-- An edit changes nothing in any buffer, whether it fails or not. -/
def ChangesNothing (edit : Edit α) : Prop :=
  ∀ b, (edit.outcome b).2 = b

/-- An edit takes no started template away, whether it fails or not. -/
def KeepsStarted (edit : Edit α) : Prop :=
  ∀ b, b.started <+: (edit.outcome b).2.started

/-- An edit that fails leaves all that edits change as it was. -/
def Atomic (edit : Edit α) : Prop :=
  ∀ b e after, edit.outcome b = (.error e, after) → after.Agrees b

/-- An edit does all or nothing, and does so inside of groups as well. -/
structure Guarded (edit : Edit α) : Prop where
  keepsStarted : edit.KeepsStarted
  atomic : edit.Atomic

/-! ## Edits that change nothing -/

/-- Giving a value changes nothing. -/
theorem changesNothing_pure (a : α) : (pure a : Edit α).ChangesNothing := fun _ => rfl

/-- Failing changes nothing. -/
theorem changesNothing_throw (e : Failure) : (throw e : Edit α).ChangesNothing := fun _ => rfl

/-- A look at the buffer changes nothing. -/
theorem changesNothing_get : (get : Edit Buffer).ChangesNothing := fun _ => rfl

/-- A record changes nothing. -/
theorem changesNothing_record (e : Event) : (record e).ChangesNothing := fun _ => rfl

/-- A value with records changes nothing. -/
theorem changesNothing_logged (x : Logged α) : (logged x).ChangesNothing := fun _ => rfl

/-- A value that may be missing changes nothing. -/
theorem changesNothing_check (failure : ε → Failure) (x : ExceptT ε Logged α) :
    (check failure x).ChangesNothing :=
  fun b => outcome_check b failure x

/-- Two edits that change nothing do so one after the other. -/
theorem ChangesNothing.bind (h : edit.ChangesNothing) (hnext : ∀ a, (next a).ChangesNothing) :
    (edit >>= next).ChangesNothing := by
  intro b
  have hfirst := h b
  rw [outcome_bind]
  generalize edit.outcome b = outcome at hfirst
  obtain ⟨e | a, after⟩ := outcome
  · exact hfirst
  · exact (hnext a after).trans hfirst

/-- An edit that changes nothing takes no started template away. -/
theorem ChangesNothing.keepsStarted (h : edit.ChangesNothing) : edit.KeepsStarted := by
  intro b
  have hsame : (edit.outcome b).2.started = b.started := congrArg Buffer.started (h b)
  exact hsame.symm ▸ List.prefix_refl b.started

/-! ## Edits that keep the started templates -/

/-- One edit after another takes no started template away if neither does. -/
theorem KeepsStarted.bind (h : edit.KeepsStarted) (hnext : ∀ a, (next a).KeepsStarted) :
    (edit >>= next).KeepsStarted := by
  intro b
  have hfirst := h b
  rw [outcome_bind]
  generalize edit.outcome b = outcome at hfirst
  obtain ⟨e | a, after⟩ := outcome
  · exact hfirst
  · exact hfirst.trans (hnext a after)

/-- An edit that begins with a look at the buffer may depend on the buffer that it starts in. -/
theorem keepsStarted_get_bind {next : Buffer → Edit β}
    (h : ∀ b, b.started <+: ((next b).outcome b).2.started) :
    ((get : Edit Buffer) >>= next).KeepsStarted := by
  intro b
  rw [outcome_bind_of_ok b (outcome_get b)]
  exact h b

/-! ## Edits that do all or nothing -/

/-- An edit that changes nothing does all or nothing. -/
theorem ChangesNothing.guarded (h : edit.ChangesNothing) : edit.Guarded := by
  refine ⟨h.keepsStarted, fun b e after hfails => ?_⟩
  have hsame := h b
  rw [hfails] at hsame
  rw [show after = b from hsame]
  exact b.agrees_refl

/-- A change that cannot fail does all or nothing, if it takes no started template away. -/
theorem guarded_modify {change : Buffer → Buffer} (a : α)
    (h : ∀ b, b.started <+: (change b).started) :
    (do modify change; return a : Edit α).Guarded :=
  ⟨h, fun _ _ _ hfails => nomatch hfails⟩

/-- An edit does all or nothing behind one that changes nothing. -/
theorem ChangesNothing.bind_guarded (h : edit.ChangesNothing) (hnext : ∀ a, (next a).Guarded) :
    (edit >>= next).Guarded := by
  refine ⟨h.keepsStarted.bind fun a => (hnext a).keepsStarted, fun b e after hfails => ?_⟩
  have hfirst := h b
  rw [outcome_bind] at hfails
  generalize edit.outcome b = outcome at hfirst hfails
  obtain ⟨e' | a, middle⟩ := outcome
  · obtain ⟨-, rfl⟩ := Prod.mk.inj hfails
    rw [show middle = b from hfirst]
    exact b.agrees_refl
  · rw [show middle = b from hfirst] at hfails
    exact (hnext a).atomic b e after hfails

/-- What an edit gives can be changed without any further edit. -/
theorem Guarded.bind_pure (h : edit.Guarded) (value : α → β) :
    (do return value (← edit) : Edit β).Guarded := by
  refine ⟨h.keepsStarted.bind fun a => (changesNothing_pure _).keepsStarted,
    fun b e after hfails => ?_⟩
  rw [outcome_bind] at hfails
  cases hedit : edit.outcome b with
  | mk result middle =>
    rw [hedit] at hfails
    cases result with
    | ok a => cases hfails
    | error e' =>
      obtain ⟨-, rfl⟩ := Prod.mk.inj hfails
      exact h.atomic b e' middle hedit

/-- A group does all or nothing if what is in it takes no started template away. What is started in
a group that fails is taken away again, and nothing else. -/
theorem KeepsStarted.guarded_group (h : edit.KeepsStarted) : (Edit.group edit).Guarded := by
  constructor
  case keepsStarted =>
    intro b
    have hedit := h b
    rw [outcome_group]
    generalize edit.outcome b = outcome at hedit
    obtain ⟨e | a, after⟩ := outcome
    · exact (Buffer.agrees_restore hedit).started ▸ List.prefix_refl b.started
    · exact hedit
  case atomic =>
    intro b e after hgroup
    have hedit := h b
    rw [outcome_group] at hgroup
    generalize edit.outcome b = outcome at hedit hgroup
    obtain ⟨e' | a, after'⟩ := outcome
    · obtain ⟨-, rfl⟩ := Prod.mk.inj hgroup
      exact Buffer.agrees_restore hedit
    · cases hgroup

/-! ## How edits end -/

/-- How an edit ends: by a failure, or with a buffer. -/
def ending (edit : Edit α) (b : Buffer) : Except Failure Buffer :=
  match edit.outcome b with
  | (.ok _, after) => .ok after
  | (.error e, _) => .error e

/-- An edit goes on where the one before has ended. -/
theorem ending_bind {rest : Buffer → Except Failure Buffer}
    (h : ∀ a after, (next a).ending after = rest after) (b : Buffer) :
    (edit >>= next).ending b = (edit.ending b).bind rest := by
  unfold ending at h ⊢
  rw [outcome_bind]
  obtain ⟨e | a, after⟩ := edit.outcome b
  · rfl
  · exact h a after

/-- What is made of the value of an edit does not matter for its end. -/
theorem ending_bind_pure (value : α → β) (b : Buffer) :
    (do return value (← edit) : Edit β).ending b = edit.ending b := by
  rw [ending_bind (fun _ after => rfl : ∀ a after, _ = Except.ok after)]
  cases edit.ending b <;> rfl

/-- A group ends as what is in it. -/
theorem ending_group (b : Buffer) : (Edit.group edit).ending b = edit.ending b := by
  unfold ending
  rw [outcome_group]
  obtain ⟨e | a, after⟩ := edit.outcome b <;> rfl

end Edit

/-! ## Expanding and wrapping -/

namespace Editing

open Edit

/-- Finding the registry changes nothing. -/
theorem changesNothing_registry (setup : Setup) : setup.registry.ChangesNothing := by
  cases setup with
  | fixed registry => exact changesNothing_pure registry
  | environment env => exact changesNothing_check .profile _

/-- Inserting what an abbreviation expands into takes no started template away. -/
theorem keepsStarted_insertExpansion (registry : Registry) (a : Abbreviation)
    (wrapped : Option Text) (wrapping : Bool) :
    (insertExpansion registry a wrapped wrapping).KeepsStarted := by
  have hstart (t : Template) : (do modify (·.start t); return t : Edit Template).KeepsStarted :=
    fun b => List.prefix_append b.started [t]
  refine changesNothing_get.keepsStarted.bind fun b => ?_
  refine (changesNothing_check _ _).keepsStarted.bind ?_
  rintro ⟨generator, -⟩
  refine (changesNothing_check _ _).keepsStarted.bind fun filters => ?_
  dsimp only
  split
  · exact (changesNothing_throw _).keepsStarted
  refine (changesNothing_record _).keepsStarted.bind fun _ => ?_
  split
  · exact (changesNothing_throw _).keepsStarted
  · exact (changesNothing_throw _).keepsStarted
  · exact (changesNothing_logged _).keepsStarted.bind hstart

/-- Replacing a key by what it abbreviates takes no started template away. -/
theorem keepsStarted_replaceKey (registry : Registry) (a : Abbreviation) (key : Text) :
    (do match (← get).deleteKey key with
        | .error e => throw (.buffer e)
        | .ok shortened =>
          set shortened
          return some (← insertExpansion registry a none false) :
      Edit (Option Template)).KeepsStarted := by
  refine keepsStarted_get_bind fun b => ?_
  cases hdelete : b.deleteKey key with
  | error e => exact List.prefix_refl b.started
  | ok shortened =>
    dsimp only
    rw [outcome_bind_of_ok b (outcome_set b shortened), ← Buffer.started_deleteKey hdelete]
    exact (keepsStarted_insertExpansion registry a none false).bind
      (fun t => (changesNothing_pure (some t)).keepsStarted) shortened

/-- Replacing the selection by what is around it takes no started template away. -/
theorem keepsStarted_replaceSelection (registry : Registry) (a : Abbreviation) (selection : Text) :
    (do modify fun b => b.deleteSelection.2
        insertExpansion registry a (some selection) true : Edit Template).KeepsStarted := by
  have hdelete : (modify fun b => b.deleteSelection.2 : Edit PUnit).KeepsStarted := fun b =>
    (b.started_deleteSelection).symm ▸ List.prefix_refl b.started
  exact hdelete.bind fun _ => keepsStarted_insertExpansion registry a (some selection) true

/-- Expanding does all or nothing. -/
theorem guarded_expand (setup : Setup) (key : Text) : (expand setup key).Guarded := by
  refine (changesNothing_registry setup).bind_guarded fun registry => ?_
  refine changesNothing_get.bind_guarded fun b => ?_
  cases registry.defaultGenerator? b.context false with
  | none => exact ((changesNothing_record _).bind fun _ => changesNothing_pure none).guarded
  | some chosen =>
    dsimp only
    split
    · exact (changesNothing_throw _).guarded
    · exact ((changesNothing_record _).bind fun _ => changesNothing_pure none).guarded
    · next a _ =>
      split
      · exact ((changesNothing_record _).bind fun _ => changesNothing_pure none).guarded
      · exact (keepsStarted_replaceKey registry a key).guarded_group

/-- Wrapping does all or nothing. -/
theorem guarded_wrap (setup : Setup) (selection abbreviation : Text) :
    (wrap setup selection abbreviation).Guarded := by
  refine (changesNothing_registry setup).bind_guarded fun registry => ?_
  refine changesNothing_get.bind_guarded fun b => ?_
  cases registry.defaultGenerator? b.context true with
  | none => exact ((changesNothing_record _).bind fun _ => changesNothing_throw _).guarded
  | some chosen =>
    refine KeepsStarted.guarded_group ?_
    cases (grammar registry chosen.1 b).parse abbreviation with
    | error e => exact (changesNothing_throw _).keepsStarted
    | ok a => exact keepsStarted_replaceSelection registry a selection

end Editing

/-! ## Scripts -/

namespace Step

open Edit

/-- Deleting a key does all or nothing: a key that is not before the caret changes nothing. -/
theorem guarded_deleteKey (setup : Setup) (key : Text) : ((deleteKey key).run setup).Guarded := by
  constructor
  case keepsStarted =>
    refine keepsStarted_get_bind fun b => ?_
    cases hdelete : b.deleteKey key with
    | error e => exact List.prefix_refl b.started
    | ok shortened => exact (Buffer.started_deleteKey hdelete) ▸ List.prefix_refl _
  case atomic =>
    intro b e after hfails
    unfold run at hfails
    rw [outcome_bind_of_ok b (outcome_get b)] at hfails
    cases hdelete : b.deleteKey key with
    | error e' =>
      rw [hdelete] at hfails
      rw [← (Prod.mk.inj hfails).2]
      exact b.agrees_refl
    | ok shortened =>
      rw [hdelete] at hfails
      cases hfails

/-- Whether there is a default changes nothing. -/
theorem changesNothing_accepts (setup : Setup) (key : Text) (wrapping : Bool) :
    (Editing.accepts setup key wrapping).ChangesNothing := by
  refine (Editing.changesNothing_registry setup).bind fun registry => ?_
  refine changesNothing_get.bind fun b => ?_
  split
  · exact changesNothing_pure false
  · split
    · exact changesNothing_pure _
    · exact changesNothing_throw _

mutual

/-- Each step does all or nothing. -/
theorem guarded_run (setup : Setup) : (step : Step) → (step.run setup).Guarded
  | currentKey => (changesNothing_get.bind fun _ => changesNothing_pure _).guarded
  | expand key => changesNothing_get.bind_guarded fun _ =>
      (Editing.guarded_expand setup _).bind_pure Answer.ofTemplate?
  | wrap abbreviation selection => changesNothing_get.bind_guarded fun _ =>
      (Editing.guarded_wrap setup _ abbreviation).bind_pure Answer.template
  | accepts key wrapping =>
      (changesNothing_accepts setup key wrapping).guarded.bind_pure Answer.flag
  | applicable wrapping =>
      ((Editing.changesNothing_registry setup).bind fun _ =>
        changesNothing_get.bind fun _ => changesNothing_pure _).guarded.bind_pure Answer.flag
  | setCaret _ => guarded_modify _ fun b => List.prefix_refl b.started
  | setSelection _ => guarded_modify _ fun b => List.prefix_refl b.started
  | setContext _ => guarded_modify _ fun b => List.prefix_refl b.started
  | define _ _ => guarded_modify _ fun b => List.prefix_refl b.started
  | type _ => guarded_modify _ fun b => List.prefix_refl b.started
  | selected => (changesNothing_get.bind fun _ => changesNothing_pure _).guarded
  | find _ => (changesNothing_get.bind fun _ => changesNothing_pure _).guarded
  | keysFrom _ => (changesNothing_get.bind fun _ => changesNothing_pure _).guarded
  | deleteKey key => guarded_deleteKey setup key
  | deleteSelection =>
      ⟨fun b => b.started_deleteSelection.symm ▸ List.prefix_refl b.started,
        fun _ _ _ hfails => nomatch hfails⟩
  | start t => guarded_modify _ fun b => List.prefix_append b.started [t]
  | under own step => guarded_run own step
  | group steps failure => by
      refine KeepsStarted.guarded_group ?_
      refine (keepsStarted_runAll setup steps).bind fun answers => ?_
      cases failure with
      | none => exact (changesNothing_pure _).keepsStarted
      | some message => exact (changesNothing_throw _).keepsStarted

/-- Steps take no started template away. They are no group, so they may stop half-way. -/
theorem keepsStarted_runAll (setup : Setup) : (steps : List Step) →
    (runAll setup steps).KeepsStarted
  | [] => (changesNothing_pure _).keepsStarted
  | step :: more =>
    (guarded_run setup step).keepsStarted.bind fun _ =>
      (keepsStarted_runAll setup more).bind fun _ => (changesNothing_pure _).keepsStarted

end

/-- The step that fails because a group is called off. -/
def callOff (message : Text) : Step :=
  group [] (some message)

mutual

/-- The steps inside a step, with no group around them. A group that is called off ends with a step
that does just that. -/
def ungrouped : Step → List Step
  | group steps failure => ungroupedAll steps ++ (failure.map callOff).toList
  | under own step => step.ungrouped.map (under own)
  | step => [step]

/-- The steps inside a row of steps. -/
def ungroupedAll : List Step → List Step
  | [] => []
  | step :: more => step.ungrouped ++ ungroupedAll more

end

/-- Steps go on where the first of them has ended. -/
theorem ending_runAll_cons (setup : Setup) (step : Step) (more : List Step) (b : Buffer) :
    (runAll setup (step :: more)).ending b =
      ((step.run setup).ending b).bind (runAll setup more).ending :=
  ending_bind (fun _ after => ending_bind_pure _ after) b

/-- Steps go on where the steps before have ended. -/
theorem ending_runAll_append (setup : Setup) (steps more : List Step) (b : Buffer) :
    (runAll setup (steps ++ more)).ending b =
      ((runAll setup steps).ending b).bind (runAll setup more).ending := by
  induction steps generalizing b with
  | nil => rfl
  | cons step steps ih =>
    rw [List.cons_append, ending_runAll_cons, ending_runAll_cons]
    cases (step.run setup).ending b with
    | error e => rfl
    | ok after => exact ih after

/-- One step ends as it does alone. -/
theorem ending_runAll_single (setup : Setup) (step : Step) (b : Buffer) :
    (runAll setup [step]).ending b = (step.run setup).ending b := by
  rw [ending_runAll_cons]
  cases (step.run setup).ending b <;> rfl

/-- Steps under a setup of their own are run as if it were the setup of all. -/
theorem runAll_map_under (setup own : Setup) (steps : List Step) :
    runAll setup (steps.map (under own)) = runAll own steps := by
  induction steps with
  | nil => rfl
  | cons step more ih =>
    rw [List.map_cons, runAll, runAll, ih]
    rfl

mutual

/-- A step ends as the steps in it do without any group. -/
theorem ending_ungrouped (setup : Setup) (b : Buffer) : (step : Step) →
    (runAll setup step.ungrouped).ending b = (step.run setup).ending b
  | group steps failure => by
    unfold ungrouped run
    rw [ending_runAll_append, ending_ungroupedAll setup b steps, ending_group]
    cases failure with
    | none =>
      rw [ending_bind_pure]
      cases (runAll setup steps).ending b <;> rfl
    | some message =>
      rw [ending_bind (fun _ after => rfl : ∀ answers after, _ = Except.error _)]
      cases (runAll setup steps).ending b <;> rfl
  | under own step => by
    unfold ungrouped
    rw [runAll_map_under, ending_ungrouped own b step]
    rfl
  | currentKey | expand _ | wrap _ _ | accepts _ _ | applicable _ | setCaret _ | setSelection _
  | setContext _ | define _ _ | type _ | selected | find _ | keysFrom _ | deleteKey _
  | deleteSelection | start _ => ending_runAll_single setup _ b

/-- Steps end as they do without any group. -/
theorem ending_ungroupedAll (setup : Setup) (b : Buffer) : (steps : List Step) →
    (runAll setup (ungroupedAll steps)).ending b = (runAll setup steps).ending b
  | [] => rfl
  | step :: more => by
    rw [ungroupedAll, ending_runAll_append, ending_runAll_cons, ending_ungrouped setup b step]
    cases (step.run setup).ending b with
    | error e => rfl
    | ok after => exact ending_ungroupedAll setup after more

end

/-- Groups do all or nothing, at any depth. If one of the steps in a group fails, wherever it stands
and of whatever it fails, the group fails of the same and leaves text, caret, selection and started
templates as they were. If none does, the group does what its steps do without any group. Expanding
and wrapping do all or nothing as well. -/
theorem group_allOrNothing (setup : Setup) (steps : List Step) (failure : Option Text)
    (b : Buffer) :
    (match (runAll setup (group steps failure).ungrouped).ending b with
      | .error e => ∃ after,
          ((group steps failure).run setup).outcome b = (.error e, after) ∧ after.Agrees b
      | .ok after => ∃ answer, ((group steps failure).run setup).outcome b = (.ok answer, after)) ∧
    (∀ key, (Editing.expand setup key).Atomic) ∧
    ∀ selection abbreviation, (Editing.wrap setup selection abbreviation).Atomic := by
  refine ⟨?_, fun key => (Editing.guarded_expand setup key).atomic,
    fun selection abbreviation => (Editing.guarded_wrap setup selection abbreviation).atomic⟩
  have hatomic := (guarded_run setup (group steps failure)).atomic b
  rw [ending_ungrouped, ending]
  generalize ((group steps failure).run setup).outcome b = outcome at hatomic
  obtain ⟨e | answer, after⟩ := outcome
  · exact ⟨after, rfl, hatomic e after rfl⟩
  · exact ⟨answer, rfl⟩

/-- The steps inside groups are found at any depth, and a key that is not there brings all back. -/
example :
    let steps := [type ['x'], group [start ⟨.plain ['y'], none⟩, deleteKey ['z']] none]
    let b := Buffer.atEnd ['a'] none .empty
    (group steps none).ungrouped = [type ['x'], start ⟨.plain ['y'], none⟩, deleteKey ['z']] ∧
      (((group steps none).run (.fixed ⟨[], []⟩)).outcome b).2 = b :=
  ⟨rfl, rfl⟩

end Step

end Abbrev
