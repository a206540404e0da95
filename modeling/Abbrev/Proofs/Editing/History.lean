import Abbrev.Proofs.Editing.Expand
import Abbrev.Proofs.Editing.Group

/-!
# What holds throughout a run

A host runs steps one after the other and goes on behind a failure; inside of a group, the first
failure is the end. The history of a run (`Step.history`) has a moment for each step that is run, at
any depth of groups, with the buffer that the step finds.

A property of buffers is an invariant of editing (`Buffer.Invariant`) if it depends only on what
edits change, and if typing, deleting a key and starting a template keep it. Deleting the selection
is not in that list: whether it keeps a property can depend on the buffer. So an invariant lasts
through a run up to the first deletion that ends it, and to the end if there is none
(`Step.lasts_history`). This is shown for each operation, then by recursion for a step with the
steps in it, and then for the run.
-/

namespace Abbrev

/-- The markers of a template are in its text, and so is its own place for the caret. -/
structure Template.InBounds (t : Template) : Prop where
  inRange : t.toFragment.InRange
  endOffset_le : ∀ offset ∈ t.endOffset, offset ≤ t.text.length

namespace Buffer

variable {b after : Buffer} {t : Template}

/-- The caret goes to a place in a template that is in bounds. -/
theorem caretIn_le_of_inBounds (h : t.InBounds) : caretIn t ≤ t.text.length := by
  unfold caretIn
  cases hplace : t.place? Marker.endName with
  | some n => exact h.inRange.place?_le hplace
  | none =>
    cases hoffset : t.endOffset.bind Int.toNat? with
    | none => exact Nat.le_refl _
    | some n =>
      obtain ⟨offset, hmem, hn⟩ := Option.bind_eq_some_iff.1 hoffset
      have hle : offset ≤ t.text.length := h.endOffset_le offset hmem
      have heq : offset = n := Int.mem_toNat?.1 hn
      exact Int.ofNat_le.1 (heq ▸ hle)

/-- The caret goes to a place in a template that is well placed. -/
theorem caretIn_le_of_wellPlaced (h : t.WellPlaced) : caretIn t ≤ t.text.length := by
  rw [caretIn_eq h]
  cases hplace : t.place? Marker.endName with
  | some n => exact h.inRange.place?_le hplace
  | none => exact Nat.le_refl _

/-- A property of buffers that editing keeps, apart from deletions of the selection. -/
structure Invariant (P : Buffer → Prop) : Prop where
  of_agrees : ∀ {b after}, after.Agrees b → P b → P after
  type : ∀ {b} text, P b → P (b.type text)
  deleteKey : ∀ {b key after}, b.deleteKey key = .ok after → P b → P after
  start : ∀ {b t}, caretIn t ≤ t.text.length → P b → P (b.start t)

end Buffer

namespace Edit

open Buffer (Invariant)

variable {α β : Type} {P : Buffer → Prop} {edit : Edit α} {next : α → Edit β}

/-- An edit keeps a property of buffers, whether it fails or not. -/
def Keeps (P : Buffer → Prop) (edit : Edit α) : Prop :=
  ∀ b, P b → P (edit.outcome b).2

/-- An edit that changes nothing keeps everything. -/
theorem ChangesNothing.keeps (h : edit.ChangesNothing) : edit.Keeps P :=
  fun b hb => (h b).symm ▸ hb

/-- One edit after another keeps what both keep. -/
theorem Keeps.bind (h : edit.Keeps P) (hnext : ∀ a, (next a).Keeps P) :
    (edit >>= next).Keeps P := by
  intro b hb
  have hfirst := h b hb
  rw [outcome_bind]
  generalize edit.outcome b = outcome at hfirst
  obtain ⟨e | a, after⟩ := outcome
  · exact hfirst
  · exact hnext a after hfirst

/-- An edit that begins with a look at the buffer may depend on the buffer that it starts in. -/
theorem keeps_get_bind {next : Buffer → Edit β} (h : ∀ b, P b → P ((next b).outcome b).2) :
    ((get : Edit Buffer) >>= next).Keeps P :=
  fun b hb => h b hb

/-- Behind the last edit that changes something, a property of the buffer stays. -/
theorem outcome_bind_keeps (h : ∀ a, (next a).ChangesNothing) {b : Buffer}
    (hedit : P (edit.outcome b).2) : P ((edit >>= next).outcome b).2 := by
  rw [outcome_bind]
  generalize edit.outcome b = outcome at hedit
  obtain ⟨e | a, after⟩ := outcome
  · exact hedit
  · exact (h a).keeps after hedit

/-- An edit behind one that changes nothing starts from the same buffer. -/
theorem ChangesNothing.outcome_bind_keeps (h : edit.ChangesNothing) {b : Buffer} (hb : P b)
    (hnext : ∀ a, P ((next a).outcome b).2) : P ((edit >>= next).outcome b).2 := by
  have hsame := h b
  rw [outcome_bind]
  generalize edit.outcome b = outcome at hsame
  obtain ⟨e | a, after⟩ := outcome
  · exact (show after = b from hsame) ▸ hb
  · exact (show after = b from hsame) ▸ hnext a

/-- A group keeps an invariant from a buffer if what is in it does. -/
theorem KeepsStarted.outcome_group_keeps (h : edit.KeepsStarted) (hP : Invariant P) {b : Buffer}
    (hb : P b) (hedit : P (edit.outcome b).2) : P ((group edit).outcome b).2 := by
  have hstarted := h b
  rw [outcome_group]
  generalize edit.outcome b = outcome at hstarted hedit
  obtain ⟨e | a, after⟩ := outcome
  · exact hP.of_agrees (Buffer.agrees_restore hstarted) hb
  · exact hedit

end Edit

/-! ## Expanding and wrapping -/

namespace Editing

open Edit

variable {P : Buffer → Prop} (hP : Buffer.Invariant P)
include hP

/-- Inserting what an abbreviation expands into keeps an invariant. -/
theorem keeps_insertExpansion (registry : Registry) (a : Abbreviation) (wrapped : Option Text)
    (wrapping : Bool) : (insertExpansion registry a wrapped wrapping).Keeps P := by
  refine changesNothing_get.keeps.bind fun b => ?_
  refine (changesNothing_check _ _).keeps.bind ?_
  rintro ⟨generator, -⟩
  refine (changesNothing_check _ _).keeps.bind fun filters => ?_
  dsimp only
  split
  · exact (changesNothing_throw _).keeps
  refine (changesNothing_record _).keeps.bind fun _ => ?_
  split
  · exact (changesNothing_throw _).keeps
  · exact (changesNothing_throw _).keeps
  · -- What is written is well placed, so the caret goes to a place in it.
    intro b hb
    exact hP.start (Buffer.caretIn_le_of_wellPlaced (generator.wellPlaced_assemble _ _)) hb

/-- Replacing a key by what it abbreviates keeps an invariant. -/
theorem keeps_replaceKey (registry : Registry) (a : Abbreviation) (key : Text) :
    (do match (← get).deleteKey key with
        | .error e => throw (.buffer e)
        | .ok shortened =>
          set shortened
          return some (← insertExpansion registry a none false) :
      Edit (Option Template)).Keeps P := by
  refine keeps_get_bind fun b hb => ?_
  cases hdelete : b.deleteKey key with
  | error e => exact hb
  | ok shortened =>
    have hinsert := (keeps_insertExpansion hP registry a none false).bind
      fun t => (changesNothing_pure (some t)).keeps
    exact hinsert shortened (hP.deleteKey hdelete hb)

/-- Expanding keeps an invariant. -/
theorem keeps_expand (setup : Setup) (key : Text) : (expand setup key).Keeps P := by
  refine (changesNothing_registry setup).keeps.bind fun registry => ?_
  refine changesNothing_get.keeps.bind fun b => ?_
  cases registry.defaultGenerator? b.context false with
  | none => exact ((changesNothing_record _).bind fun _ => changesNothing_pure none).keeps
  | some chosen =>
    dsimp only
    split
    · exact (changesNothing_throw _).keeps
    · exact ((changesNothing_record _).bind fun _ => changesNothing_pure none).keeps
    · next a _ =>
      split
      · exact ((changesNothing_record _).bind fun _ => changesNothing_pure none).keeps
      · exact fun b hb => (keepsStarted_replaceKey registry a key).outcome_group_keeps hP hb
          (keeps_replaceKey hP registry a key b hb)

/-- Wrapping keeps an invariant if deleting the selection does. -/
theorem outcome_wrap_keeps (setup : Setup) (selection abbreviation : Text) {b : Buffer} (hb : P b)
    (hdelete : P b.deleteSelection.2) : P ((wrap setup selection abbreviation).outcome b).2 := by
  refine (changesNothing_registry setup).outcome_bind_keeps hb fun registry => ?_
  refine changesNothing_get.outcome_bind_keeps hb fun b' => ?_
  cases registry.defaultGenerator? b'.context true with
  | none => exact ((changesNothing_record _).bind fun _ => changesNothing_throw _).keeps b hb
  | some chosen =>
    dsimp only
    cases (grammar registry chosen.1 b').parse abbreviation with
    | error e =>
      exact (changesNothing_throw _).keepsStarted.outcome_group_keeps hP hb hb
    | ok a =>
      refine (keepsStarted_replaceSelection registry a selection).outcome_group_keeps hP hb ?_
      rw [outcome_bind_of_ok b (outcome_modify b _)]
      exact keeps_insertExpansion hP registry a (some selection) true _ hdelete

end Editing

/-! ## The moments of a run -/

/-- A step that is run, with the buffer that it finds. -/
structure Moment where
  setup : Setup
  step : Step
  before : Buffer

namespace Moment

/-- The answer to the step or its failure, and the buffer after it. -/
def outcome (m : Moment) : Except Failure Answer × Buffer :=
  (m.step.run m.setup).outcome m.before

/-- The buffer after the step. -/
def after (m : Moment) : Buffer :=
  m.outcome.2

/-- Whether the selection is deleted: by the step itself, or on the way to wrapping it. -/
def deletesSelection (m : Moment) : Bool :=
  match m.step with
  | .deleteSelection => true
  | .wrap _ _ => m.outcome.1.isOk
  | _ => false

/-- If the selection is deleted, that keeps a property of buffers. -/
def DeletionKeeps (P : Buffer → Prop) (m : Moment) : Prop :=
  m.deletesSelection = true → P m.before → P m.before.deleteSelection.2

/-- A property of buffers holds before and after. -/
structure Holds (P : Buffer → Prop) (m : Moment) : Prop where
  before : P m.before
  after : P m.after

/-- Through moments that lead to the buffer `final`, a property of buffers lasts until a deletion of
the selection ends it. -/
structure Lasts (P : Buffer → Prop) (moments : List Moment) (final : Buffer) : Prop where
  holds : ∀ past, past <+: moments → (∀ m ∈ past, m.DeletionKeeps P) → ∀ m ∈ past, m.Holds P
  final : (∀ m ∈ moments, m.DeletionKeeps P) → P final

variable {P : Buffer → Prop} {b final : Buffer} {moments more : List Moment}

/-- Without any moment, a property lasts. -/
theorem lasts_nil (hb : P b) : Lasts P [] b where
  holds past hpast _ m hm := by
    rw [List.prefix_nil.1 hpast] at hm
    cases hm
  final _ := hb

/-- A property lasts through one moment if the step keeps it. -/
theorem lasts_single {m : Moment} (hbefore : P m.before) (h : m.DeletionKeeps P → P m.after) :
    Lasts P [m] m.after where
  holds past hpast hdelete m' hm' := by
    obtain rfl := List.mem_singleton.1 (hpast.subset hm')
    exact ⟨hbefore, h (hdelete m' hm')⟩
  final hdelete := h (List.forall_mem_singleton.1 hdelete)

/-- A property lasts through moments one after the other. -/
theorem Lasts.append (h : Lasts P moments b) (hmore : P b → Lasts P more final) :
    Lasts P (moments ++ more) final where
  holds past hpast hdelete := by
    rcases List.prefix_or_prefix_of_prefix hpast (List.prefix_append moments more) with
      hpast | ⟨rest, rfl⟩
    · exact h.holds past hpast hdelete
    · have hrest : rest <+: more := (List.prefix_append_right_inj moments).1 hpast
      obtain ⟨hfirst, hsecond⟩ := List.forall_mem_append.1 hdelete
      have hb : P b := h.final hfirst
      exact List.forall_mem_append.2
        ⟨h.holds moments (List.prefix_refl moments) hfirst, (hmore hb).holds rest hrest hsecond⟩
  final hdelete := by
    obtain ⟨hfirst, hsecond⟩ := List.forall_mem_append.1 hdelete
    exact (hmore (h.final hfirst)).final hsecond

end Moment

namespace Step

open Edit

mutual

/-- The moments of a step: those of the steps in it, and its own. -/
def moments (setup : Setup) (b : Buffer) : Step → List Moment
  | group steps failure => momentsAll setup b steps ++ [⟨setup, group steps failure, b⟩]
  | under own step => moments own b step
  | step => [⟨setup, step, b⟩]

/-- The moments of steps up to the first that fails. -/
def momentsAll (setup : Setup) (b : Buffer) : List Step → List Moment
  | [] => []
  | step :: more =>
    moments setup b step ++
      match (step.run setup).outcome b with
      | (.ok _, after) => momentsAll setup after more
      | (.error _, _) => []

end

/-- The moments of a run, in which a host goes on after each step, whether it has failed or not. -/
def history (setup : Setup) (b : Buffer) : List Step → List Moment
  | [] => []
  | step :: more => moments setup b step ++ history setup ((step.run setup).outcome b).2 more

mutual

/-- A step leaves caret and selection to the edits: it does not set them itself, and the templates
that it starts are in bounds. -/
def IsEdit : Step → Prop
  | setCaret _ | setSelection _ => False
  | start t => t.InBounds
  | under _ step => step.IsEdit
  | group steps _ => IsEditAll steps
  | _ => True

/-- Each of some steps leaves caret and selection to the edits. -/
def IsEditAll : List Step → Prop
  | [] => True
  | step :: more => step.IsEdit ∧ IsEditAll more

end

variable {P : Buffer → Prop}

/-- Deleting a key keeps an invariant. -/
theorem keeps_deleteKey (hP : Buffer.Invariant P) (setup : Setup) (key : Text) :
    ((deleteKey key).run setup).Keeps P := by
  refine keeps_get_bind fun b hb => ?_
  cases hdelete : b.deleteKey key with
  | error e => exact hb
  | ok shortened => exact hP.deleteKey hdelete hb

/-- Wrapping keeps an invariant if it fails, and also if deleting the selection keeps it. -/
theorem keeps_wrap (hP : Buffer.Invariant P) {setup : Setup} {abbreviation : Text}
    {selection : Option Text} {b : Buffer} (hb : P b)
    (hdelete : (⟨setup, wrap abbreviation selection, b⟩ : Moment).DeletionKeeps P) :
    P (((wrap abbreviation selection).run setup).outcome b).2 := by
  cases houtcome : ((wrap abbreviation selection).run setup).outcome b with
  | mk result after =>
    cases result with
    | error e => exact hP.of_agrees ((guarded_run setup _).atomic b e after houtcome) hb
    | ok answer =>
      have hdeletes : Moment.deletesSelection ⟨setup, wrap abbreviation selection, b⟩ = true := by
        change (((wrap abbreviation selection).run setup).outcome b).1.isOk = true
        rw [houtcome]
        rfl
      rw [← houtcome]
      refine changesNothing_get.outcome_bind_keeps hb fun b' => ?_
      refine outcome_bind_keeps (fun _ => changesNothing_pure _) ?_
      exact Editing.outcome_wrap_keeps hP setup _ abbreviation hb (hdelete hdeletes hb)

/-- Calling a group off, or not, changes nothing. -/
theorem changesNothing_end (answers : List Answer) (failure : Option Text) :
    (match failure with
      | some message => throw (.aborted message)
      | none => return .answers answers : Edit Answer).ChangesNothing := by
  cases failure with
  | none => exact changesNothing_pure _
  | some message => exact changesNothing_throw _

mutual

/-- An invariant lasts through the moments of a step. -/
theorem lasts_moments (hP : Buffer.Invariant P) (setup : Setup) {b : Buffer} (hb : P b) :
    (step : Step) → step.IsEdit →
    Moment.Lasts P (moments setup b step) ((step.run setup).outcome b).2
  | currentKey, _ | selected, _ | find _, _ | keysFrom _, _ => Moment.lasts_single hb fun _ => hb
  | expand key, _ => Moment.lasts_single hb fun _ => by
    refine changesNothing_get.keeps.bind (fun b' => ?_) b hb
    exact (Editing.keeps_expand hP setup _).bind fun _ => (changesNothing_pure _).keeps
  | wrap abbreviation selection, _ => Moment.lasts_single hb (keeps_wrap hP hb)
  | accepts key wrapping, _ => Moment.lasts_single hb fun _ =>
    ((changesNothing_accepts setup key wrapping).bind fun _ => changesNothing_pure _).keeps b hb
  | applicable wrapping, _ => Moment.lasts_single hb fun _ =>
    (((Editing.changesNothing_registry setup).bind fun _ =>
      changesNothing_get.bind fun _ => changesNothing_pure _).bind fun _ =>
        changesNothing_pure _).keeps b hb
  | setContext _, _ | define _ _, _ =>
    Moment.lasts_single hb fun _ => hP.of_agrees (b := b) ⟨rfl, rfl, rfl, rfl⟩ hb
  | type text, _ => Moment.lasts_single hb fun _ => hP.type text hb
  | deleteKey key, _ => Moment.lasts_single hb fun _ => keeps_deleteKey hP setup key b hb
  | deleteSelection, _ => Moment.lasts_single hb fun hdelete => hdelete rfl hb
  | start t, ht =>
    Moment.lasts_single hb fun _ => hP.start (Buffer.caretIn_le_of_inBounds ht) hb
  | under own step, hstep => lasts_moments hP own hb step hstep
  | group steps failure, hsteps => by
    refine (lasts_momentsAll hP setup hb steps hsteps).append fun hafter => ?_
    refine Moment.lasts_single hb fun _ => KeepsStarted.outcome_group_keeps ?_ hP hb ?_
    · refine (keepsStarted_runAll setup steps).bind fun answers => ?_
      exact (changesNothing_end answers failure).keepsStarted
    · exact outcome_bind_keeps (fun answers => changesNothing_end answers failure) hafter

/-- An invariant lasts through the moments of steps up to the first that fails. -/
theorem lasts_momentsAll (hP : Buffer.Invariant P) (setup : Setup) {b : Buffer} (hb : P b) :
    (steps : List Step) → IsEditAll steps →
    Moment.Lasts P (momentsAll setup b steps) ((runAll setup steps).outcome b).2
  | [], _ => Moment.lasts_nil hb
  | step :: more, ⟨hstep, hmore⟩ => by
    have hfirst := lasts_moments hP setup hb step hstep
    rw [momentsAll, runAll, outcome_bind]
    generalize (step.run setup).outcome b = outcome at hfirst
    obtain ⟨e | answer, after⟩ := outcome
    · exact hfirst.append Moment.lasts_nil
    · refine hfirst.append fun hafter => ?_
      have hrest := lasts_momentsAll hP setup hafter more hmore
      exact ⟨hrest.holds, fun hdelete =>
        outcome_bind_keeps (fun _ => changesNothing_pure _) (hrest.final hdelete)⟩

end

/-- An invariant lasts through a run. -/
theorem lasts_history (hP : Buffer.Invariant P) (setup : Setup) {b : Buffer} (hb : P b)
    {steps : List Step} (hsteps : IsEditAll steps) :
    Moment.Lasts P (history setup b steps)
      (steps.foldl (fun b step => ((step.run setup).outcome b).2) b) := by
  induction steps generalizing b with
  | nil => exact Moment.lasts_nil hb
  | cons step more ih =>
    exact (lasts_moments hP setup hb step hsteps.1).append fun hafter => ih hafter hsteps.2

end Step

end Abbrev
