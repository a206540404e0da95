import Abbrev.Proofs.Session.Answers

/-!
# What a session remembers

Whatever is typed, all that a session remembers of the past are the settings that commands have
made. What a line changes can be told from the line alone (`Change.ofLine?`): most lines change
nothing, among them abbreviations, whether they are expanded or not, unknown commands, and commands
with an argument that they do not take. So the settings at a prompt are the first ones with the
changes of all inputs before the prompt, one after the other (`Settings.after`).

A session goes on until its input ends, or until a line in which a number of copies is too large
(`Input.TooLarge`), and such a line can end it (`Session.answers_start_sampleCount`).

One answer is looked at in `Session.lasts_or_ends_answer`. The run of a session follows by induction
on the inputs, from any session whose environment sets a profile (`Session.answers_run`).
-/

namespace Abbrev

/-! ## Changes of settings -/

/-- What the user of a session can set. -/
structure Settings where
  context : Text := "html".toList
  /-- The text that abbreviations are wrapped around. -/
  wrapText : Option Text := none
  /-- Whether tab stops are shown. -/
  showTabStops : Bool := true
  /-- Whether an error shows where it came from. -/
  trace : Bool
  deriving DecidableEq, Repr

/-- What becomes of a switch. -/
inductive Switch where
  | on
  | off
  | opposite
  deriving DecidableEq, Repr

namespace Switch

/-- The switch that an argument asks for: its opposite if there is none. -/
def ofArgument? (argument : Text) : Option Switch :=
  let word := Text.lower argument
  if Session.onWords.contains word then some on
  else if Environment.offWords.contains word then some off
  else if argument.isEmpty then some opposite
  else none

/-- The state of a switch afterwards. -/
def apply : Switch → Bool → Bool
  | on, _ => true
  | off, _ => false
  | opposite, current => !current

end Switch

/-- A change that a command makes. -/
inductive Change where
  | context (name : Text)
  | wrapText (text : Option Text)
  | tabStops (switch : Switch)
  | trace (switch : Switch)
  deriving DecidableEq, Repr

namespace Change

/-- The change that a command with an argument asks for. -/
def ofCommand? (name argument : Text) : Option Change :=
  match name.str with
  | "/context" => if argument.isEmpty then none else some (context argument)
  | "/wrap" =>
    if argument.isEmpty || Environment.offWords.contains (Text.lower argument) then
      some (wrapText none)
    else some (wrapText (some (Text.replacePair '\\' 'n' ['\n'] argument)))
  | "/snippet" => (Switch.ofArgument? argument).map tabStops
  | "/py-traceback" => (Switch.ofArgument? argument).map trace
  | _ => none

/-- The change that a line asks for: none unless it is a command. -/
def ofLine? (t : Text) : Option Change :=
  let t := Text.trim (Session.normalize t)
  match t with
  | '/' :: _ =>
    ofCommand? (t.takeWhile (!Text.isBlank ·)) (Text.trimLeft (t.dropWhile (!Text.isBlank ·)))
  | _ => none

/-- The change that an input asks for. -/
def ofInput? : Input → Option Change
  | .line t => ofLine? t
  | .interrupt | .endOfInput => none

end Change

namespace Settings

/-- The settings after a change. -/
def apply (settings : Settings) : Change → Settings
  | .context name => { settings with context := name }
  | .wrapText text => { settings with wrapText := text }
  | .tabStops switch => { settings with showTabStops := switch.apply settings.showTabStops }
  | .trace switch => { settings with trace := switch.apply settings.trace }

/-- The settings after the changes that inputs ask for. -/
def after (settings : Settings) (inputs : List Input) : Settings :=
  (inputs.filterMap Change.ofInput?).foldl apply settings

/-- Inputs change the settings one after the other. -/
theorem after_cons (settings : Settings) (input : Input) (more : List Input) :
    settings.after (input :: more) = (settings.after [input]).after more := by
  unfold after
  rw [← List.foldl_append, ← List.filterMap_append]
  rfl

/-- An input makes the change that it asks for, if it asks for one. -/
theorem after_singleton (settings : Settings) (input : Input) :
    settings.after [input] = ((Change.ofInput? input).map settings.apply).getD settings := by
  unfold after
  cases h : Change.ofInput? input with
  | none =>
    rw [List.filterMap_cons_none h]
    rfl
  | some change =>
    rw [List.filterMap_cons_some h]
    rfl

end Settings

/-- The input is a line without a command, in which a number of copies is too large. -/
def Input.TooLarge : Input → Prop
  | .line t =>
    (Text.trim (Session.normalize t)).head? ≠ some '/' ∧
      ∃ ts, Token.read (Text.trim (Session.normalize t)) = .ok ts ∧ Grammar.TooLarge ts
  | .interrupt | .endOfInput => False

namespace Session

variable {s : Session} {profile : Profile}

/-- The settings of a session. -/
def settings (s : Session) : Settings :=
  ⟨s.context, s.wrapText, s.showTabStops, s.environment.trace⟩

/-- The argument of a switch says what becomes of it, or is refused. -/
theorem toggle_eq (argument : Text) (current : Bool) :
    toggle argument current =
      (Switch.ofArgument? argument).map fun switch => switch.apply current := by
  unfold toggle Switch.ofArgument?
  dsimp only
  split_ifs <;> rfl

/-- What a session is after a change of settings: all else about it that matters is as before. -/
structure Becomes (s : Session) (settings : Settings) (next : Session) : Prop where
  settings : next.settings = settings
  catalog : next.catalog = s.catalog
  debug : next.debug = s.debug
  profile : next.environment.profile = s.environment.profile

/-- The reply keeps the session going, with the given settings. -/
def Lasts (s : Session) (settings : Settings) (reply : Reply) : Prop :=
  reply.raised = none ∧ ∃ next, reply.next = some next ∧ s.Becomes settings next

/-- An input ends the session with a failure, because a number of copies in it is too large. -/
structure Breaks (s : Session) (input : Input) : Prop where
  raised : ∃ e : Failure, e.OfSize ∧ (s.answer input).raised = some e
  next : (s.answer input).next = none
  tooLarge : input.TooLarge

/-- A reply that leaves the session as it is. -/
theorem lasts_of_next {reply : Reply} (hraised : reply.raised = none)
    (hnext : reply.next = some s) : s.Lasts s.settings reply :=
  ⟨hraised, s, hnext, rfl, rfl, rfl, rfl⟩

/-- A reply of a session with other settings. -/
theorem lasts_of_becomes {settings : Settings} {reply : Reply} {next : Session}
    (hraised : reply.raised = none) (hnext : reply.next = some next)
    (h : s.Becomes settings next) : s.Lasts settings reply :=
  ⟨hraised, next, hnext, h⟩

/-- Switching traces over or to a state leaves all but that as it was. -/
theorem becomes_trace (s : Session) (trace : Bool) :
    s.Becomes { s.settings with trace }
      { s with environment :=
          if trace then s.environment.set Environment.traceVariable ['1']
          else s.environment.unset Environment.traceVariable } := by
  cases trace with
  | true =>
    refine ⟨?_, rfl, rfl, Environment.profile_set_trace s.environment ['1']⟩
    exact congrArg (Settings.mk _ _ _) (Environment.trace_set s.environment)
  | false =>
    refine ⟨?_, rfl, rfl, Environment.profile_unset_trace s.environment⟩
    exact congrArg (Settings.mk _ _ _) (Environment.trace_unset s.environment)

/-- A command keeps the session going and makes the change that it asks for. -/
theorem lasts_command (s : Session) (name argument : Text) :
    s.Lasts (((Change.ofCommand? name argument).map s.settings.apply).getD s.settings)
      (s.command name argument) := by
  unfold command
  split
  · next h =>
    simp only [Change.ofCommand?, h]
    exact lasts_of_next rfl rfl
  · next h =>
    simp only [Change.ofCommand?, h]
    split
    · exact lasts_of_next rfl rfl
    · exact lasts_of_becomes rfl rfl ⟨rfl, rfl, rfl, rfl⟩
  · next h =>
    simp only [Change.ofCommand?, h]
    split <;> exact lasts_of_becomes rfl rfl ⟨rfl, rfl, rfl, rfl⟩
  · next h =>
    simp only [Change.ofCommand?, h]
    rw [toggle_eq]
    cases Switch.ofArgument? argument with
    | none => exact lasts_of_next rfl rfl
    | some switch => exact lasts_of_becomes rfl rfl ⟨rfl, rfl, rfl, rfl⟩
  · next h =>
    simp only [Change.ofCommand?, h]
    rw [toggle_eq]
    cases Switch.ofArgument? argument with
    | none => exact lasts_of_next rfl rfl
    | some switch => exact lasts_of_becomes rfl rfl (s.becomes_trace _)
  · simp only [Change.ofCommand?]
    exact lasts_of_next rfl rfl

/-- A line keeps the session going and makes the change that it asks for, if the environment sets a
profile, or it is an abbreviation that ends the session. -/
theorem lasts_or_ends_line (hprofile : s.environment.profile = .ok profile) (t : Text) :
    s.Lasts (((Change.ofLine? t).map s.settings.apply).getD s.settings) (s.line t) ∨
      (Text.trim (normalize t)).head? ≠ some '/' ∧ EndsAt (Text.trim (normalize t)) (s.line t) := by
  unfold line Change.ofLine?
  dsimp only
  generalize Text.trim (normalize t) = shown
  split
  · exact .inl (s.lasts_command _ _)
  · next hslash =>
    split
    · exact .inl (lasts_of_next rfl rfl)
    · next rest => exact absurd rfl (hslash rest)
    · obtain ⟨hraised, hnext⟩ | hends := abbreviation_lasts_or_ends hprofile shown
      · exact .inl (lasts_of_next hraised hnext)
      · refine .inr ⟨fun hhead => ?_, hends⟩
        obtain ⟨rest, hrest⟩ := List.head?_eq_some_iff.1 hhead
        exact hslash rest hrest

/-- An input keeps the session going and makes the change that it asks for, unless the input is at
its end, or a number of copies in it is too large and it ends the session. -/
theorem lasts_or_ends_answer (hprofile : s.environment.profile = .ok profile) {input : Input}
    (hinput : input ≠ .endOfInput) :
    s.Lasts (s.settings.after [input]) (s.answer input) ∨ s.Breaks input := by
  cases input with
  | line t =>
    rw [Settings.after_singleton]
    obtain hlasts | ⟨hslash, hraised, hnext, hlarge⟩ := lasts_or_ends_line hprofile t
    · exact .inl hlasts
    · exact .inr ⟨hraised, hnext, hslash, hlarge⟩
  | interrupt => exact .inl (lasts_of_next rfl rfl)
  | endOfInput => exact absurd rfl hinput

/-! ## The run of a session -/

/-- A session answers an input at a prompt where `settings` have been made since the session was
`first`. It goes on unless its input is at the end, or there is a failure, and then a number of
copies in the input is too large. -/
structure Answers (first : Session) (settings : Settings) (input : Input)
    (entry : String × Reply) : Prop where
  current : ∃ current, first.Becomes settings current ∧
    entry = (current.prompt, current.answer input)
  raised : ∀ e ∈ entry.2.raised, e.OfSize ∧ input.TooLarge
  next : entry.2.next.isSome = true ↔ input ≠ .endOfInput ∧ entry.2.raised = none

/-- What is said at the first prompt. -/
theorem answers_first (hprofile : s.environment.profile = .ok profile) (input : Input) :
    s.Answers s.settings input (s.prompt, s.answer input) := by
  have hcurrent : ∃ current, s.Becomes s.settings current ∧
      (s.prompt, s.answer input) = (current.prompt, current.answer input) :=
    ⟨s, ⟨rfl, rfl, rfl, rfl⟩, rfl⟩
  by_cases hinput : input = .endOfInput
  · subst hinput
    have hraised : (s.answer .endOfInput).raised = none := rfl
    have hnext : (s.answer .endOfInput).next = none := rfl
    refine ⟨hcurrent, ?_, ?_⟩
    · rintro e he
      rw [hraised] at he
      cases he
    · simp [hnext]
  obtain ⟨hraised, next, hnext, -⟩ | ⟨⟨e, hsize, hraised⟩, hnext, hlarge⟩ :=
    lasts_or_ends_answer hprofile hinput
  · refine ⟨hcurrent, ?_, ?_⟩
    · rintro e he
      rw [hraised] at he
      cases he
    · exact iff_of_true (Option.isSome_of_mem hnext) ⟨hinput, hraised⟩
  · refine ⟨hcurrent, ?_, ?_⟩
    · rintro e' he'
      obtain rfl := Option.some.inj (hraised.symm.trans he')
      exact ⟨hsize, hlarge⟩
    · simp [hnext, hraised]

/-- What is said in a session that has come from an earlier one. -/
theorem Answers.of_becomes {next : Session} {settings later : Settings} {input : Input}
    {entry : String × Reply} (h : next.Answers later input entry)
    (hnext : s.Becomes settings next) : s.Answers later input entry := by
  obtain ⟨current, hcurrent, hentry⟩ := h.current
  have hbecomes : s.Becomes later current :=
    ⟨hcurrent.settings, hcurrent.catalog.trans hnext.catalog, hcurrent.debug.trans hnext.debug,
      hcurrent.profile.trans hnext.profile⟩
  exact ⟨⟨current, hbecomes, hentry⟩, h.raised, h.next⟩

/-- A run has answered all inputs, or it ends with a failure at one of them. -/
def Completes (run : List (String × Reply)) (inputs : List Input) : Prop :=
  run.length = inputs.length + 1 ∨
    ∃ (i : Nat) (input : Input) (entry : String × Reply), inputs[i]? = some input ∧ input.TooLarge ∧
      run[i]? = some entry ∧ entry.2.raised.isSome = true ∧ run.length = i + 1

/-- One more answer in front makes no difference to that. -/
theorem Completes.cons {run : List (String × Reply)} {inputs : List Input}
    (h : Completes run inputs) (entry : String × Reply) (input : Input) :
    Completes (entry :: run) (input :: inputs) := by
  obtain hlength | ⟨i, broken, last, hinput, hlarge, hlast, hraised, hlength⟩ := h
  · exact .inl (congrArg (· + 1) hlength)
  · exact .inr ⟨i + 1, broken, last, hinput, hlarge, hlast, hraised, congrArg (· + 1) hlength⟩

/-- A run answers each input that it comes to with the settings that the inputs before it make, and
it comes to all of them up to the end unless a failure ends it. -/
theorem answers_run (hprofile : s.environment.profile = .ok profile) {inputs : List Input}
    (hinputs : .endOfInput ∉ inputs) (rest : List Input) :
    Completes (s.run (inputs ++ .endOfInput :: rest)) inputs ∧
      ∀ i entry, (s.run (inputs ++ .endOfInput :: rest))[i]? = some entry →
        ∃ input, (inputs ++ [.endOfInput])[i]? = some input ∧
          s.Answers (s.settings.after (inputs.take i)) input entry := by
  induction inputs generalizing s with
  | nil =>
    refine ⟨.inl rfl, fun i entry hentry => ?_⟩
    cases i with
    | zero =>
      obtain rfl := Option.some.inj hentry
      exact ⟨_, rfl, answers_first hprofile .endOfInput⟩
    | succ i => exact nomatch hentry
  | cons first more ih =>
    rw [List.mem_cons, not_or] at hinputs
    obtain ⟨-, next, hnext, hbecomes⟩ | ⟨⟨e, -, hraised⟩, hnext, hlarge⟩ :=
      lasts_or_ends_answer hprofile (Ne.symm hinputs.1)
    · have hrun : s.run (first :: more ++ .endOfInput :: rest) =
          (s.prompt, s.answer first) :: next.run (more ++ .endOfInput :: rest) := by
        rw [List.cons_append, run, hnext]
      obtain ⟨hcompletes, hmore⟩ := ih (hbecomes.profile.trans hprofile) hinputs.2
      rw [hrun]
      refine ⟨hcompletes.cons _ _, fun i entry hentry => ?_⟩
      cases i with
      | zero =>
        obtain rfl := Option.some.inj hentry
        exact ⟨_, rfl, answers_first hprofile first⟩
      | succ i =>
        obtain ⟨input, hinput, hanswers⟩ := hmore i entry hentry
        refine ⟨input, hinput, ?_⟩
        rw [hbecomes.settings] at hanswers
        rw [List.take_succ_cons, Settings.after_cons]
        exact hanswers.of_becomes hbecomes
    · -- The first input ends the session, so its answer is all there is.
      have hrun : s.run (first :: more ++ .endOfInput :: rest) = [(s.prompt, s.answer first)] := by
        rw [List.cons_append, run, hnext]
      rw [hrun]
      refine ⟨.inr ⟨0, first, _, rfl, hlarge, rfl, Option.isSome_of_mem hraised, rfl⟩, ?_⟩
      intro i entry hentry
      cases i with
      | zero =>
        obtain rfl := Option.some.inj hentry
        exact ⟨_, rfl, answers_first hprofile first⟩
      | succ i => exact nomatch hentry

/-- No input corrupts a session, and hardly one kills it. In an environment that sets a profile, a
session answers every input up to the first end of its input, and none after that; it goes on after
each input but the last. Only an input in which a number of copies is too large may end it before,
with a failure. At every prompt the settings are the first ones with the changes of the commands
before, whatever else was typed. -/
theorem answers_start {environment : Environment} (hprofile : environment.profile = .ok profile)
    (catalog : Catalog) {inputs : List Input} (hinputs : .endOfInput ∉ inputs)
    (rest : List Input) :
    let run := (start environment catalog).run (inputs ++ .endOfInput :: rest)
    Completes run inputs ∧
      ((∀ input ∈ inputs, ¬ input.TooLarge) → run.length = inputs.length + 1) ∧
      ∀ i entry, run[i]? = some entry →
        ∃ input, (inputs ++ [.endOfInput])[i]? = some input ∧
          (start environment catalog).Answers
            (({ trace := environment.trace } : Settings).after (inputs.take i)) input entry := by
  obtain ⟨hcompletes, hanswers⟩ :=
    answers_run (s := start environment catalog) hprofile hinputs rest
  refine ⟨hcompletes, fun hfits => ?_, hanswers⟩
  obtain hlength | ⟨i, input, entry, hinput, hlarge, -⟩ := hcompletes
  · exact hlength
  · exact absurd hlarge (hfits input (List.mem_of_getElem? hinput))

/-- An environment that sets an indent of two spaces. -/
def sampleEnvironment : Environment :=
  ⟨[("ZEN_REF_INDENT", "2".toList)]⟩

/-- A command, a break, a command with a bad argument, and an abbreviation that HAML cannot show. -/
def sampleInputs : List Input :=
  [.line "/context haml".toList, .interrupt, .line "/snippet maybe".toList, .line "p{x}".toList]

/-- The sample is answered up to the end, and at the last prompt only the context has changed. -/
theorem answers_start_sample :
    sampleEnvironment.profile = .ok { indent := "  ".toList } ∧ .endOfInput ∉ sampleInputs ∧
      (∀ input ∈ sampleInputs, ¬ input.TooLarge) ∧
      ∃ entry, ((start sampleEnvironment .empty).run (sampleInputs ++ [.endOfInput]))[4]? =
          some entry ∧
        (start sampleEnvironment .empty).Answers { context := "haml".toList, trace := false }
          .endOfInput entry := by
  have hprofile : sampleEnvironment.profile = .ok { indent := "  ".toList } := by decide
  have hinputs : .endOfInput ∉ sampleInputs := by simp [sampleInputs]
  have hread : Token.read (Text.trim (normalize "p{x}".toList)) =
      .ok [⟨.name "p".toList, 0⟩, ⟨.braced "x".toList, 1⟩] := by decide +kernel
  have hfits : ∀ input ∈ sampleInputs, ¬ input.TooLarge := by
    intro input hinput hlarge
    simp only [sampleInputs, List.mem_cons, List.not_mem_nil, or_false] at hinput
    rcases hinput with rfl | rfl | rfl | rfl
    · exact hlarge.1 (by decide)
    · exact hlarge
    · exact hlarge.1 (by decide)
    · -- The abbreviation has no number of copies.
      obtain ⟨-, ts, hts, hlarge⟩ := hlarge
      obtain ⟨c, hmem⟩ := hlarge.exists_times
      obtain rfl := Except.ok.inj (hread.symm.trans hts)
      simp at hmem
  have hsettings : ({ trace := sampleEnvironment.trace } : Settings).after (sampleInputs.take 4) =
      { context := "haml".toList, trace := false } := by decide
  obtain ⟨-, hlength, hanswers⟩ := answers_start hprofile .empty hinputs []
  have hlast : 4 < ((start sampleEnvironment .empty).run (sampleInputs ++ [.endOfInput])).length :=
    (hlength hfits).symm ▸ Nat.lt_succ_self 4
  obtain ⟨input, hinput, hentry⟩ := hanswers 4 _ (List.getElem?_eq_getElem hlast)
  obtain rfl : Input.endOfInput = input := Option.some.inj hinput
  rw [hsettings] at hentry
  exact ⟨hprofile, hinputs, hfits, _, List.getElem?_eq_getElem hlast, hentry⟩

/-- A line that asks for `2 ^ 63` copies. -/
def sampleCountInputs : List Input :=
  [.line Editing.sampleCount]

/-- The line ends a session with a failure, and the end of the input is not answered any more. -/
theorem answers_start_sampleCount :
    (⟨[]⟩ : Environment).profile = .ok {} ∧ .endOfInput ∉ sampleCountInputs ∧
      ∃ reply, (start ⟨[]⟩ .empty).run (sampleCountInputs ++ [.endOfInput]) = [("html> ", reply)] ∧
        reply.next = none ∧ ∃ e, reply.raised = some (.size e) := by
  have hprofile : (⟨[]⟩ : Environment).profile = .ok {} := by decide
  have hinputs : .endOfInput ∉ sampleCountInputs := by simp [sampleCountInputs]
  have hshown : Text.trim (normalize Editing.sampleCount) = Editing.sampleCount := by decide
  obtain ⟨-, e, hfails⟩ := Editing.expands_and_fails_sampleCount
  have htemplate : ((start ⟨[]⟩ .empty).template Editing.sampleCount).value = .error (.size e) := by
    rw [value_template_of_none hprofile rfl]
    exact congrArg Prod.fst hfails
  have hline : (start ⟨[]⟩ .empty).line Editing.sampleCount =
      (start ⟨[]⟩ .empty).abbreviation Editing.sampleCount := by
    rw [line, hshown]
    rfl
  have hreply : ((start ⟨[]⟩ .empty).line Editing.sampleCount).next = none ∧
      ((start ⟨[]⟩ .empty).line Editing.sampleCount).raised = some (.size e) := by
    rw [hline, abbreviation]
    dsimp only
    rw [htemplate]
    exact ⟨rfl, rfl⟩
  refine ⟨hprofile, hinputs, (start ⟨[]⟩ .empty).line Editing.sampleCount, ?_, hreply.1, e,
    hreply.2⟩
  rw [sampleCountInputs, List.singleton_append, run, answer, hreply.1]
  rfl

end Session

end Abbrev
