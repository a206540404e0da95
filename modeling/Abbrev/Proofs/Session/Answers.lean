import Abbrev.Proofs.Editing.Wrap
import Abbrev.Session

/-!
# What ends a session

A session reports two kinds of failures, those of reading and those of choosing a generator, and
ends at any other one. The only other one that can come up is that something is too large, and then
a number of copies in the abbreviation is (`Session.abbreviation_lasts_or_ends`). Otherwise
expanding in a buffer that holds nothing but the key does not fail at all, and wrapping fails only
where the context has no generator for it or where the text is no abbreviation.

All that is asked of the environment is that it sets a profile. Commands change the environment as
well, but only a variable that no profile depends on (`Environment.profile_set_trace`), so what is
asked once holds as long as the session lasts.
-/

namespace Abbrev

/-! ## The profile of an environment -/

namespace Environment

variable {env other : Environment} {name changed : String}

/-- The profile that an environment sets. -/
def profile (env : Environment) : Except ProfileError Profile := do
  Profile.override {} (← Overrides.ofEnvironment env)

/-- The variables that a profile depends on. -/
def profileVariables : List String :=
  ["ZEN_REF_INDENT", "ZEN_REF_ATTR_QUOTE", "ZEN_REF_SELF_CLOSING", "ZEN_REF_FORMAT"]

/-- Environments that agree in these variables set the same profile. -/
theorem profile_congr (h : ∀ name ∈ profileVariables, env.get? name = other.get? name) :
    env.profile = other.profile := by
  unfold profile Overrides.ofEnvironment
  rw [h "ZEN_REF_INDENT" (by decide), h "ZEN_REF_ATTR_QUOTE" (by decide),
    h "ZEN_REF_SELF_CLOSING" (by decide), h "ZEN_REF_FORMAT" (by decide)]

/-- A variable that was taken away has no value. -/
theorem get?_unset_self (env : Environment) (name : String) :
    (env.unset name).get? name = none := by
  unfold get? unset
  rw [List.lookup_eq_none_iff]
  intro entry hentry
  have hne := of_decide_eq_true (List.mem_filter.1 hentry).2
  exact bne_iff_ne.2 (Ne.symm hne)

/-- Taking a variable away leaves the others alone. -/
theorem get?_unset_of_ne (h : name ≠ changed) (env : Environment) :
    (env.unset changed).get? name = env.get? name := by
  obtain ⟨entries⟩ := env
  unfold get? unset
  induction entries with
  | nil => rfl
  | cons entry rest ih =>
    obtain ⟨key, value⟩ := entry
    by_cases hkey : key = changed
    · -- The entry that is dropped is not the one that is looked up.
      have hlookup : (name == key) = false := by rw [hkey, beq_eq_false_iff_ne]; exact h
      rw [List.filter_cons_of_neg (by simpa using hkey), ih, List.lookup_cons, hlookup]
    · rw [List.filter_cons_of_pos (by simpa using hkey), List.lookup_cons, List.lookup_cons, ih]

/-- A variable has the value that it was set to. -/
theorem get?_set_self (env : Environment) (name : String) (value : Text) :
    (env.set name value).get? name = some value :=
  List.lookup_cons_self

/-- Setting a variable leaves the others alone. -/
theorem get?_set_of_ne (h : name ≠ changed) (env : Environment) (value : Text) :
    (env.set changed value).get? name = env.get? name := by
  have hlookup : (name == changed) = false := by rw [beq_eq_false_iff_ne]; exact h
  rw [← get?_unset_of_ne h env, get?, set, List.lookup_cons, hlookup]
  rfl

/-- No profile depends on the variable that shows where an error came from. -/
theorem ne_traceVariable (h : name ∈ profileVariables) : name ≠ traceVariable := by
  rintro rfl
  exact absurd h (by decide)

/-- Switching traces on leaves the profile alone. -/
theorem profile_set_trace (env : Environment) (value : Text) :
    (env.set traceVariable value).profile = env.profile :=
  profile_congr fun _ h => get?_set_of_ne (ne_traceVariable h) env value

/-- Switching traces off leaves the profile alone. -/
theorem profile_unset_trace (env : Environment) : (env.unset traceVariable).profile = env.profile :=
  profile_congr fun _ h => get?_unset_of_ne (ne_traceVariable h) env

/-- Traces are shown after they were switched on. -/
theorem trace_set (env : Environment) : (env.set traceVariable ['1']).trace = true := by
  rw [trace, flag, get?_set_self]
  decide

/-- Traces are not shown after they were switched off. -/
theorem trace_unset (env : Environment) : (env.unset traceVariable).trace = false := by
  rw [trace, flag, get?_unset_self]

end Environment

/-- Where something that may fail does not, what comes after it decides the value. -/
theorem Logged.value_liftM_bind {ε α β : Type} {x : Except ε α} {a : α} (h : x = .ok a)
    (next : α → ExceptT ε Logged β) :
    ((liftM x : ExceptT ε Logged α) >>= next).run.value = (next a).run.value := by
  subst h
  rfl

/-- The registry for an environment is that for the profile that it sets. -/
theorem Registry.value_ofEnvironment {env : Environment} {profile : Profile}
    (h : env.profile = .ok profile) :
    (Registry.ofEnvironment env).run.value = .ok (.ofProfile profile) := by
  unfold Environment.profile at h
  obtain ⟨overrides, hoverrides, hprofile⟩ := bind_eq_ok.1 h
  unfold Registry.ofEnvironment
  rw [Logged.value_liftM_bind hoverrides]
  -- The overrides are recorded only if there are any, which makes no difference to the value.
  split
  · exact Logged.value_liftM_bind hprofile _
  · exact Logged.value_liftM_bind hprofile _

/-! ## Failures that are reported, and others -/

namespace Editing

/-- Expanding fails at most because something is too large, in a buffer that holds nothing but the
key. -/
theorem tooLarge_of_outcome_expand {profile : Profile} {key : Text} {context : Option Text}
    {catalog : Catalog} {e : Failure} {after : Buffer}
    (h : (expand (.fixed (.ofProfile profile)) key).outcome (.atEnd key context catalog) =
      (.error e, after)) :
    e.OfSize ∧ ∃ ts, Token.read key = .ok ts ∧ Grammar.TooLarge ts := by
  have htext : (Buffer.atEnd key context catalog).text = [] ++ key ++ [] :=
    (List.append_nil key).symm
  by_cases hsize : Oversized (.ofProfile profile) (.atEnd key context catalog) key
  · obtain ⟨e', he', hfails⟩ := outcome_expand_of_oversized htext rfl hsize
    obtain rfl := Except.error.inj (Prod.mk.inj (h.symm.trans hfails)).1
    exact ⟨he', tooLarge_of_oversized hsize⟩
  by_cases hexpands : Expands (.ofProfile profile) (.atEnd key context catalog) key
  · obtain ⟨t, ht⟩ := outcome_expand_of_expands htext rfl hsize hexpands
    exact nomatch h.symm.trans ht
  · exact nomatch h.symm.trans (outcome_expand_of_not_expands hsize hexpands)

/-- What is read in a context for wrapping is inserted, whatever the text that it is wrapped around,
unless something is copied too often. -/
theorem outcome_wrap_of_read {profile : Profile} {b : Buffer} {chosen : Generator × Nat}
    {abbreviation : Text} {a : Abbreviation}
    (hdefault : (Registry.ofProfile profile).defaultGenerator? b.context true = some chosen)
    (hread : (grammar (.ofProfile profile) chosen.1 b).parse abbreviation = .ok a)
    (selection : Text) :
    (∃ t after, (wrap (.fixed (.ofProfile profile)) selection abbreviation).outcome b =
        (.ok t, after)) ∨
      (a.Oversized ∧ ∃ e after,
        (wrap (.fixed (.ofProfile profile)) selection abbreviation).outcome b =
          (.error (.size e), after)) := by
  have hcontext := b.context_deleteSelection
  have hisSome : ((Registry.ofProfile profile).defaultGenerator? b.deleteSelection.2.context
      true).isSome = true := by
    rw [hcontext, hdefault]
    rfl
  obtain ⟨ts, -, hts⟩ := Grammar.parse_eq_ok_iff.1 hread
  have hsuffixes : ∀ suffix ∈ a.suffixes,
      suffix ∈ (Registry.ofProfile profile).suffixesFor b.deleteSelection.2.context := by
    rw [hcontext]
    exact Grammar.suffixes_allowed (Grammar.parseTokens_sound hts).1 rfl
  rw [outcome_wrap hdefault hread]
  obtain ⟨-, t, -, hinsert⟩ | ⟨hsize, e, hinsert⟩ :=
    outcome_insertExpansion hisSome hsuffixes (some selection) <;> rw [hinsert]
  · exact .inl ⟨t, _, rfl⟩
  · exact .inr ⟨hsize, e, _, rfl⟩

/-- Wrapping fails in ways that a session reports, in that the context cannot wrap or the text is no
abbreviation, or else because something is too large. -/
theorem isReported_or_tooLarge_of_outcome_wrap {profile : Profile} {b after : Buffer}
    {selection abbreviation : Text} {e : Failure}
    (h : (wrap (.fixed (.ofProfile profile)) selection abbreviation).outcome b =
      (.error e, after)) :
    Session.isReported e = true ∨
      e.OfSize ∧ ∃ ts, Token.read abbreviation = .ok ts ∧ Grammar.TooLarge ts := by
  cases hdefault : (Registry.ofProfile profile).defaultGenerator? b.context true with
  | none =>
    unfold wrap at h
    rw [outcome_fixed, hdefault] at h
    obtain rfl : Failure.selection (.cannotWrap b.context) = e :=
      Except.error.inj (Prod.mk.inj h).1
    exact .inl rfl
  | some chosen =>
    cases hread : (grammar (.ofProfile profile) chosen.1 b).parse abbreviation with
    | error cause =>
      unfold wrap at h
      rw [outcome_fixed, hdefault] at h
      dsimp only at h
      rw [hread] at h
      obtain rfl : Failure.read cause = e := Except.error.inj (Prod.mk.inj h).1
      cases cause with
      | lex | parse => exact .inl rfl
      | size e => exact .inr ⟨.numeral e, Grammar.tooLarge_of_size hread⟩
    | ok a =>
      obtain ⟨t, other, hok⟩ | ⟨hsize, e', other, hfails⟩ :=
        outcome_wrap_of_read hdefault hread selection
      · exact nomatch hok.symm.trans h
      · obtain rfl := Except.error.inj (Prod.mk.inj (h.symm.trans hfails)).1
        exact .inr ⟨.copies e', Grammar.tooLarge_of_oversized hread hsize⟩

end Editing

namespace Session

variable {s : Session} {profile : Profile}

/-- Without a text to wrap, an abbreviation is expanded in a buffer that holds nothing else. -/
theorem value_template_of_none (hprofile : s.environment.profile = .ok profile)
    (hwrap : s.wrapText = none) (t : Text) :
    (s.template t).value = ((Editing.expand (.fixed (.ofProfile profile)) t).outcome
      (.atEnd t (some s.context) s.catalog)).1 := by
  unfold template
  rw [Logged.value_bind, Registry.value_ofEnvironment hprofile]
  dsimp only
  rw [hwrap]
  rfl

/-- With a text to wrap, that is all of the buffer, and it is selected. -/
theorem value_template_of_some (hprofile : s.environment.profile = .ok profile) {selection : Text}
    (hwrap : s.wrapText = some selection) (t : Text) :
    (s.template t).value = ((Editing.wrap (.fixed (.ofProfile profile)) selection t).outcome
      (.allSelected selection (some s.context) s.catalog)).1.map some := by
  unfold template
  rw [Logged.value_bind, Registry.value_ofEnvironment hprofile]
  dsimp only
  rw [hwrap]
  rfl

/-- In an environment that sets a profile, an abbreviation fails in ways that a session reports, or
because something is too large. -/
theorem isReported_or_tooLarge_of_template (hprofile : s.environment.profile = .ok profile)
    {t : Text} {failure : Failure} (h : (s.template t).value = .error failure) :
    isReported failure = true ∨
      failure.OfSize ∧ ∃ ts, Token.read t = .ok ts ∧ Grammar.TooLarge ts := by
  cases hwrap : s.wrapText with
  | none =>
    rw [value_template_of_none hprofile hwrap] at h
    exact .inr (Editing.tooLarge_of_outcome_expand (Prod.ext h rfl))
  | some selection =>
    rw [value_template_of_some hprofile hwrap] at h
    generalize houtcome : (Editing.wrap (.fixed (.ofProfile profile)) selection t).outcome
      (.allSelected selection (some s.context) s.catalog) = outcome at h
    obtain ⟨e | template, after⟩ := outcome
    · obtain rfl : e = failure := Except.error.inj h
      exact Editing.isReported_or_tooLarge_of_outcome_wrap houtcome
    · exact nomatch h

/-- A failure because something is too large is not reported. -/
theorem isReported_of_ofSize {failure : Failure} (h : failure.OfSize) :
    isReported failure = false := by
  cases h <;> rfl

/-- A reply ends the session, because something in the abbreviation is too large. -/
structure EndsAt (t : Text) (reply : Reply) : Prop where
  raised : ∃ e : Failure, e.OfSize ∧ reply.raised = some e
  next : reply.next = none
  tooLarge : ∃ ts, Token.read t = .ok ts ∧ Grammar.TooLarge ts

/-- An abbreviation is answered, and the session goes on as it was, or something in the abbreviation
is too large, and the session ends. -/
theorem abbreviation_lasts_or_ends (hprofile : s.environment.profile = .ok profile) (t : Text) :
    ((s.abbreviation t).raised = none ∧ (s.abbreviation t).next = some s) ∨
      EndsAt t (s.abbreviation t) := by
  unfold abbreviation
  dsimp only
  split
  · exact .inl ⟨rfl, rfl⟩
  · split <;> exact .inl ⟨rfl, rfl⟩
  · next failure hfailure =>
    obtain hreported | ⟨hsize, hlarge⟩ := isReported_or_tooLarge_of_template hprofile hfailure
    · rw [if_pos hreported]
      exact .inl ⟨rfl, rfl⟩
    · rw [if_neg (by rw [isReported_of_ofSize hsize]; exact Bool.false_ne_true)]
      exact .inr ⟨⟨failure, hsize, rfl⟩, rfl, hlarge⟩

end Session

end Abbrev
