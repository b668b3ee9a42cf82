import InterfaceCheck.Session
/-!
# Runs of a session

A run starts from a session in which nothing has happened, whatever its default settings are, and
takes one command after the other. `Session.Run past s` keeps the whole past: which command ran in
which session with which outcome. So "earlier in the run" can be said of every step. The runs are
exactly the executions of `Session.run?` (`Session.run?_eq_some_iff`).
-/

namespace InterfaceCheck

namespace Session

/-- A command that has run, the session that it ran in and what came of it. -/
structure Step where
  before : Session
  command : Command
  outcome : Outcome

/-- `Run past s`: the steps of `past`, oldest first, lead from an initial session to `s`. -/
inductive Run : List Step → Session → Prop where
  | start (defaults : Settings) : Run [] (initial defaults)
  | next {past : List Step} {s : Session} {command : Command} {outcome : Outcome} :
      Run past s → s.step? command = some outcome →
      Run (past ++ [⟨s, command, outcome⟩]) outcome.session

/-- `Leads s steps s'`: the steps lead from one session to another. -/
def Leads : Session → List Step → Session → Prop
  | s, [], s' => s = s'
  | s, step :: steps, s' =>
    step.before = s ∧ s.step? step.command = some step.outcome ∧
      Leads step.outcome.session steps s'

theorem leads_append :
    ∀ {steps later : List Step} {s s' : Session},
      Leads s (steps ++ later) s' ↔ ∃ middle, Leads s steps middle ∧ Leads middle later s'
  | [], _, s, _ => by
    constructor
    · exact fun h => ⟨s, rfl, h⟩
    · rintro ⟨_, rfl, h⟩
      exact h
  | step :: steps, later, s, s' => by
    constructor
    · rintro ⟨hb, hstep, h⟩
      obtain ⟨middle, hsteps, hlater⟩ := leads_append.mp h
      exact ⟨middle, ⟨hb, hstep, hsteps⟩, hlater⟩
    · rintro ⟨middle, ⟨hb, hstep, hsteps⟩, hlater⟩
      exact ⟨hb, hstep, leads_append.mpr ⟨middle, hsteps, hlater⟩⟩

/-- Every step on the way is a step of the session that it ran in. -/
theorem Leads.step_of_mem {steps : List Step} {s s' : Session} (h : Leads s steps s') :
    ∀ step ∈ steps, step.before.step? step.command = some step.outcome := by
  induction steps generalizing s with
  | nil =>
    intro step hmem
    cases hmem
  | cons first rest ih =>
    obtain ⟨hb, hstep, hrest⟩ := h
    intro step hmem
    rcases List.mem_cons.mp hmem with rfl | hmem
    · rw [hb]
      exact hstep
    · exact ih hrest step hmem

/-- A run goes on with the steps that lead on from its session. -/
theorem Run.append {past : List Step} {s s' : Session} (h : Run past s) :
    ∀ {steps : List Step}, Leads s steps s' → Run (past ++ steps) s'
  | [], hs => by
    obtain rfl : s = s' := hs
    rwa [List.append_nil]
  | ⟨_, command, outcome⟩ :: steps, ⟨hb, hstep, hs⟩ => by
    subst hb
    have := (h.next hstep).append hs
    rwa [List.append_assoc] at this

theorem Leads.snoc {s s' : Session} {command : Command} {outcome : Outcome} :
    ∀ {steps : List Step} {s₀ : Session}, Leads s₀ steps s → s.step? command = some outcome →
      outcome.session = s' → Leads s₀ (steps ++ [⟨s, command, outcome⟩]) s'
  | [], _, h, hstep, hs' => by
    subst h
    exact ⟨rfl, hstep, hs'⟩
  | _ :: _, _, ⟨hb, hfirst, h⟩, hstep, hs' => ⟨hb, hfirst, h.snoc hstep hs'⟩

/-! ### Default settings -/

@[simp] theorem defaults_withResult (s : Session) (name : Option String) (value : Option Value) :
    (s.withResult name value).defaults = s.defaults := by
  unfold withResult
  split <;> rfl

@[simp] theorem defaults_declared (s : Session) (symbols : String) (target : Option String)
    (w : Written (Except Refusal (Descriptor Value))) :
    (s.declared symbols target w).session.defaults = s.defaults := by
  unfold declared
  cases w.answer with
  | error refusal => rfl
  | ok d => exact defaults_withResult _ target _

/-- **No command changes the default settings** of its session. -/
theorem step?_defaults {s : Session} {command : Command} {outcome : Outcome}
    (h : s.step? command = some outcome) : outcome.session.defaults = s.defaults := by
  cases command with
  | assign _ _ | describe _ _ | register _ _ _ | readConfig _ | asInterface _
  | checkNamed _ _ _ | checkAssertion _ _ _ =>
    obtain ⟨v, -, h⟩ := Option.bind_eq_some_iff.mp h
    cases h
    rfl
  | checkImplements route target interface =>
    obtain ⟨t, -, h⟩ := Option.bind_eq_some_iff.mp h
    obtain ⟨v, -, h⟩ := Option.bind_eq_some_iff.mp h
    obtain ⟨o, -, h⟩ := Option.bind_eq_some_iff.mp h
    cases h
    rfl
  | resolve _ _ target | lookup _ _ target =>
    cases h
    exact defaults_withResult s target _
  | declare scope interface config target =>
    obtain ⟨members, -, h⟩ := Option.bind_eq_some_iff.mp h
    obtain ⟨events, -, h⟩ := Option.bind_eq_some_iff.mp h
    obtain ⟨properties, -, h⟩ := Option.bind_eq_some_iff.mp h
    cases h
    exact defaults_declared s _ target _
  | declareValue scope interface config target =>
    obtain ⟨v, -, h⟩ := Option.bind_eq_some_iff.mp h
    cases h
    exact defaults_declared s _ target _
  | openScope name symbols document debug strictArity =>
    unfold step? at h
    dsimp only at h
    split at h <;> cases h <;> rfl
  | _ =>
    cases h
    rfl

theorem Leads.defaults {steps : List Step} {s s' : Session} (h : Leads s steps s') :
    s'.defaults = s.defaults := by
  induction steps generalizing s with
  | nil => rw [h]
  | cons step steps ih =>
    obtain ⟨-, hstep, h⟩ := h
    rw [ih h, step?_defaults hstep]

/-- The runs are the sequences of steps that lead on from an initial session. -/
theorem run_iff_leads {past : List Step} {s : Session} :
    Run past s ↔ Leads (initial s.defaults) past s := by
  constructor
  · intro h
    induction h with
    | start defaults => rfl
    | next _ hstep ih =>
      rw [step?_defaults hstep]
      exact ih.snoc hstep rfl
  · exact (Run.start s.defaults).append

/-- Every step of a run was taken after an earlier run. -/
theorem Run.of_mem {past : List Step} {s : Session} (h : Run past s) {step : Step}
    (hmem : step ∈ past) :
    (∃ earlier, Run earlier step.before) ∧
      step.before.step? step.command = some step.outcome := by
  have hleads := run_iff_leads.mp h
  refine ⟨?_, hleads.step_of_mem step hmem⟩
  obtain ⟨earlier, later, rfl⟩ := List.append_of_mem hmem
  obtain ⟨middle, hearlier, rfl, -⟩ := leads_append.mp hleads
  exact ⟨earlier, (Run.start s.defaults).append hearlier⟩

/-- An execution is a sequence of steps for its commands with its outcomes. -/
theorem run?_eq_some_iff_leads :
    ∀ {s : Session} {commands : List Command} {outcomes : List Outcome},
      s.run? commands = some outcomes ↔
        ∃ steps s', Leads s steps s' ∧ steps.map (·.command) = commands ∧
          steps.map (·.outcome) = outcomes
  | s, [], outcomes => by
    constructor
    · intro h
      cases h
      exact ⟨[], s, rfl, rfl, rfl⟩
    · rintro ⟨steps, s', -, hc, ho⟩
      obtain rfl := List.map_eq_nil_iff.mp hc
      rw [← ho]
      rfl
  | s, command :: commands, outcomes => by
    constructor
    · intro h
      obtain ⟨outcome, hstep, h⟩ := Option.bind_eq_some_iff.mp h
      obtain ⟨rest, hrest, h⟩ := Option.bind_eq_some_iff.mp h
      obtain ⟨steps, s', hleads, rfl, rfl⟩ := run?_eq_some_iff_leads.mp hrest
      cases h
      exact ⟨⟨s, command, outcome⟩ :: steps, s', ⟨rfl, hstep, hleads⟩, rfl, rfl⟩
    · rintro ⟨steps, s', hleads, hc, rfl⟩
      obtain ⟨step, steps, rfl, rfl, rfl⟩ := List.map_eq_cons_iff.mp hc
      obtain ⟨rfl, hstep, hleads⟩ := hleads
      have hrest := run?_eq_some_iff_leads.mpr ⟨steps, s', hleads, rfl, rfl⟩
      simp [run?, hstep, hrest]

/-- **The runs are the executions**: a list of commands executes with a list of outcomes iff some
run with these default settings has these commands and these outcomes. -/
theorem run?_eq_some_iff {defaults : Settings} {commands : List Command}
    {outcomes : List Outcome} :
    (initial defaults).run? commands = some outcomes ↔
      ∃ past s, Run past s ∧ s.defaults = defaults ∧ past.map (·.command) = commands ∧
        past.map (·.outcome) = outcomes := by
  rw [run?_eq_some_iff_leads]
  constructor
  · rintro ⟨past, s, hleads, hcommands, houtcomes⟩
    have hrun : Run past s := (Run.start defaults).append hleads
    exact ⟨past, s, hrun, hleads.defaults, hcommands, houtcomes⟩
  · rintro ⟨past, s, hrun, rfl, hcommands, houtcomes⟩
    exact ⟨past, s, run_iff_leads.mp hrun, hcommands, houtcomes⟩

end Session

end InterfaceCheck
