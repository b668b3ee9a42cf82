import InterfaceCheck.Proofs.Declaring
import Mathlib.Data.List.Forall2
/-!
# Validation only filters

Run the same commands twice, once with validation on in every scope and once with validation off in
every scope, and leave out of the second run exactly the declarations that the first one refused.
The two runs cannot be told apart by what their commands answer, what they report and what the
registries hold, and the second run refuses nothing (`Session.Run.validation_filters`).

The proof is a simulation. Two sessions are related if they agree in all but whether their scopes
validate, and the first validates everywhere, the second nowhere (`Session.Unvalidated`). Commands
that neither declare nor show settings answer alike in related sessions
(`Session.Unvalidated.step?_agrees`), a declaration that is refused leaves them related
(`Session.Unvalidated.refused`), and one that is accepted makes the same interface in both
(`Session.Unvalidated.accepted`).
-/

namespace InterfaceCheck

open Value

/-- The command with validation on or off in the scope that it opens. -/
def Command.withDebug (debug : Bool) : Command → Command
  | .openScope scope symbols document _ strictArity =>
    .openScope scope symbols document (some debug) strictArity
  | command => command

/-- Whether the answer to the command shows the settings of a scope. -/
def Command.showsSettings : Command → Bool
  | .openScope _ _ _ _ _ | .settingsOf _ | .summarizeScope _ => true
  | _ => false

/-! ## Related results -/

section Rel

variable {α β γ : Type} {r : β → γ → Prop}

/-- Binding related continuations to one optional value gives related results. -/
theorem rel_bind {f : α → Option β} {g : α → Option γ} (o : Option α)
    (h : ∀ v, Option.Rel r (f v) (g v)) : Option.Rel r (o.bind f) (o.bind g) := by
  cases o with
  | none => exact .none
  | some v => exact h v

theorem exists_of_rel_some {x : β} {o : Option γ} (h : Option.Rel r (some x) o) :
    ∃ y, o = some y ∧ r x y := by
  cases h with
  | some hr => exact ⟨_, rfl, hr⟩

/-- What related results have in common shows in both. -/
theorem map_eq_of_rel {o : Option β} {o' : Option γ} {f : β → α} {g : γ → α}
    (h : Option.Rel r o o') (hr : ∀ x y, r x y → g y = f x) : o'.map g = o.map f := by
  cases h with
  | none => rfl
  | some hxy => exact congrArg some (hr _ _ hxy)

end Rel

namespace Session

/-! ## Related sessions -/

/-- `a.Unvalidated b`: `a` validates in every scope and `b` in none, and in all else they agree. -/
structure Unvalidated (a b : Session) : Prop where
  defaults : b.defaults.strictArity = a.defaults.strictArity
  registries : ∀ symbols, b.registry symbols = a.registry symbols
  vars : b.vars = a.vars
  assertions : b.assertions = a.assertions
  symbols : ∀ name, (b.scope name).symbols = (a.scope name).symbols
  strictArity : ∀ name,
    (b.scope name).settings.strictArity = (a.scope name).settings.strictArity
  validated : ∀ name, (a.scope name).settings.debug = true
  unvalidated : ∀ name, (b.scope name).settings.debug = false

theorem unvalidated_initial {defaults : Settings} (h : defaults.debug = true) :
    Unvalidated (initial defaults) (initial { defaults with debug := false }) where
  defaults := rfl
  registries _ := rfl
  vars := rfl
  assertions := rfl
  symbols _ := rfl
  strictArity _ := rfl
  validated _ := h
  unvalidated _ := rfl

namespace Unvalidated

variable {a b : Session}

theorem assertionsOf (h : a.Unvalidated b) (scope : Option String) :
    b.assertionsOf scope = a.assertionsOf scope := by
  cases scope with
  | none => exact h.assertions
  | some _ => rfl

theorem withResult (h : a.Unvalidated b) (target : Option String) (value : Option Value) :
    (a.withResult target value).Unvalidated (b.withResult target value) := by
  unfold Session.withResult
  split
  · refine { h with vars := ?_ }
    show b.vars.insert _ _ = a.vars.insert _ _
    rw [h.vars]
  · exact h

theorem withRegistry (h : a.Unvalidated b) (symbols : String) (r : Registry) :
    (a.withRegistry symbols r).Unvalidated (b.withRegistry symbols r) := by
  refine { h with registries := fun other => ?_ }
  rw [registry_withRegistry, registry_withRegistry, h.registries]

theorem withAssertions (h : a.Unvalidated b) (table : Assertions) :
    Unvalidated { a with assertions := table } { b with assertions := table } :=
  { h with assertions := rfl }

/-- Writing a registry back as it was changes nothing. -/
theorem withSame (h : a.Unvalidated b) (symbols : String) :
    (a.withRegistry symbols (a.registry symbols)).Unvalidated b := by
  refine { h with registries := fun other => ?_ }
  rw [registry_withRegistry, h.registries]
  by_cases ho : other = symbols
  · rw [if_pos ho, ho]
  · rw [if_neg ho]

end Unvalidated

/-! ## Commands that do not declare -/

/-- Two outcomes agree: they answer and report alike and lead to related sessions. -/
structure Outcome.Agrees (x y : Outcome) : Prop where
  reply : y.reply = x.reply
  events : y.events = x.events
  session : x.session.Unvalidated y.session

namespace Unvalidated

variable {a b : Session}

/-- **Where nothing is declared and no settings are shown, related sessions answer alike.** -/
theorem step?_agrees (h : a.Unvalidated b) {command : Command}
    (hshows : command.showsSettings = false) (hdeclares : declarer? command = none) :
    Option.Rel Outcome.Agrees (a.step? command) (b.step? command) := by
  cases command with
  | assign target value =>
    simp only [step?, h.vars]
    exact rel_bind _ fun v => .some ⟨rfl, rfl, h.withResult (some target) (some v)⟩
  | describe _ _ | readConfig _ | asInterface _ =>
    simp only [step?, h.vars]
    exact rel_bind _ fun v => .some ⟨rfl, rfl, h⟩
  | register symbols name value =>
    simp only [step?, h.vars, h.registries]
    exact rel_bind _ fun v => .some ⟨rfl, rfl, h.withRegistry symbols _⟩
  | resolve symbols name target =>
    simp only [step?, h.registries]
    exact .some ⟨rfl, rfl, h.withResult target _⟩
  | contains _ _ | listSymbols _ =>
    simp only [step?, h.registries]
    exact .some ⟨rfl, rfl, h⟩
  | symbolsOf _ =>
    simp only [step?, h.registries, h.symbols]
    exact .some ⟨rfl, rfl, h⟩
  | lookup scope name target =>
    simp only [step?, h.registries, h.symbols]
    exact .some ⟨rfl, rfl, h.withResult target _⟩
  | checkImplements route target interface =>
    simp only [step?, h.vars]
    exact rel_bind _ fun t => rel_bind _ fun v => rel_bind _ fun o => .some ⟨rfl, rfl, h⟩
  | checkNamed scope name target =>
    simp only [step?, h.vars, h.registries, h.symbols]
    exact rel_bind _ fun t => .some ⟨rfl, rfl, h⟩
  | newTable builtin interfaces =>
    exact .some ⟨rfl, rfl, h.withAssertions _⟩
  | addInterfaceAssertions =>
    simp only [step?, h.assertions]
    exact .some ⟨rfl, rfl, h.withAssertions _⟩
  | addAssertion name criterion template =>
    simp only [step?, h.assertions]
    exact .some ⟨rfl, rfl, h.withAssertions _⟩
  | summarizeTable _ | hasAssertion _ _ | templateOf _ _ =>
    simp only [step?, h.assertionsOf]
    exact .some ⟨rfl, rfl, h⟩
  | checkAssertion scope name args =>
    simp only [step?, h.vars, h.assertionsOf]
    exact rel_bind _ fun vs => .some ⟨rfl, rfl, h⟩
  | openScope _ _ _ _ _ | settingsOf _ | summarizeScope _ => cases hshows
  | declare _ _ _ _ | declareValue _ _ _ _ => cases hdeclares

end Unvalidated

/-! ## Declarations -/

/-- Carrying out the same written result keeps sessions related. -/
theorem Unvalidated.declared {a b : Session} (h : a.Unvalidated b) (symbols : String)
    (target : Option String) (w : Written (Except Refusal (Descriptor Value))) :
    (a.declared symbols target w).Agrees (b.declared symbols target w) := by
  have hafter := h.withRegistry symbols w.registry
  unfold Session.declared
  cases w.answer with
  | error refusal => exact ⟨rfl, rfl, hafter⟩
  | ok d => exact ⟨rfl, rfl, hafter.withResult target _⟩

namespace Step.Declaration

variable {a b : Session} {command : Command} {outcome : Outcome} {scope name : String}
  {source : Source}

/-- Whether a command runs as a declaration depends on the variables alone. -/
theorem of_vars (h : Step.Declaration ⟨a, command, outcome⟩ scope name source)
    (hvars : b.vars = a.vars) (outcome' : Outcome) :
    Step.Declaration ⟨b, command, outcome'⟩ scope name source := by
  cases h with
  | config hc hm he hp => exact .config hc (hvars ▸ hm) (hvars ▸ he) (hvars ▸ hp)
  | value hc hv => exact .value hc (hvars ▸ hv)

/-- **A declaration that validation accepts** has the same outcome without validation. -/
theorem accepted (hd : Step.Declaration ⟨a, command, outcome⟩ scope name source)
    (h : a.Unvalidated b) (hstep : a.step? command = some outcome)
    (haccepted : outcome.reply.isRefusal = false) :
    ∃ outcome', b.step? command = some outcome' ∧ outcome.Agrees outcome' := by
  have hnone : (a.scope scope).settings.refusal? name source = none := by
    cases hd.settled hstep with
    | refused refusal _ _ hreply _ _ _ =>
      rw [show outcome.reply = .refused refusal from hreply] at haccepted
      cases haccepted
    | accepted _ hnone _ _ _ _ => exact hnone
  have hnone' := Settings.refusal?_eq_none (h.validated scope) hnone (b.scope scope).settings
  -- both scopes write the same: the interface depends on strictness only, in which they agree
  have hsame : (b.registry (b.scope scope).symbols).declareFrom (b.scope scope).settings name
      source = (a.registry (a.scope scope).symbols).declareFrom (a.scope scope).settings name
        source := by
    rw [Registry.declareFrom_of_accepted hnone', Registry.declareFrom_of_accepted hnone,
      h.symbols, h.registries]
    unfold Registry.declaredBy
    rw [h.strictArity]
  have ha := hd.step?_eq
  have hb := (hd.of_vars h.vars outcome).step?_eq
  dsimp only at ha hb
  rw [hsame, h.symbols] at hb
  refine ⟨_, hb, ?_⟩
  rw [Option.some.inj (hstep.symm.trans ha)]
  exact h.declared _ _ _

/-- **A declaration that validation refuses** leaves sessions related. -/
theorem refused (hd : Step.Declaration ⟨a, command, outcome⟩ scope name source)
    (h : a.Unvalidated b) (hstep : a.step? command = some outcome)
    (hrefused : outcome.reply.isRefusal = true) : outcome.session.Unvalidated b := by
  cases hd.settled hstep with
  | refused refusal _ hr _ _ _ _ =>
    obtain ⟨event, -, hw⟩ := Registry.declareFrom_of_refused hr
      (a.registry (a.scope scope).symbols)
    have ha := hd.step?_eq
    dsimp only at ha
    rw [hw] at ha
    rw [Option.some.inj (hstep.symm.trans ha)]
    exact h.withSame (a.scope scope).symbols
  | accepted d _ _ hreply _ _ =>
    rw [show outcome.reply = .interface (some d) from hreply] at hrefused
    cases hrefused

end Step.Declaration

/-! ## Commands that show settings -/

theorem scope_insert (s : Session) (name other : String) (new : Scope) :
    scope { s with scopes := s.scopes.insert name new } other =
      if other = name then new else s.scope other := by
  unfold scope
  by_cases ho : other = name
  · rw [if_pos ho, ho, Table.get?_insert_self]
    rfl
  · rw [if_neg ho, Table.get?_insert_of_ne _ ho]

/-- Opening a scope with validation here and without it there keeps sessions related. -/
theorem Unvalidated.openScope {a b : Session} (h : a.Unvalidated b) (name symbols : String)
    (strictArity : Bool) :
    Unvalidated { a with scopes := a.scopes.insert name ⟨symbols, true, strictArity⟩ }
      { b with scopes := b.scopes.insert name ⟨symbols, false, strictArity⟩ } := by
  -- what relates the new scopes and all old ones relates all scopes afterwards
  have hscopes : ∀ P : Scope → Scope → Prop,
      P ⟨symbols, true, strictArity⟩ ⟨symbols, false, strictArity⟩ →
      (∀ other, P (a.scope other) (b.scope other)) → ∀ other,
        P (scope { a with scopes := a.scopes.insert name ⟨symbols, true, strictArity⟩ } other)
          (scope { b with scopes := b.scopes.insert name ⟨symbols, false, strictArity⟩ }
            other) := by
    intro P hnew hold other
    rw [scope_insert, scope_insert]
    by_cases ho : other = name
    · rw [if_pos ho, if_pos ho]
      exact hnew
    · rw [if_neg ho, if_neg ho]
      exact hold other
  refine { h with symbols := ?_, strictArity := ?_, validated := ?_, unvalidated := ?_ }
  · exact hscopes (fun x y => y.symbols = x.symbols) rfl h.symbols
  · exact hscopes (fun x y => y.settings.strictArity = x.settings.strictArity) rfl h.strictArity
  · exact hscopes (fun x _ => x.settings.debug = true) rfl h.validated
  · exact hscopes (fun _ y => y.settings.debug = false) rfl h.unvalidated

/-- What a document says about arities does not depend on whether validation is the default. -/
theorem read_strictArity (L : Toml.Library) {defaults defaults' : Settings}
    (h : defaults'.strictArity = defaults.strictArity) (document : String) :
    (Settings.read L defaults' document).map (·.strictArity) =
      (Settings.read L defaults document).map (·.strictArity) := by
  unfold Settings.read
  cases L.entries document with
  | error e => rfl
  | ok entries =>
    dsimp only
    cases entries.foldlM (Settings.Given.add L) {} with
    | error e => rfl
    | ok given => exact congrArg (fun d => Except.ok (given.strictArity.getD d)) h

/-- Settings for which validation is chosen depend on the defaults for arities alone. -/
theorem settingsFor_debug (s : Session) (document : Option String) (on : Bool)
    (strictArity : Option Bool) :
    s.settingsFor document (some on) strictArity =
      ((document.elim (.ok s.defaults) (Settings.ofToml · s.defaults)).map (·.strictArity)).map
        fun strict => ⟨on, strictArity.getD strict⟩ := by
  unfold settingsFor
  cases document.elim (.ok s.defaults) (Settings.ofToml · s.defaults) <;> rfl

/-- A command that shows settings reports nothing and is not refused, and it keeps sessions
related if validation is turned on in the one and off in the other. -/
theorem Unvalidated.step?_shows {a b : Session} (h : a.Unvalidated b) {command : Command}
    (hshows : command.showsSettings = true) (hdebug : command.withDebug true = command)
    {outcome : Outcome} (hstep : a.step? command = some outcome) :
    ∃ outcome', b.step? (command.withDebug false) = some outcome' ∧
      outcome'.reply.isRefusal = false ∧ outcome'.events = outcome.events ∧
      outcome.session.Unvalidated outcome'.session := by
  cases command with
  | settingsOf _ | summarizeScope _ =>
    cases hstep
    exact ⟨_, rfl, rfl, rfl, h⟩
  | openScope name symbols document debug strictArity =>
    obtain rfl : some true = debug := by
      injection hdebug
    have hbase : (document.elim (.ok b.defaults) (Settings.ofToml · b.defaults)).map
          (·.strictArity) =
        (document.elim (.ok a.defaults) (Settings.ofToml · a.defaults)).map (·.strictArity) := by
      cases document with
      | none => exact congrArg Except.ok h.defaults
      | some document => exact read_strictArity .plain h.defaults document
    simp only [step?, Command.withDebug, settingsFor_debug, hbase] at hstep ⊢
    cases hstrict : (document.elim (.ok a.defaults) (Settings.ofToml · a.defaults)).map
        (·.strictArity) with
    | error e =>
      rw [hstrict] at hstep
      cases hstep
      exact ⟨_, rfl, rfl, rfl, h⟩
    | ok strict =>
      rw [hstrict] at hstep
      cases hstep
      exact ⟨_, rfl, rfl, rfl, h.openScope name symbols _⟩
  | _ => cases hshows

/-! ## Whole runs -/

/-- `x.Follows y`: without validation `y` does what `x` did with it. -/
structure Step.Follows (x y : Step) : Prop where
  command : y.command = x.command.withDebug false
  /-- No scope validates. -/
  unvalidated : ∀ name, (y.before.scope name).settings.debug = false
  accepted : y.outcome.reply.isRefusal = false
  reply : x.command.showsSettings = false → y.outcome.reply = x.outcome.reply
  events : y.outcome.events = x.outcome.events
  /-- After the two steps the registries are the same. -/
  registries : ∀ symbols,
    y.outcome.session.registry symbols = x.outcome.session.registry symbols

/-- The steps that were not refused. -/
def accepted (steps : List Step) : List Step :=
  steps.filter fun step => !step.outcome.reply.isRefusal

/-- **One step** that is not refused can be followed in a related session. -/
theorem Unvalidated.follow {a b : Session} (h : a.Unvalidated b) {command : Command}
    {outcome : Outcome} (hdebug : command.withDebug true = command)
    (hstep : a.step? command = some outcome) (haccepted : outcome.reply.isRefusal = false) :
    ∃ outcome', b.step? (command.withDebug false) = some outcome' ∧
      Step.Follows ⟨a, command, outcome⟩ ⟨b, command.withDebug false, outcome'⟩ ∧
      outcome.session.Unvalidated outcome'.session := by
  cases hshows : command.showsSettings with
  | true =>
    obtain ⟨outcome', hstep', haccepted', hevents, hsession⟩ := h.step?_shows hshows hdebug hstep
    refine ⟨outcome', hstep', ⟨rfl, h.unvalidated, haccepted', fun hno => ?_, hevents,
      hsession.registries⟩, hsession⟩
    rw [hshows] at hno
    cases hno
  | false =>
    -- only the commands that show settings look at whether validation is asked for
    have hsame : command.withDebug false = command := by
      cases command <;> first | rfl | cases hshows
    obtain ⟨outcome', hstep', hagrees⟩ : ∃ outcome', b.step? command = some outcome' ∧
        outcome.Agrees outcome' := by
      cases hdeclarer : declarer? command with
      | none =>
        have hrel := h.step?_agrees hshows hdeclarer
        rw [hstep] at hrel
        exact exists_of_rel_some hrel
      | some scope =>
        obtain ⟨name, source, hd⟩ := exists_declaration hstep hdeclarer
        exact hd.accepted h hstep haccepted
    rw [hsame]
    refine ⟨outcome', hstep', ⟨hsame.symm, h.unvalidated, ?_, fun _ => hagrees.reply,
      hagrees.events, hagrees.session.registries⟩, hagrees.session⟩
    show outcome'.reply.isRefusal = false
    rw [hagrees.reply]
    exact haccepted

/-- **Any steps** can be followed in a related session, with the refused ones left out. -/
theorem Unvalidated.followed {a' : Session} {steps : List Step} :
    ∀ {a b : Session}, a.Unvalidated b → Leads a steps a' →
      (∀ step ∈ steps, step.command.withDebug true = step.command) →
      ∃ steps' b', Leads b steps' b' ∧ List.Forall₂ Step.Follows (accepted steps) steps' ∧
        a'.Unvalidated b' := by
  induction steps with
  | nil =>
    intro a b h hleads _
    obtain rfl : a = a' := hleads
    exact ⟨[], b, rfl, .nil, h⟩
  | cons step steps ih =>
    intro a b h hleads hdebug
    obtain ⟨before, command, outcome⟩ := step
    obtain ⟨rfl, hstep, hleads⟩ := hleads
    have hrest : ∀ step ∈ steps, step.command.withDebug true = step.command :=
      fun step hmem => hdebug step (List.mem_cons_of_mem _ hmem)
    cases hrefusal : outcome.reply.isRefusal with
    | true =>
      obtain ⟨scope, hscope⟩ := exists_declarer_of_refusal hstep hrefusal
      obtain ⟨name, source, hd⟩ := exists_declaration hstep hscope
      obtain ⟨steps', b', hsteps, hfollows, h'⟩ :=
        ih (hd.refused h hstep hrefusal) hleads hrest
      refine ⟨steps', b', hsteps, ?_, h'⟩
      unfold accepted at hfollows ⊢
      rw [List.filter_cons_of_neg (by simp [hrefusal])]
      exact hfollows
    | false =>
      obtain ⟨outcome', hstep', hfollow, hafter⟩ :=
        h.follow (hdebug _ List.mem_cons_self) hstep hrefusal
      obtain ⟨steps', b', hsteps, hfollows, h'⟩ := ih hafter hleads hrest
      refine ⟨⟨b, command.withDebug false, outcome'⟩ :: steps', b', ⟨rfl, hstep', hsteps⟩, ?_, h'⟩
      unfold accepted at hfollows ⊢
      rw [List.filter_cons_of_pos (by simp [hrefusal])]
      exact .cons hfollow hfollows

/-- **Validation only filters.** Take any run in which every scope validates, those that are opened
and those that are not. Then:

1. the declarations that it refused left all registries as they were;
2. there is a run of the other commands, in their order, in which no scope validates. None of its
   commands is refused, and each of them answers (unless it shows settings) and reports what it did
   in the first run and leaves the same registries;
3. after the two runs every look-up, listing and check answers and reports the same. -/
theorem Run.validation_filters {past : List Step} {a : Session} (h : Run past a)
    (hdefaults : a.defaults.debug = true)
    (hdebug : ∀ step ∈ past, step.command.withDebug true = step.command) :
    (∀ step ∈ past, step.outcome.reply.isRefusal = true → ∀ symbols,
      step.outcome.session.registry symbols = step.before.registry symbols) ∧
    ∃ past' b, Run past' b ∧ List.Forall₂ Step.Follows (accepted past) past' ∧
      (∀ symbols, b.registry symbols = a.registry symbols) ∧
      ∀ command, command.showsSettings = false → declarer? command = none →
        (b.step? command).map (fun o => (o.reply, o.events)) =
          (a.step? command).map (fun o => (o.reply, o.events)) := by
  have hleads := run_iff_leads.mp h
  constructor
  · intro step hmem hrefusal symbols
    have hstep := hleads.step_of_mem step hmem
    obtain ⟨scope, hscope⟩ := exists_declarer_of_refusal hstep hrefusal
    obtain ⟨name, source, hd⟩ := exists_declaration hstep hscope
    cases hd.settled hstep with
    | refused _ _ _ _ _ _ hregistry => exact hregistry symbols
    | accepted d _ _ hreply _ _ =>
      rw [hreply] at hrefusal
      cases hrefusal
  · obtain ⟨past', b, hrun, hfollows, hrelated⟩ :=
      (unvalidated_initial hdefaults).followed hleads hdebug
    refine ⟨past', b, (Run.start _).append hrun, hfollows, hrelated.registries, ?_⟩
    intro command hshows hdeclarer
    refine map_eq_of_rel (hrelated.step?_agrees hshows hdeclarer) fun x y hagrees => ?_
    rw [hagrees.reply, hagrees.events]

/-- Of four declarations two are refused, one for its name and one for its configuration. The other
two go through scopes that differ in strictness, and the run without validation follows them. -/
theorem Run.validation_filters_refusals :
    ∃ past a, Run past a ∧ a.defaults.debug = true ∧
      (∀ step ∈ past, step.command.withDebug true = step.command) ∧
      past.map (·.outcome.reply.isRefusal) = [false, false, true, false, true, false] ∧
      ∃ past' b, Run past' b ∧ List.Forall₂ Step.Follows (accepted past) past' ∧
        ∀ symbols, b.registry symbols = a.registry symbols := by
  obtain ⟨past, a, h, hdefaults, hdebug, hrefused⟩ : ∃ past a, Run past a ∧
      a.defaults.debug = true ∧ (∀ step ∈ past, step.command.withDebug true = step.command) ∧
      past.map (·.outcome.reply.isRefusal) = [false, false, true, false, true, false] := by
    have h : Run
        [⟨_, .openScope "strict" "shared" none (some true) none, _⟩,
          ⟨_, .openScope "loose" "shared" none (some true) (some false), _⟩,
          ⟨_, .declare "strict" "2d.Shape" ⟨[], none, none⟩ none, _⟩,
          ⟨_, .declare "strict" "geo.Shape" ⟨[("area", .function ⟨0, false⟩)], none, none⟩ none, _⟩,
          ⟨_, .declareValue "loose" "geo.Disc" (.array []) none, _⟩,
          ⟨_, .declareValue "loose" "geo.Shape" (.map [("events", .null)]) (some "shape"), _⟩] _ :=
      (Run.start (.standard true)).append
        ⟨rfl, rfl, rfl, rfl, rfl, rfl, rfl, rfl, rfl, rfl, rfl, rfl, rfl⟩
    refine ⟨_, _, h, rfl, fun step hmem => ?_, rfl⟩
    simp only [List.mem_cons, List.not_mem_nil, or_false] at hmem
    rcases hmem with rfl | rfl | rfl | rfl | rfl | rfl <;> rfl
  obtain ⟨past', b, hrun, hfollows, hregistries, -⟩ := (h.validation_filters hdefaults hdebug).2
  exact ⟨past, a, h, hdefaults, hdebug, hrefused, past', b, hrun, hfollows, hregistries⟩

end Session

end InterfaceCheck
