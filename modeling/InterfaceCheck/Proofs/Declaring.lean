import InterfaceCheck.Proofs.Effects
/-!
# Steps that declare

Two commands declare interfaces, and `Session.Step.Declaration` says of a step that it ran one of
them, through which scope, under which name and from what. What comes of such a step is settled by
the scope's settings, the name and the source alone (`Session.Step.Declaration.settled`): it is
refused and leaves every registry, or it binds the interface that it answers with.
-/

namespace InterfaceCheck

open Value

namespace Session

/-- `step.Declaration scope name source`: the step declares an interface through the scope, under
the name, from what the expressions of its command have. -/
inductive Step.Declaration (step : Step) : String → String → Source → Prop where
  | config {scope name : String} {config : ConfigExpr} {target : Option String}
      {members : List (String × Value)} {events properties : Option Value} :
      step.command = .declare scope name config target →
      Expr.evalFields? step.before.vars config.members = some members →
      config.events.mapM (·.eval? step.before.vars) = some events →
      config.properties.mapM (·.eval? step.before.vars) = some properties →
      Declaration step scope name (.config ⟨.ofList members, events, properties⟩)
  | value {scope name : String} {config : Expr} {target : Option String} {v : Value} :
      step.command = .declareValue scope name config target →
      config.eval? step.before.vars = some v →
      Declaration step scope name (.value v)

/-- What comes of a declaration through a scope: a refusal, which leaves every registry and is
reported by one event, or a binding in the registry of the scope. -/
inductive Step.Settled (step : Step) (scope : Scope) (name : String) (source : Source) : Prop where
  | refused (refusal : Refusal) (event : Event) :
      scope.settings.refusal? name source = some refusal →
      step.outcome.reply = .refused refusal →
      step.outcome.events = [event] → refusal.ReportedBy source event →
      (∀ symbols, step.outcome.session.registry symbols = step.before.registry symbols) →
      Settled step scope name source
  | accepted (d : Descriptor Value) :
      scope.settings.refusal? name source = none →
      d = Registry.declaredBy scope.settings name source →
      step.outcome.reply = .interface (some d) →
      step.outcome.events = ((step.before.registry scope.symbols).bind d).events →
      (∀ symbols, step.outcome.session.registry symbols = if symbols = scope.symbols then
        ((step.before.registry scope.symbols).bind d).registry
        else step.before.registry symbols) →
      Settled step scope name source

variable {step : Step} {scope name : String} {source : Source}

/-- A command that declares runs as a declaration. -/
theorem exists_declaration {s : Session} {command : Command} {outcome : Outcome}
    (hstep : s.step? command = some outcome) (h : declarer? command = some scope) :
    ∃ name source, Step.Declaration ⟨s, command, outcome⟩ scope name source := by
  cases command with
  | declare scope' name config target =>
    obtain rfl : scope' = scope := Option.some.inj h
    obtain ⟨members, hm, hstep⟩ := Option.bind_eq_some_iff.mp hstep
    obtain ⟨events, he, hstep⟩ := Option.bind_eq_some_iff.mp hstep
    obtain ⟨properties, hp, hstep⟩ := Option.bind_eq_some_iff.mp hstep
    exact ⟨name, _, .config rfl hm he hp⟩
  | declareValue scope' name config target =>
    obtain rfl : scope' = scope := Option.some.inj h
    obtain ⟨v, hv, hstep⟩ := Option.bind_eq_some_iff.mp hstep
    exact ⟨name, _, .value rfl hv⟩
  | _ => cases h

namespace Step.Declaration

theorem declarer (h : step.Declaration scope name source) :
    declarer? step.command = some scope := by
  cases h with
  | config hc _ _ _ => rw [hc]; rfl
  | value hc _ => rw [hc]; rfl

/-- A declaration writes the interface that it answers with, if it does. -/
theorem write? (h : step.Declaration scope name source) :
    step.write? = (replied? step.outcome.reply).map
      fun d => ⟨(step.before.scope scope).symbols, name, ofInterface d⟩ := by
  unfold Step.write?
  cases h with
  | config hc _ _ _ => rw [hc]
  | value hc _ => rw [hc]

/-- A declaration has an outcome, that of its source in the registry of the scope. -/
theorem step?_eq (h : step.Declaration scope name source) :
    step.before.step? step.command =
      some (step.before.declared (step.before.scope scope).symbols (target? step.command)
        ((step.before.registry (step.before.scope scope).symbols).declareFrom
          (step.before.scope scope).settings name source)) := by
  cases h with
  | config hc hm he hp =>
    rw [hc]
    simp only [step?, hm, he, hp]
    rfl
  | value hc hv =>
    rw [hc]
    simp only [step?, hv]
    rfl

/-- **A declaration is settled** by the settings of its scope, its name and its source. -/
theorem settled (h : step.Declaration scope name source)
    (hstep : step.before.step? step.command = some step.outcome) :
    step.Settled (step.before.scope scope) name source := by
  have houtcome := Option.some.inj (hstep.symm.trans h.step?_eq)
  cases hr : (step.before.scope scope).settings.refusal? name source with
  | some refusal =>
    obtain ⟨event, hevent, hw⟩ := Registry.declareFrom_of_refused hr
      (step.before.registry (step.before.scope scope).symbols)
    rw [hw] at houtcome
    refine .refused refusal event hr ?_ ?_ hevent fun symbols => ?_
    · rw [houtcome]; rfl
    · rw [houtcome]; rfl
    · rw [houtcome]
      show (withRegistry _ _ _).registry symbols = _
      rw [registry_withRegistry]
      by_cases hs : symbols = (step.before.scope scope).symbols
      · rw [if_pos hs, hs]
      · rw [if_neg hs]
  | none =>
    rw [Registry.declareFrom_of_accepted hr] at houtcome
    refine .accepted _ hr rfl ?_ ?_ fun symbols => ?_
    · rw [houtcome]; rfl
    · rw [houtcome]; rfl
    · rw [houtcome]
      show (withResult _ _ _).registry symbols = _
      rw [registry_withResult, registry_withRegistry]

end Step.Declaration

/-! ## Declarations that succeed -/

/-- `step.DeclaresInto symbols name d`: the step declares `name` into a registry, with success, and
answers with `d`. -/
def Step.DeclaresInto (step : Step) (symbols name : String) (d : Descriptor Value) : Prop :=
  ∃ scope source, step.Declaration scope name source ∧
    (step.before.scope scope).symbols = symbols ∧ step.outcome.reply = .interface (some d)

/-- A declaration that succeeds writes the interface that it answers with. -/
theorem Step.DeclaresInto.write? {symbols : String} {d : Descriptor Value}
    (h : step.DeclaresInto symbols name d) :
    step.write? = some ⟨symbols, name, ofInterface d⟩ := by
  obtain ⟨scope, source, hd, rfl, hreply⟩ := h
  rw [hd.write?, hreply]
  rfl

end Session

end InterfaceCheck
