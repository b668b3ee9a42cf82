import InterfaceCheck.Proofs.Declaration
import InterfaceCheck.Proofs.Parts
import InterfaceCheck.Proofs.Runs
/-!
# What a step does

A command does one of four things to its session (`Session.Step.Effect`). Most leave the variables
and the registries as they are, some set a variable to what they answer with, a registration binds
a value, and a declaration goes into the registry of its scope. Whatever a step answers with, binds
or declares from was at hand before, in a registry or by an expression (`Session.Offers`).

`Session.step?_effect` goes through the commands once. What holds along every run follows from the
four effects.
-/

namespace InterfaceCheck

open Value

/-! ## What a session offers -/

/-- The values that a configuration carries into the interface. -/
def Config.values (c : Config) : List Value :=
  c.members.values ++ c.events.toList ++ c.properties.toList

/-- The values that a reply gives. Of a registry that is listed these are the values bound in it. -/
def Reply.values : Reply → List Value
  | .value v | .description v _ => [v]
  | .found v => v.toList
  | .interface d => (d.map ofInterface).toList
  | .config c => c.values
  | .symbols r => r.bindings.values
  | _ => []

def Reply.isRefusal : Reply → Bool
  | .refused _ => true
  | _ => false

/-- Reading a value as a configuration takes parts out of it. -/
theorem Config.within_ofValue {v w : Value} (hw : w ∈ (Config.ofValue v).values) : Within w v := by
  rcases List.mem_append.mp hw with hw | hw
  · rcases List.mem_append.mp hw with hw | hw
    · -- the members are the entries of the map under their key, or there are none
      unfold Config.ofValue at hw
      cases hm : (v.get? "members").bind (·.entries?) with
      | none =>
        rw [hm] at hw
        exact (nomatch hw)
      | some entries =>
        rw [hm] at hw
        obtain ⟨m, hmem, hentries⟩ := Option.bind_eq_some_iff.mp hm
        obtain rfl := entries?_eq_some_iff.mp hentries
        exact .step (.step (.refl w) (.entry hw)) (partOf_of_get? hmem)
    · exact .step (.refl w) (partOf_of_get? (Option.mem_toList.mp hw))
  · exact .step (.refl w) (partOf_of_get? (Option.mem_toList.mp hw))

namespace Session

/-- `s.Offers v`: `v` is, or stands inside, a value that a registry holds or an expression has. -/
def Offers (s : Session) (v : Value) : Prop :=
  ∃ w, Within v w ∧
    ((∃ symbols, w ∈ (s.registry symbols).bindings.values) ∨ ∃ e : Expr, e.eval? s.vars = some w)

variable {s : Session}

theorem offers_of_bound {symbols : String} {v : Value}
    (h : v ∈ (s.registry symbols).bindings.values) : s.Offers v :=
  ⟨v, .refl v, .inl ⟨symbols, h⟩⟩

theorem offers_of_eval? {e : Expr} {v : Value} (h : e.eval? s.vars = some v) : s.Offers v :=
  ⟨v, .refl v, .inr ⟨e, h⟩⟩

theorem offers_of_evalFields? {v : Value} {es : List (String × Expr)}
    {fs : List (String × Value)} (h : Expr.evalFields? s.vars es = some fs)
    (hv : v ∈ fs.map (·.2)) : s.Offers v := by
  induction es generalizing fs with
  | nil =>
    cases h
    cases hv
  | cons e es ih =>
    obtain ⟨w, hw, h⟩ := Option.bind_eq_some_iff.mp h
    obtain ⟨fs', hfs, rfl⟩ := Option.map_eq_some_iff.mp h
    rcases List.mem_cons.mp hv with rfl | hv
    · exact offers_of_eval? hw
    · exact ih hfs hv

/-- A configuration that a command writes out carries what its expressions have. -/
theorem offers_config {config : ConfigExpr} {members : List (String × Value)}
    {events properties : Option Value}
    (hm : Expr.evalFields? s.vars config.members = some members)
    (he : config.events.mapM (·.eval? s.vars) = some events)
    (hp : config.properties.mapM (·.eval? s.vars) = some properties) :
    ∀ v ∈ Config.values ⟨.ofList members, events, properties⟩, s.Offers v := by
  have hoption : ∀ {e : Option Expr} {value : Option Value},
      e.mapM (·.eval? s.vars) = some value → ∀ v ∈ value.toList, s.Offers v := by
    intro e value heval v hv
    cases e with
    | none =>
      cases heval
      exact (nomatch hv)
    | some e =>
      obtain ⟨w, hw, hvalue⟩ := Option.map_eq_some_iff.mp heval
      subst hvalue
      obtain rfl := List.mem_singleton.mp hv
      exact offers_of_eval? hw
  intro v hv
  rcases List.mem_append.mp hv with hv | hv
  · rcases List.mem_append.mp hv with hv | hv
    · exact offers_of_evalFields? hm (Table.mem_values_ofList hv)
    · exact hoption he v hv
  · exact hoption hp v hv

theorem offers_singleton {v : Value} (h : s.Offers v) : ∀ w ∈ [v], s.Offers w := by
  intro w hw
  rwa [List.mem_singleton.mp hw]

/-! ## Updates -/

theorem registry_withRegistry (s : Session) (symbols other : String) (r : Registry) :
    (s.withRegistry symbols r).registry other =
      if other = symbols then r else s.registry other := by
  unfold registry withRegistry
  by_cases h : other = symbols
  · rw [if_pos h, h, Table.get?_insert_self]
    rfl
  · rw [if_neg h, Table.get?_insert_of_ne _ h]

theorem registry_withResult (s : Session) (target : Option String) (value : Option Value)
    (other : String) : (s.withResult target value).registry other = s.registry other := by
  unfold withResult
  split <;> rfl

theorem get?_withResult {x : String} {target : Option String} (hx : target ≠ some x)
    (value : Option Value) : (s.withResult target value).vars.get? x = s.vars.get? x := by
  unfold withResult
  split
  · exact Table.get?_insert_of_ne _ (fun h => hx (by rw [h])) _
  · rfl

/-! ## The four effects -/

/-- The variable that a command sets. -/
def target? : Command → Option String
  | .assign target _ => some target
  | .resolve _ _ target | .lookup _ _ target | .declare _ _ _ target
  | .declareValue _ _ _ target => target
  | _ => none

/-- The scope that a command declares through. -/
def declarer? : Command → Option String
  | .declare scope _ _ _ | .declareValue scope _ _ _ => some scope
  | _ => none

/-- A value bound to a name in one of the registries. -/
structure Write where
  symbols : String
  name : String
  value : Value

/-- The interface of a reply that gives one. -/
def replied? : Reply → Option (Descriptor Value)
  | .interface d => d
  | _ => none

/-- The write that a step makes, if it makes one: a registration binds its value, and a
declaration that succeeds binds the interface that it answers with. -/
def Step.write? (step : Step) : Option Write :=
  match step.command with
  | .register symbols name value =>
    (value.eval? step.before.vars).map fun v => ⟨symbols, name, v⟩
  | .declare scope name _ _ | .declareValue scope name _ _ =>
    (replied? step.outcome.reply).map fun d =>
      ⟨(step.before.scope scope).symbols, name, ofInterface d⟩
  | _ => none

/-- The outcome of a registration. -/
def registered (s : Session) (symbols name : String) (v : Value) : Outcome :=
  let w := (s.registry symbols).register name v
  ⟨s.withRegistry symbols w.registry, .insertion w.answer, w.events⟩

/-- What a step does to its session. -/
inductive Step.Effect (step : Step) : Prop where
  /-- Variables and registries stay. -/
  | still :
      step.write? = none → step.outcome.reply.isRefusal = false →
      step.outcome.session.vars = step.before.vars →
      step.outcome.session.registries = step.before.registries →
      (∀ v ∈ step.outcome.reply.values, step.before.Offers v) → Effect step
  /-- What the step answers with goes into the variable that the command names. -/
  | result (value : Option Value) :
      step.write? = none → step.outcome.reply.isRefusal = false →
      step.outcome.session = step.before.withResult (target? step.command) value →
      (∀ v, value = some v → v ∈ step.outcome.reply.values) →
      (∀ v ∈ step.outcome.reply.values, step.before.Offers v) → Effect step
  /-- A value is bound. -/
  | registers (symbols name : String) (v : Value) :
      step.write? = some ⟨symbols, name, v⟩ →
      step.outcome = step.before.registered symbols name v →
      step.before.Offers v → Effect step
  /-- An interface is declared, with success or without. -/
  | declares (name : String) (scope : Scope) (source : Source) :
      (∃ declarer, declarer? step.command = some declarer ∧
        step.before.scope declarer = scope) →
      step.write? = (replied? step.outcome.reply).map
        (fun d => ⟨scope.symbols, name, ofInterface d⟩) →
      step.outcome = step.before.declared scope.symbols (target? step.command)
        ((step.before.registry scope.symbols).declareFrom scope.settings name source) →
      (∀ v ∈ source.toConfig.values, step.before.Offers v) → Effect step

/-- **Every step has one of the four effects.** -/
theorem step?_effect {command : Command} {outcome : Outcome}
    (hstep : s.step? command = some outcome) : Step.Effect ⟨s, command, outcome⟩ := by
  cases command with
  | assign target value =>
    obtain ⟨v, hv, hstep⟩ := Option.bind_eq_some_iff.mp hstep
    cases hstep
    exact .result (some v) rfl rfl rfl (fun w hw => by cases hw; exact List.mem_cons_self)
      (offers_singleton (offers_of_eval? hv))
  | describe value key =>
    obtain ⟨v, hv, hstep⟩ := Option.bind_eq_some_iff.mp hstep
    cases hstep
    exact .still rfl rfl rfl rfl (offers_singleton (offers_of_eval? hv))
  | register symbols name value =>
    obtain ⟨v, hv, hstep⟩ := Option.bind_eq_some_iff.mp hstep
    cases hstep
    refine .registers symbols name v ?_ rfl (offers_of_eval? hv)
    show (value.eval? s.vars).map _ = _
    rw [hv]
    rfl
  | resolve symbols name target =>
    cases hstep
    refine .result ((s.registry symbols).resolve? name) rfl rfl rfl
      (fun v hv => Option.mem_toList.mpr hv) fun v hv => ?_
    exact offers_of_bound (Table.mem_values_of_get? (Option.mem_toList.mp hv))
  | listSymbols symbols =>
    cases hstep
    exact .still rfl rfl rfl rfl fun v hv => offers_of_bound hv
  | openScope name symbols document debug strictArity =>
    simp only [step?] at hstep
    split at hstep <;> cases hstep <;> exact .still rfl rfl rfl rfl fun v hv => (nomatch hv)
  | declare scope name config target =>
    obtain ⟨members, hm, hstep⟩ := Option.bind_eq_some_iff.mp hstep
    obtain ⟨events, he, hstep⟩ := Option.bind_eq_some_iff.mp hstep
    obtain ⟨properties, hp, hstep⟩ := Option.bind_eq_some_iff.mp hstep
    exact .declares name (s.scope scope) (.config ⟨.ofList members, events, properties⟩)
      ⟨scope, rfl, rfl⟩ rfl (Option.some.inj hstep).symm (offers_config hm he hp)
  | declareValue scope name config target =>
    obtain ⟨v, hv, hstep⟩ := Option.bind_eq_some_iff.mp hstep
    exact .declares name (s.scope scope) (.value v) ⟨scope, rfl, rfl⟩ rfl
      (Option.some.inj hstep).symm fun w hw => ⟨v, Config.within_ofValue hw, .inr ⟨config, hv⟩⟩
  | readConfig config =>
    obtain ⟨v, hv, hstep⟩ := Option.bind_eq_some_iff.mp hstep
    cases hstep
    exact .still rfl rfl rfl rfl fun w hw => ⟨v, Config.within_ofValue hw, .inr ⟨config, hv⟩⟩
  | lookup scope name target =>
    cases hstep
    refine .result _ rfl rfl rfl (fun v hv => Option.mem_toList.mpr hv) fun v hv => ?_
    -- what the name finds is the bound value itself, seen as an interface
    obtain ⟨d, hd, rfl⟩ := Option.map_eq_some_iff.mp (Option.mem_toList.mp hv)
    rw [Registry.interface?_eq] at hd
    obtain ⟨w, hw, hd⟩ := Option.bind_eq_some_iff.mp hd
    rw [← interface?_eq_some_iff.mp hd]
    exact offers_of_bound (Table.mem_values_of_get? hw)
  | asInterface value =>
    obtain ⟨v, hv, hstep⟩ := Option.bind_eq_some_iff.mp hstep
    cases hstep
    refine .still rfl rfl rfl rfl fun w hw => ?_
    obtain ⟨d, hd, rfl⟩ := Option.map_eq_some_iff.mp (Option.mem_toList.mp hw)
    rw [← interface?_eq_some_iff.mp hd]
    exact offers_of_eval? hv
  | checkImplements route target interface =>
    obtain ⟨t, -, hstep⟩ := Option.bind_eq_some_iff.mp hstep
    obtain ⟨v, -, hstep⟩ := Option.bind_eq_some_iff.mp hstep
    obtain ⟨o, -, hstep⟩ := Option.bind_eq_some_iff.mp hstep
    cases hstep
    exact .still rfl rfl rfl rfl fun w hw => (nomatch hw)
  | checkNamed _ _ _ | checkAssertion _ _ _ =>
    obtain ⟨v, -, hstep⟩ := Option.bind_eq_some_iff.mp hstep
    cases hstep
    exact .still rfl rfl rfl rfl fun w hw => (nomatch hw)
  | contains _ _ | settingsOf _ | symbolsOf _ | summarizeScope _ | newTable _ _
  | addInterfaceAssertions | addAssertion _ _ _ | summarizeTable _ | hasAssertion _ _
  | templateOf _ _ =>
    cases hstep
    exact .still rfl rfl rfl rfl fun w hw => (nomatch hw)

/-- Only declarations are refused. -/
theorem exists_declarer_of_refusal {command : Command} {outcome : Outcome}
    (hstep : s.step? command = some outcome) (hrefusal : outcome.reply.isRefusal = true) :
    ∃ scope, declarer? command = some scope := by
  cases step?_effect hstep with
  | still _ hno _ _ _ | result _ _ hno _ _ _ =>
    have hno : outcome.reply.isRefusal = false := hno
    rw [hno] at hrefusal
    cases hrefusal
  | registers symbols name v _ houtcome _ =>
    obtain rfl : outcome = s.registered symbols name v := houtcome
    cases hrefusal
  | declares _ _ _ hscope _ _ _ =>
    obtain ⟨declarer, hdeclarer, -⟩ := hscope
    exact ⟨declarer, hdeclarer⟩

end Session

end InterfaceCheck
