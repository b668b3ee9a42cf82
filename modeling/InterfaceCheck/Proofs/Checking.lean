import InterfaceCheck.Proofs.CheckPaths
import InterfaceCheck.Proofs.Declaring
/-!
# Steps that check

Three commands check a target, and `Session.Step.Checks` says of a step that it ran one of them, on
which target and against which interface, if there is one. Where a class meets an interface there is
one verdict and one event that reports it; all other checks are refused and report nothing
(`Logged.Judges`). So does the step that makes the check (`Session.Step.Checks.judges`).

An assertion may check as well. In a run the assertions are those that sessions come with or define
(`Assertions.Plain`): most of them report nothing, and one of them checks.
-/

namespace InterfaceCheck

/-! ## Verdicts -/

/-- Whether the event reports a verdict on a class. -/
def Event.isVerdict : Event → Bool
  | .satisfied _ _ | .notSatisfied _ _ _ => true
  | _ => false

/-- The event that reports a verdict. -/
def Event.verdict (cls interface : String) : Except Violation Unit → Event
  | .ok _ => .satisfied cls interface
  | .error violation => .notSatisfied cls interface violation

theorem Event.isVerdict_verdict (cls interface : String) (answer : Except Violation Unit) :
    (verdict cls interface answer).isVerdict = true := by
  cases answer <;> rfl

theorem Event.isWrite_verdict (cls interface : String) (answer : Except Violation Unit) :
    (verdict cls interface answer).isWrite = false := by
  cases answer <;> rfl

/-- What comes of a check of a target against an interface, if there is one. -/
inductive Logged.Judges (o : Logged (Except Violation Unit)) (target : Value) :
    Option (Descriptor Value) → Prop where
  /-- A class was compared, and the event names the class and the interface as it calls itself. -/
  | compared {c : Class Value} {d : Descriptor Value} :
      target.class? = some c → o.events = [.verdict c.name d.name o.answer] →
      Judges o target (some d)
  /-- There was nothing to compare. -/
  | refused {found : Option (Descriptor Value)} (violation : Violation) :
      target.class? = none ∨ found = none → o.answer = .error violation → o.events = [] →
      Judges o target found

theorem Descriptor.checkClass_events (d : Descriptor Value) (c : Class Value) :
    (d.checkClass c).events = [.verdict c.name d.name (d.checkClass c).answer] := by
  unfold checkClass
  cases d.violation? c <;> rfl

theorem Descriptor.check_judges (d : Descriptor Value) (target : Value) :
    (d.check target).Judges target (some d) := by
  unfold check
  cases hc : target.class? with
  | none => exact .refused _ (.inl hc) rfl rfl
  | some c => exact .compared hc (d.checkClass_events c)

theorem checkImplements_judges (target interface : Value) :
    (checkImplements target interface).Judges target interface.interface? := by
  cases hd : interface.interface? with
  | some d =>
    rw [checkImplements_eq_check hd]
    exact d.check_judges target
  | none =>
    unfold checkImplements
    rw [hd]
    cases hc : target.class? with
    | none => exact .refused _ (.inl hc) rfl rfl
    | some c => exact .refused _ (.inr rfl) rfl rfl

/-- By every direct way that gives an answer, it is a judgement. -/
theorem Route.judges {route : Route} {target interface : Value}
    {o : Logged (Except Violation Unit)} (h : route.check? target interface = some o) :
    o.Judges target interface.interface? := by
  cases route with
  | values | scope =>
    obtain rfl := Option.some.inj h
    exact checkImplements_judges target interface
  | descriptor =>
    obtain ⟨d, hd, rfl⟩ := Option.map_eq_some_iff.mp h
    rw [hd]
    exact d.check_judges target

/-- The way by name reports the lookup and then judges. -/
theorem Registry.checkNamed_judges (r : Registry) (name : String) (target : Value) :
    ∃ o : Logged (Except Violation Unit), o.Judges target (r.interface? name).answer ∧
      (r.checkNamed name target).answer = o.answer ∧
      (r.checkNamed name target).events = (r.interface? name).events ++ o.events := by
  cases hfound : (r.interface? name).answer with
  | none =>
    refine ⟨⟨.error (.invalidInterface name), []⟩, .refused _ (.inr rfl) rfl rfl, ?_, ?_⟩
    · simp [checkNamed, hfound]
    · simp [checkNamed, hfound]
  | some d =>
    refine ⟨d.check target, d.check_judges target, ?_, ?_⟩
    · simp [checkNamed, hfound]
    · simp [checkNamed, hfound]

/-! ## Assertions that check -/

/-- An assertion that reports nothing, or the one that checks its arguments. -/
inductive Assertion.Plain : Assertion → Prop where
  | quiet (holds : List Value → Bool) (template : String) :
      Plain ⟨Assertions.quietly holds, template⟩
  | implements (template : String) : Plain ⟨Assertions.implementsSecond, template⟩

namespace Assertions

/-- All assertions of the table are plain. -/
def Plain (a : Assertions) : Prop := ∀ x ∈ a.table.values, x.Plain

variable {a : Assertions}

theorem plain_empty : empty.Plain := fun _ hx => (nomatch hx)

theorem Plain.add (h : a.Plain) (name : String) {holds : List Value → Logged Bool}
    {template : String} (hx : Assertion.Plain ⟨holds, template⟩) :
    (a.add name holds template).Plain := by
  intro x hmem
  rcases Table.mem_values_insert hmem with rfl | hmem
  · exact hx
  · exact h x hmem

theorem Plain.withInterfaces (h : a.Plain) : a.withInterfaces.Plain :=
  (h.add _ (.implements _)).add _ (.quiet _ _)

theorem plain_builtin : builtin.Plain :=
  ((plain_empty.add _ (.quiet _ _)).add _ (.quiet _ _)).add _ (.quiet _ _)

theorem plain_standard : standard.Plain := plain_builtin.withInterfaces

end Assertions

namespace Session

/-! ## The assertion tables of a run -/

variable {s : Session}

theorem assertions_withResult (s : Session) (target : Option String) (value : Option Value) :
    (s.withResult target value).assertions = s.assertions := by
  unfold withResult
  split <;> rfl

theorem assertions_declared (s : Session) (symbols : String) (target : Option String)
    (w : Written (Except Refusal (Descriptor Value))) :
    (s.declared symbols target w).session.assertions = s.assertions := by
  unfold declared
  cases w.answer with
  | error refusal => rfl
  | ok d => exact assertions_withResult _ target _

/-- A step that makes no assertions leaves the assertion table. -/
theorem step?_plain (h : s.assertions.Plain) {command : Command} {outcome : Outcome}
    (hstep : s.step? command = some outcome) : outcome.session.assertions.Plain := by
  cases command with
  | newTable builtin interfaces =>
    obtain rfl := Option.some.inj hstep
    have hbase : (if builtin then Assertions.builtin else Assertions.empty).Plain := by
      cases builtin
      · exact Assertions.plain_empty
      · exact Assertions.plain_builtin
    cases interfaces
    · exact hbase
    · exact hbase.withInterfaces
  | addInterfaceAssertions =>
    obtain rfl := Option.some.inj hstep
    exact h.withInterfaces
  | addAssertion name criterion template =>
    obtain rfl := Option.some.inj hstep
    exact h.add name (.quiet criterion.holds template)
  | openScope name symbols document debug strictArity =>
    simp only [step?] at hstep
    split at hstep <;> cases hstep <;> exact h
  | resolve _ _ target | lookup _ _ target =>
    obtain rfl := Option.some.inj hstep
    show (s.withResult target _).assertions.Plain
    rw [assertions_withResult]
    exact h
  | declare scope name config target =>
    obtain ⟨members, -, hstep⟩ := Option.bind_eq_some_iff.mp hstep
    obtain ⟨events, -, hstep⟩ := Option.bind_eq_some_iff.mp hstep
    obtain ⟨properties, -, hstep⟩ := Option.bind_eq_some_iff.mp hstep
    obtain rfl := Option.some.inj hstep
    rw [assertions_declared]
    exact h
  | declareValue scope name config target =>
    obtain ⟨v, -, hstep⟩ := Option.bind_eq_some_iff.mp hstep
    obtain rfl := Option.some.inj hstep
    rw [assertions_declared]
    exact h
  | checkImplements route target interface =>
    obtain ⟨t, -, hstep⟩ := Option.bind_eq_some_iff.mp hstep
    obtain ⟨v, -, hstep⟩ := Option.bind_eq_some_iff.mp hstep
    obtain ⟨o, -, hstep⟩ := Option.bind_eq_some_iff.mp hstep
    cases hstep
    exact h
  | assign _ _ | describe _ _ | register _ _ _ | readConfig _ | asInterface _ | checkNamed _ _ _
  | checkAssertion _ _ _ =>
    obtain ⟨v, -, hstep⟩ := Option.bind_eq_some_iff.mp hstep
    cases hstep
    exact h
  | contains _ _ | listSymbols _ | settingsOf _ | symbolsOf _ | summarizeScope _
  | summarizeTable _ | hasAssertion _ _ | templateOf _ _ =>
    cases hstep
    exact h

/-- **Along a run all assertions are plain**, in the table of the session and in those of scopes. -/
theorem Run.plain {past : List Step} (h : Run past s) (scope : Option String) :
    (s.assertionsOf scope).Plain := by
  cases scope with
  | some _ => exact Assertions.plain_standard
  | none =>
    show s.assertions.Plain
    induction h with
    | start => exact Assertions.plain_empty
    | next _ hstep ih => exact step?_plain ih hstep

/-! ## Steps -/

/-- `step.Checks target found`: the step checks the target, against the interface that is found
where the command says. -/
inductive Step.Checks (step : Step) : Value → Option (Descriptor Value) → Prop where
  /-- Against the interface that a value carries. -/
  | direct {route : Route} {target interface : Expr} {t v : Value} :
      step.command = .checkImplements route target interface →
      target.eval? step.before.vars = some t → interface.eval? step.before.vars = some v →
      Checks step t v.interface?
  /-- Against the interface that a name is bound to. -/
  | named {scope name : String} {target : Expr} {t : Value} :
      step.command = .checkNamed scope name target →
      target.eval? step.before.vars = some t →
      Checks step t
        ((step.before.registry (step.before.scope scope).symbols).interface? name).answer
  /-- By the assertion that checks its first argument against its second. -/
  | assertion {scope : Option String} {name template : String} {args : List Expr} {t v : Value}
      {rest : List Value} :
      step.command = .checkAssertion scope name args →
      Expr.evalAll? step.before.vars args = some (t :: v :: rest) →
      (step.before.assertionsOf scope).table.get? name =
        some ⟨Assertions.implementsSecond, template⟩ →
      Checks step t v.interface?

/-- The reply tells what a check answers: all of it, or whether it is a success. -/
def Conveys (answer : Except Violation Unit) : Reply → Prop
  | .verdict v => v = answer
  | .assertion a => a.isOk = answer.isOk
  | _ => False

/-- The step replies and reports as a check of the target does, after lookups at most. -/
def Step.Judges (step : Step) (target : Value) (found : Option (Descriptor Value)) : Prop :=
  ∃ o : Logged (Except Violation Unit), o.Judges target found ∧
    Conveys o.answer step.outcome.reply ∧
    ∃ lookups, (∀ e ∈ lookups, ∃ name hit, e = Event.lookup name hit) ∧
      step.outcome.events = lookups ++ o.events

variable {step : Step} {target : Value} {found : Option (Descriptor Value)}

/-- **A step that checks judges**, whichever way it goes. -/
theorem Step.Checks.judges (h : step.Checks target found)
    (hstep : step.before.step? step.command = some step.outcome) : step.Judges target found := by
  have hnothing : ∀ e ∈ ([] : List Event), ∃ name hit, e = Event.lookup name hit :=
    fun e he => (nomatch he)
  cases h with
  | @direct route _ _ _ v hcommand ht hv =>
    rw [hcommand, step?_checkImplements ht hv] at hstep
    obtain ⟨o, ho, houtcome⟩ := Option.map_eq_some_iff.mp hstep
    rw [Judges, ← houtcome]
    exact ⟨o, Route.judges ho, rfl, [], hnothing, rfl⟩
  | @named scope name _ _ hcommand ht =>
    rw [hcommand, step?_checkNamed ht] at hstep
    obtain ⟨o, ho, hanswer, hevents⟩ :=
      (step.before.registry (step.before.scope scope).symbols).checkNamed_judges name target
    rw [Judges, ← Option.some.inj hstep]
    refine ⟨o, ho, hanswer, _, ?_, hevents⟩
    intro e he
    exact ⟨_, _, List.mem_singleton.mp he⟩
  | @assertion scope name template args _ v rest hcommand hargs hget =>
    rw [hcommand] at hstep
    obtain ⟨values, hvalues, houtcome⟩ := Option.bind_eq_some_iff.mp hstep
    obtain rfl := Option.some.inj (hargs.symm.trans hvalues)
    rw [Judges, ← Option.some.inj houtcome]
    refine ⟨checkImplements target v, checkImplements_judges target v, ?_, [], hnothing, ?_⟩
    · show ((step.before.assertionsOf scope).check name (target :: v :: rest)).answer.isOk =
        (checkImplements target v).answer.isOk
      rw [Bool.eq_iff_iff, Assertions.isOk_iff, Assertions.check_eq_ok_iff hget]
      rfl
    · show ((step.before.assertionsOf scope).check name (target :: v :: rest)).events = _
      rw [Assertions.check_events hget]
      rfl

/-- A judgement reports one verdict on the class, or it refuses the check and reports none. -/
theorem Step.Judges.verdicts (h : step.Judges target found) :
    (∀ c d, target.class? = some c → found = some d → ∃ answer,
      Conveys answer step.outcome.reply ∧
        step.outcome.events.filter (·.isVerdict) = [.verdict c.name d.name answer]) ∧
    (target.class? = none ∨ found = none → ∃ violation,
      Conveys (.error violation) step.outcome.reply ∧
        step.outcome.events.filter (·.isVerdict) = []) := by
  obtain ⟨o, ho, hreply, lookups, hlookups, hevents⟩ := h
  have hfilter : step.outcome.events.filter (·.isVerdict) = o.events.filter (·.isVerdict) := by
    have hnone : lookups.filter (·.isVerdict) = [] := by
      rw [List.filter_eq_nil_iff]
      intro e he
      obtain ⟨name, hit, rfl⟩ := hlookups e he
      exact Bool.false_ne_true
    rw [hevents, List.filter_append, hnone, List.nil_append]
  rw [hfilter]
  cases ho with
  | @compared c d hc hverdict =>
    rw [hverdict, List.filter_cons_of_pos (Event.isVerdict_verdict _ _ _)]
    refine ⟨?_, ?_⟩
    · intro c' d' hc' hd'
      obtain rfl := Option.some.inj (hc.symm.trans hc')
      obtain rfl := Option.some.inj hd'
      exact ⟨o.answer, hreply, rfl⟩
    · rintro (hnone | hnone)
      · rw [hc] at hnone
        cases hnone
      · cases hnone
  | refused violation hnone hanswer hsilent =>
    rw [hsilent]
    refine ⟨?_, ?_⟩
    · intro c d hc hd
      rcases hnone with hnone | hnone
      · rw [hc] at hnone
        cases hnone
      · rw [hd] at hnone
        cases hnone
    · intro _
      rw [hanswer] at hreply
      exact ⟨violation, hreply, rfl⟩

/-- A judgement reports no write. -/
theorem Step.Judges.isWrite (h : step.Judges target found) :
    ∀ e ∈ step.outcome.events, e.isWrite = false := by
  obtain ⟨o, ho, -, lookups, hlookups, hevents⟩ := h
  rw [hevents]
  intro e he
  rcases List.mem_append.mp he with he | he
  · obtain ⟨name, hit, rfl⟩ := hlookups e he
    rfl
  · cases ho with
    | compared _ hverdict =>
      rw [hverdict] at he
      obtain rfl := List.mem_singleton.mp he
      exact Event.isWrite_verdict _ _ _
    | refused _ _ _ hsilent =>
      rw [hsilent] at he
      cases he

end Session

end InterfaceCheck
