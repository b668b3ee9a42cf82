import InterfaceCheck.Proofs.AssertionRuns
import InterfaceCheck.Proofs.Conformance
import InterfaceCheck.Session
/-!
# The ways to a check agree

A class can be checked against an interface through the checker of values, through a scope, through
the interface itself, by the name that the interface is bound to, and through an assertion table.
They look at target and interface in different orders, and those that go by name first look the
name up. This file shows that the order does not show where an interface is really given:

- `checkImplements_eq_check`, `Route.check?_eq_check`: the three direct ways;
- `Registry.checkNamed_of_interface`, `Registry.checkNamed_of_none`: the way by name, which adds the
  lookup to the report and refuses a name without an interface whatever the target is;
- `check_implementsInterface_iff`, `check_isInterface_iff`: the assertions, in every table in which
  no later definition has replaced them.
-/

namespace InterfaceCheck

/-! ## Direct checks -/

/-- For a value that carries an interface, looking at the target first changes nothing. -/
theorem checkImplements_eq_check {v : Value} {d : Descriptor Value} (h : v.interface? = some d)
    (target : Value) : checkImplements target v = d.check target := by
  rw [Value.interface?_eq_some_iff.mp h]
  exact checkImplements_ofInterface target d

theorem Route.check?_eq_check {v : Value} {d : Descriptor Value} (h : v.interface? = some d)
    (route : Route) (target : Value) : route.check? target v = some (d.check target) := by
  cases route with
  | values => exact congrArg some (checkImplements_eq_check h target)
  | scope => exact congrArg some (checkImplements_eq_check h target)
  | descriptor => simp [check?, h]

/-- The class and the interface that a violation of a requirement names. -/
def Violation.parties? : Violation → Option (String × String)
  | .invalidTarget _ | .invalidInterface _ => none
  | .missingMember cls interface _ | .kindMismatch cls interface _ _
  | .arityMismatch cls interface _ _ _ => some (cls, interface)

/-- A violation of a requirement names the class that is checked and the interface as it calls
itself. -/
theorem Descriptor.Violates.parties? {d : Descriptor Value} {c : Class Value}
    {requirement : String × Value} {v : Violation} (h : d.Violates c requirement v) :
    v.parties? = some (c.name, d.name) := by
  cases h <;> rfl

/-- What a check of an interface can find fault with: the target, or the class of the target. -/
theorem Descriptor.check_error {d : Descriptor Value} {target : Value} {v : Violation}
    (h : (d.check target).answer = .error v) :
    target.class? = none ∧ v = .invalidTarget target.display ∨
      ∃ c, target.class? = some c ∧ v.parties? = some (c.name, d.name) := by
  unfold check at h
  cases hc : target.class? with
  | none =>
    rw [hc] at h
    exact .inl ⟨rfl, (Except.error.inj h).symm⟩
  | some c =>
    -- the violation is that of a requirement, and all of these name the parties
    rw [hc] at h
    obtain ⟨_, requirement, _, _, _, hv⟩ := checkClass_eq_error_iff.mp h
    exact .inr ⟨c, rfl, hv.parties?⟩

/-! ## Checks by name -/

namespace Registry

variable {r : Registry} {name : String}

/-- A name that resolves to an interface stands for that interface. -/
theorem checkNamed_of_interface {v : Value} {d : Descriptor Value} (hv : r.resolve? name = some v)
    (hd : v.interface? = some d) (target : Value) :
    r.checkNamed name target =
      ⟨(d.check target).answer, .lookup name true :: (d.check target).events⟩ := by
  have hfound : r.interface? name = ⟨some d, [.lookup name true]⟩ := by
    simp [interface?_eq, hv, hd]
  unfold checkNamed
  rw [hfound]
  rfl

/-- A name that resolves to no interface is refused before the target is looked at. -/
theorem checkNamed_of_none (h : ∀ v d, r.resolve? name = some v → v.interface? ≠ some d)
    (target : Value) :
    r.checkNamed name target = ⟨.error (.invalidInterface name), [.lookup name false]⟩ := by
  have hnone : (r.resolve? name).bind (·.interface?) = none := by
    cases hv : r.resolve? name with
    | none => rfl
    | some v => exact Option.eq_none_iff_forall_ne_some.mpr fun d => h v d hv
  have hfound : r.interface? name = ⟨none, [.lookup name false]⟩ := by
    rw [interface?_eq, hnone]
    rfl
  unfold checkNamed
  rw [hfound]

end Registry

/-! ## Checks through an assertion table -/

namespace Assertions

/-- The bulk definition was the last step to define `name`. -/
def LastByInterfaces (steps : List Step) (name : String) : Prop :=
  ∃ before after, steps = before ++ .interfaces :: after ∧ ∀ s ∈ after, name ∉ s.names

variable {steps : List Step}

theorem get?_run_implementsInterface (a : Assertions)
    (h : LastByInterfaces steps "implementsInterface") :
    (a.run steps).table.get? "implementsInterface" =
      some ⟨implementsSecond, "Does not implement %1!"⟩ := by
  obtain ⟨before, after, rfl, hafter⟩ := h
  exact get?_run_of_last (last_of_step ⟨[], _, rfl, by decide⟩ hafter)

theorem get?_run_isInterface (a : Assertions) (h : LastByInterfaces steps "isInterface") :
    (a.run steps).table.get? "isInterface" =
      some ⟨quietly (ofFirst (·.isInterface)), "Invalid interface!"⟩ := by
  obtain ⟨before, after, rfl, hafter⟩ := h
  exact get?_run_of_last (last_of_step ⟨[_], [], rfl, by decide⟩ hafter)

/-- A check that answers with nothing but success or failure succeeds with the only success. -/
theorem isOk_iff {ε : Type} {answer : Except ε Unit} : answer.isOk = true ↔ answer = .ok () := by
  cases answer with
  | ok u => exact ⟨fun _ => rfl, fun _ => rfl⟩
  | error e => exact ⟨fun h => (nomatch h), fun h => (nomatch h)⟩

/-- The predicate of `implementsInterface` wants a target and an interface and checks them. -/
theorem implementsSecond_answer_iff {args : List Value} :
    (implementsSecond args).answer = true ↔
      ∃ target interface rest, args = target :: interface :: rest ∧
        (checkImplements target interface).answer = .ok () := by
  match args with
  | [] => simp [implementsSecond]
  | [_] => simp [implementsSecond]
  | target :: interface :: rest =>
    show (checkImplements target interface).answer.isOk = true ↔ _
    rw [isOk_iff]
    constructor
    · intro h
      exact ⟨target, interface, rest, rfl, h⟩
    · rintro ⟨_, _, _, hargs, h⟩
      cases hargs
      exact h

theorem check_implementsInterface_iff (a : Assertions)
    (h : LastByInterfaces steps "implementsInterface") (args : List Value) :
    ((a.run steps).check "implementsInterface" args).answer = .ok () ↔
      ∃ target interface rest, args = target :: interface :: rest ∧
        (checkImplements target interface).answer = .ok () := by
  rw [check_eq_ok_iff (get?_run_implementsInterface a h)]
  exact implementsSecond_answer_iff

theorem check_isInterface_iff (a : Assertions) (h : LastByInterfaces steps "isInterface")
    (args : List Value) :
    ((a.run steps).check "isInterface" args).answer = .ok () ↔
      ∃ v rest d, args = v :: rest ∧ v.interface? = some d := by
  rw [check_eq_ok_iff (get?_run_isInterface a h)]
  cases args with
  | nil => simp [quietly, ofFirst]
  | cons v rest =>
    simp [quietly, ofFirst, Value.isInterface, Option.isSome_iff_exists]

end Assertions

/-! ## All ways -/

namespace Session

/-- A check by a direct way leaves the session as it is and reports what the check reports. -/
theorem step?_checkImplements {s : Session} {target interface : Expr} {t v : Value}
    (ht : target.eval? s.vars = some t) (hv : interface.eval? s.vars = some v) (route : Route) :
    s.step? (.checkImplements route target interface) =
      (route.check? t v).map fun o => ⟨s, .verdict o.answer, o.events⟩ := by
  cases h : route.check? t v <;> simp [step?, ht, hv, h]

theorem step?_checkNamed {s : Session} {target : Expr} {t : Value}
    (ht : target.eval? s.vars = some t) (scope name : String) :
    s.step? (.checkNamed scope name target) =
      let o := (s.registry (s.scope scope).symbols).checkNamed name t
      some ⟨s, .verdict o.answer, o.events⟩ := by
  simp [step?, ht]

/-- **All ways to a check agree.** In every session, whatever its registries hold and whatever the
settings of its scopes are, and for every target:

1. the direct ways answer and report alike where the value carries an interface;
2. the way by name answers for the interface that the name resolves to and adds only the lookup to
   the report; a name that resolves to no interface is refused for every target;
3. what is found fault with is the target itself, or its class under the interface's own name;
4. in every table in which the bulk definition came last, `implementsInterface` passes iff there
   are two arguments of which the first implements the second, reporting what that check reports,
   and `isInterface` passes iff there is an argument and it is an interface. -/
theorem checks_agree (s : Session) (target : Expr) (t : Value)
    (ht : target.eval? s.vars = some t) :
    (∀ (route : Route) (interface : Expr) (v : Value) (d : Descriptor Value),
      interface.eval? s.vars = some v → v.interface? = some d →
        checkImplements t v = d.check t ∧
        s.step? (.checkImplements route target interface) =
          some ⟨s, .verdict (d.check t).answer, (d.check t).events⟩) ∧
    (∀ (scope name : String),
      (∀ v d, (s.registry (s.scope scope).symbols).resolve? name = some v →
        v.interface? = some d →
          s.step? (.checkNamed scope name target) =
            some ⟨s, .verdict (d.check t).answer, .lookup name true :: (d.check t).events⟩) ∧
      ((∀ v d, (s.registry (s.scope scope).symbols).resolve? name = some v →
          v.interface? ≠ some d) →
        s.step? (.checkNamed scope name target) =
          some ⟨s, .verdict (.error (.invalidInterface name)), [.lookup name false]⟩)) ∧
    (∀ (d : Descriptor Value) (violation : Violation),
      (d.check t).answer = .error violation →
        t.class? = none ∧ violation = .invalidTarget t.display ∨
          ∃ c, t.class? = some c ∧ violation.parties? = some (c.name, d.name)) ∧
    (∀ (a : Assertions) (steps : List Assertions.Step),
      (Assertions.LastByInterfaces steps "implementsInterface" → ∀ args,
        (((a.run steps).check "implementsInterface" args).answer = .ok () ↔
          ∃ target interface rest, args = target :: interface :: rest ∧
            (checkImplements target interface).answer = .ok ()) ∧
        ∀ target interface rest, args = target :: interface :: rest →
          ((a.run steps).check "implementsInterface" args).events =
            (checkImplements target interface).events) ∧
      (Assertions.LastByInterfaces steps "isInterface" → ∀ args,
        ((a.run steps).check "isInterface" args).answer = .ok () ↔
          ∃ v rest d, args = v :: rest ∧ v.interface? = some d)) := by
  refine ⟨fun route interface v d hv hd => ⟨checkImplements_eq_check hd t, ?_⟩,
    fun scope name => ⟨fun v d hv hd => ?_, fun hno => ?_⟩,
    fun d violation h => Descriptor.check_error h,
    fun a steps => ⟨fun hlast args =>
      ⟨Assertions.check_implementsInterface_iff a hlast args, ?_⟩,
      fun hlast args => Assertions.check_isInterface_iff a hlast args⟩⟩
  · rw [step?_checkImplements ht hv, Route.check?_eq_check hd]
    rfl
  · rw [step?_checkNamed ht, Registry.checkNamed_of_interface hv hd]
  · rw [step?_checkNamed ht, Registry.checkNamed_of_none hno]
  · rintro target interface rest rfl
    rw [Assertions.check_events (Assertions.get?_run_implementsInterface a hlast)]
    rfl

/-- An interface that is bound under an alias is found by the alias and speaks under its own name,
and under its own name it is not found. -/
theorem checks_agree_alias :
    ∃ (s : Session) (t : Value), Expr.eval? s.vars (.var "Disc") = some t ∧
      s.step? (.checkNamed "any" "alias" (.var "Disc")) =
        some ⟨s, .verdict (.error (.missingMember "Disc" "geo.Shape" "area")),
          [.lookup "alias" true,
            .notSatisfied "Disc" "geo.Shape" (.missingMember "Disc" "geo.Shape" "area")]⟩ ∧
      s.step? (.checkNamed "any" "geo.Shape" (.var "Disc")) =
        some ⟨s, .verdict (.error (.invalidInterface "geo.Shape")),
          [.lookup "geo.Shape" false]⟩ := by
  let d : Descriptor Value :=
    ⟨"geo.Shape", .ofList [("area", .function ⟨0, false⟩)], none, none, true⟩
  let s : Session :=
    { initial (.standard true) with
      registries := .ofList [("main", ⟨.ofList [("alias", .ofInterface d)]⟩)]
      vars := .ofList [("Disc", .cls (.bare "Disc"))] }
  have h := checks_agree s (.var "Disc") (.cls (.bare "Disc")) rfl
  refine ⟨s, _, rfl, (h.2.1 "any" "alias").1 _ d rfl rfl, (h.2.1 "any" "geo.Shape").2 ?_⟩
  intro v d hv
  cases hv

end Session

end InterfaceCheck
