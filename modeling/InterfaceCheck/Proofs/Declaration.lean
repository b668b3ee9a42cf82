import InterfaceCheck.Declaration
/-!
# What a declaration does

An interface is declared from a configuration or from a value that is read as one (`Source`). Both
ways go through validation and then bind the interface, so one pair of statements covers them:

- `declareFrom_of_refused`: a refused declaration leaves the registry and reports one event;
- `declareFrom_of_accepted`: an accepted one binds the interface that it answers with.

Whether a declaration is refused (`Settings.refusal?`) depends on its settings, its name and its
source, never on the registry. So the answer alone tells which of the two it was
(`declareFrom_eq_error_iff`, `declareFrom_eq_ok_iff`).
-/

namespace InterfaceCheck

/-- What an interface is declared from. -/
inductive Source where
  | config (c : Config)
  /-- A value that is read as a configuration. -/
  | value (v : Value)

namespace Source

/-- The configuration that is declared. -/
def toConfig : Source → Config
  | .config c => c
  | .value v => .ofValue v

/-- Whether the source passes for a configuration: of values only plain maps do. -/
def isPlain : Source → Bool
  | .config _ => true
  | .value v => v.isMap

end Source

/-! ## Validation -/

namespace Settings

/-- Why a declaration is refused, if it is. A bad name hides a bad source. -/
def refusal? (s : Settings) (name : String) (source : Source) : Option Refusal :=
  if s.debug then
    if isModuleName name then
      if source.isPlain then none else some (.invalidConfig name)
    else some (.invalidName name)
  else none

/-- A configuration is refused for its name only. -/
theorem refusal?_config_eq_some_iff {s : Settings} {name : String} {c : Config}
    {refusal : Refusal} :
    s.refusal? name (.config c) = some refusal ↔
      s.debug = true ∧ isModuleName name = false ∧ refusal = .invalidName name := by
  unfold refusal?
  cases s.debug <;> cases isModuleName name <;> simp [Source.isPlain, eq_comm]

/-- A value is refused for the name that it is declared under, and else for not being a plain
map. -/
theorem refusal?_value_eq_some_iff {s : Settings} {name : String} {v : Value}
    {refusal : Refusal} :
    s.refusal? name (.value v) = some refusal ↔
      s.debug = true ∧ (isModuleName name = false ∧ refusal = .invalidName name ∨
        isModuleName name = true ∧ v.isMap = false ∧ refusal = .invalidConfig name) := by
  unfold refusal?
  cases s.debug <;> cases isModuleName name <;> cases hv : v.isMap <;>
    simp [Source.isPlain, hv, eq_comm]

/-- What passes validation passes under all settings. -/
theorem refusal?_eq_none {s : Settings} {name : String} {source : Source} (hdebug : s.debug = true)
    (h : s.refusal? name source = none) (s' : Settings) : s'.refusal? name source = none := by
  unfold refusal? at h ⊢
  rw [if_pos hdebug] at h
  cases s'.debug with
  | false => rfl
  | true => exact h

/-- The module name assertion of the table that declarations are validated with. -/
theorem check_moduleName (name : String) :
    Assertions.standard.check "moduleName" [.string name] =
      if isModuleName name then ⟨.ok (), []⟩
      else ⟨.error (.failed "moduleName"
        (formatMessage "Invalid module name: %1" [.string name])), []⟩ := by
  have hget : Assertions.standard.table.get? "moduleName" =
      some ⟨Assertions.quietly (Assertions.ofFirst Assertions.isModuleNameValue),
        "Invalid module name: %1"⟩ := rfl
  have hholds : (Assertions.quietly (Assertions.ofFirst Assertions.isModuleNameValue)
      [.string name]).answer = isModuleName name := by
    simp [Assertions.quietly, Assertions.ofFirst, Assertions.isModuleNameValue, Value.text?]
  unfold Assertions.check
  rw [hget]
  simp only [hholds]
  rfl

/-- The map assertion of the same table. -/
theorem check_map (v : Value) :
    Assertions.standard.check "map" [v] =
      if v.isMap then ⟨.ok (), []⟩
      else ⟨.error (.failed "map" (formatMessage "Not a map: %1" [v])), []⟩ := by
  have hget : Assertions.standard.table.get? "map" =
      some ⟨Assertions.quietly (Assertions.ofFirst (·.isMap)), "Not a map: %1"⟩ := rfl
  have hholds : (Assertions.quietly (Assertions.ofFirst (·.isMap)) [v]).answer = v.isMap := by
    simp [Assertions.quietly, Assertions.ofFirst]
  unfold Assertions.check
  rw [hget]
  simp only [hholds]
  rfl

theorem validateName_eq (s : Settings) (name : String) :
    s.validateName name =
      if s.debug then
        if isModuleName name then ⟨.ok (), []⟩
        else ⟨.error (.invalidName name),
          [.nameRefused name (formatMessage "Invalid module name: %1" [.string name])]⟩
      else ⟨.ok (), []⟩ := by
  unfold validateName
  rw [check_moduleName]
  cases s.debug <;> cases isModuleName name <;> rfl

theorem validateConfig_eq (s : Settings) (name : String) (v : Value) :
    s.validateConfig name v =
      if s.debug then
        if v.isMap then ⟨.ok (), []⟩
        else ⟨.error (.invalidConfig name),
          [.configRefused name (formatMessage "Not a map: %1" [v])]⟩
      else ⟨.ok (), []⟩ := by
  unfold validateConfig
  rw [check_map]
  cases s.debug <;> cases v.isMap <;> rfl

end Settings

/-! ## Events -/

/-- Whether the event reports a write to a registry. -/
def Event.isWrite : Event → Bool
  | .registered _ | .replaced _ => true
  | _ => false

/-- The event that reports a refusal, with the message of the assertion that failed. -/
inductive Refusal.ReportedBy (source : Source) : Refusal → Event → Prop where
  | name (name : String) :
      ReportedBy source (.invalidName name)
        (.nameRefused name (formatMessage "Invalid module name: %1" [.string name]))
  | config (name : String) {v : Value} : source = .value v →
      ReportedBy source (.invalidConfig name)
        (.configRefused name (formatMessage "Not a map: %1" [v]))

theorem Refusal.ReportedBy.isWrite {source : Source} {refusal : Refusal} {event : Event}
    (h : refusal.ReportedBy source event) : event.isWrite = false := by
  cases h <;> rfl

/-- A refusal is reported in one way only. -/
theorem Refusal.ReportedBy.unique {source : Source} {refusal : Refusal} {event event' : Event}
    (h : refusal.ReportedBy source event) (h' : refusal.ReportedBy source event') :
    event = event' := by
  cases h with
  | name => cases h'; rfl
  | config _ hsource =>
    cases h' with
    | config _ hsource' =>
      obtain rfl := Source.value.inj (hsource.symm.trans hsource')
      rfl

namespace Registry

variable {r : Registry} {s : Settings} {name : String} {source : Source}

/-! ## Binding -/

/-- Binding reports the write and then the declaration. -/
theorem bind_events (r : Registry) (d : Descriptor Value) :
    (r.bind d).events =
      (r.register d.name (.ofInterface d)).events ++
        [.declared d.name d.members.size (r.contains d.name)] := by
  unfold bind register contains Table.insertion
  cases r.bindings.contains d.name <;> rfl

/-! ## Declaring -/

/-- Where a value passes for a configuration, declaring from it is declaring what is read from it.
The name is validated twice then, and the second time says what the first has said. -/
theorem declareValue_eq_declare {v : Value} (hv : s.debug = true → v.isMap = true) (r : Registry)
    (name : String) : r.declareValue s name v = r.declare s name (.ofValue v) := by
  have hshaped : s.validateConfig name v = ⟨.ok (), []⟩ := by
    rw [Settings.validateConfig_eq]
    cases hd : s.debug with
    | false => rfl
    | true => rw [hv hd]; rfl
  have hnamed : s.validateName name = ⟨.ok (), []⟩ ∨
      ∃ refusal events, s.validateName name = ⟨.error refusal, events⟩ := by
    rw [Settings.validateName_eq]
    cases s.debug <;> cases isModuleName name <;> simp
  unfold declareValue
  rcases hnamed with hnamed | ⟨refusal, events, hnamed⟩
  · rw [hnamed, hshaped]
    rfl
  · unfold declare
    rw [hnamed]

/-- Declares an interface from either source. -/
def declareFrom (r : Registry) (s : Settings) (name : String) :
    Source → Written (Except Refusal (Descriptor Value))
  | .config c => r.declare s name c
  | .value v => r.declareValue s name v

/-- The interface that a source declares. -/
def declaredBy (s : Settings) (name : String) (source : Source) : Descriptor Value :=
  source.toConfig.descriptor name s.strictArity

theorem declareFrom_of_refused {refusal : Refusal}
    (h : s.refusal? name source = some refusal) (r : Registry) :
    ∃ event, refusal.ReportedBy source event ∧
      r.declareFrom s name source = ⟨.error refusal, r, [event]⟩ := by
  unfold Settings.refusal? at h
  cases hd : s.debug with
  | false => simp [hd] at h
  | true =>
    cases hn : isModuleName name with
    | false =>
      -- the name is looked at first, whatever the source is
      obtain rfl : Refusal.invalidName name = refusal := by simpa [hd, hn] using h
      refine ⟨_, .name name, ?_⟩
      cases source <;>
        simp [declareFrom, declare, declareValue, Settings.validateName_eq, hd, hn]
    | true =>
      cases source with
      | config c => simp [hd, hn, Source.isPlain] at h
      | value v =>
        have hm : v.isMap = false := by
          cases hm : v.isMap with
          | false => rfl
          | true => simp [hd, hn, Source.isPlain, hm] at h
        obtain rfl : Refusal.invalidConfig name = refusal := by
          simpa [hd, hn, Source.isPlain, hm] using h
        refine ⟨_, .config name rfl, ?_⟩
        simp [declareFrom, declareValue, Settings.validateName_eq, Settings.validateConfig_eq,
          hd, hn, hm]

/-- A configuration under a name that passes is bound. -/
theorem declare_of_named (hname : s.debug = true → isModuleName name = true) (r : Registry)
    (c : Config) :
    r.declare s name c =
      ⟨.ok (c.descriptor name s.strictArity), (r.bind (c.descriptor name s.strictArity)).registry,
        (r.bind (c.descriptor name s.strictArity)).events⟩ := by
  have hnamed : s.validateName name = ⟨.ok (), []⟩ := by
    rw [Settings.validateName_eq]
    cases hd : s.debug with
    | false => rfl
    | true => rw [hname hd]; rfl
  unfold declare
  rw [hnamed]
  rfl

theorem declareFrom_of_accepted (h : s.refusal? name source = none) (r : Registry) :
    r.declareFrom s name source =
      ⟨.ok (declaredBy s name source), (r.bind (declaredBy s name source)).registry,
        (r.bind (declaredBy s name source)).events⟩ := by
  have hname : s.debug = true → isModuleName name = true := by
    intro hd
    cases hn : isModuleName name with
    | false => simp [Settings.refusal?, hd, hn] at h
    | true => rfl
  cases source with
  | config c => exact declare_of_named hname r c
  | value v =>
    have hplain : s.debug = true → v.isMap = true := by
      intro hd
      cases hm : v.isMap with
      | false => simp [Settings.refusal?, hd, hname hd, Source.isPlain, hm] at h
      | true => rfl
    exact (declareValue_eq_declare hplain r name).trans (declare_of_named hname r _)

theorem declareFrom_eq_error_iff {refusal : Refusal} :
    (r.declareFrom s name source).answer = .error refusal ↔
      s.refusal? name source = some refusal := by
  cases h : s.refusal? name source with
  | none =>
    rw [declareFrom_of_accepted h r]
    exact ⟨fun he => (nomatch he), fun he => (nomatch he)⟩
  | some refusal' =>
    obtain ⟨event, -, hw⟩ := declareFrom_of_refused h r
    rw [hw]
    exact ⟨fun he => congrArg some (Except.error.inj he),
      fun he => congrArg Except.error (Option.some.inj he)⟩

theorem declareFrom_eq_ok_iff {d : Descriptor Value} :
    (r.declareFrom s name source).answer = .ok d ↔
      s.refusal? name source = none ∧ d = declaredBy s name source := by
  cases h : s.refusal? name source with
  | none =>
    rw [declareFrom_of_accepted h r]
    exact ⟨fun hd => ⟨rfl, (Except.ok.inj hd).symm⟩, fun hd => congrArg Except.ok hd.2.symm⟩
  | some refusal =>
    obtain ⟨event, -, hw⟩ := declareFrom_of_refused h r
    rw [hw]
    exact ⟨fun hd => (nomatch hd), fun hd => (nomatch hd.1)⟩

end Registry

end InterfaceCheck
