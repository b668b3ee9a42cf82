import InterfaceCheck.Proofs.Declaration
import InterfaceCheck.Proofs.Table
/-!
# Declarations are atomic

A declaration is refused for reasons that its settings, its name and its configuration decide, and
either it is refused and nothing has happened, or it succeeds and one name has been bound
(`Registry.declaration_atomic`).

The two ways to declare differ in what they refuse. What they do is the same for both
(`Written.AllOrNothing`) and is proved once, for either source of a configuration.
-/

namespace InterfaceCheck

namespace Registry

/-- `r.Rebinds name v r'`: `r'` is `r` with `name` bound to `v`, and nothing else has changed. -/
structure Rebinds (r : Registry) (name : String) (v : Value) (r' : Registry) : Prop where
  self : r'.resolve? name = some v
  others : ∀ other, other ≠ name → r'.resolve? other = r.resolve? other
  names : ∀ n, n ∈ r'.names ↔ n = name ∨ n ∈ r.names
  /-- There is one name more, unless the name was bound before. -/
  size : r'.size = if r.contains name then r.size else r.size + 1

theorem register_rebinds (r : Registry) (name : String) (v : Value) :
    r.Rebinds name v (r.register name v).registry where
  self := Table.get?_insert_self r.bindings name v
  others _ h := Table.get?_insert_of_ne r.bindings h v
  names n := by
    show n ∈ (r.bindings.insert name v).sortedKeys ↔ n = name ∨ n ∈ r.bindings.sortedKeys
    rw [Table.mem_sortedKeys, Table.mem_sortedKeys, Table.mem_keys_insert]
  size := Table.size_insert r.bindings name v

/-- After a rebinding to an interface, the name gives that interface. -/
theorem Rebinds.interface? {r r' : Registry} {name : String} {d : Descriptor Value}
    (h : r.Rebinds name (.ofInterface d) r') : (r'.interface? name).answer = some d := by
  rw [Registry.interface?_eq, h.self]
  rfl

end Registry

/-- What came of a declaration into `r`: all of it, or nothing. -/
structure Written.AllOrNothing (w : Written (Except Refusal (Descriptor Value))) (r : Registry)
    (s : Settings) (name : String) (config : Config) : Prop where
  /-- A refusal leaves the registry as it is, and no write is reported. -/
  refused : ∀ refusal, w.answer = .error refusal →
    w.registry = r ∧ ∀ e ∈ w.events, e.isWrite = false
  /-- The interface has the name and the parts of the configuration, it is strict as the settings
  are, and its name is bound to it. -/
  declared : ∀ d, w.answer = .ok d →
    d.name = name ∧ d.members = config.members ∧ d.events = config.events ∧
    d.properties = config.properties ∧ d.strictArity = s.strictArity ∧
    r.Rebinds name (.ofInterface d) w.registry ∧ (w.registry.interface? name).answer = some d

namespace Registry

theorem declareFrom_allOrNothing (r : Registry) (s : Settings) (name : String) (source : Source) :
    (r.declareFrom s name source).AllOrNothing r s name source.toConfig where
  refused refusal h := by
    obtain ⟨event, hevent, hw⟩ := declareFrom_of_refused (declareFrom_eq_error_iff.mp h) r
    rw [hw]
    refine ⟨rfl, fun e he => ?_⟩
    obtain rfl := List.mem_singleton.mp he
    exact hevent.isWrite
  declared d h := by
    obtain ⟨haccepted, rfl⟩ := declareFrom_eq_ok_iff.mp h
    rw [declareFrom_of_accepted haccepted r]
    have hrebinds := r.register_rebinds name (.ofInterface (declaredBy s name source))
    exact ⟨rfl, rfl, rfl, rfl, rfl, hrebinds, hrebinds.interface?⟩

/-- **Declarations are atomic**, for every registry, settings and name:

1. a configuration is refused iff declarations are validated and the name is no module name, and
   it is the name that the refusal blames;
2. a value is refused in the same case for the same reason, whatever it is, and else iff
   declarations are validated and it is no plain map;
3. a refused declaration changes nothing, and one that succeeds binds its name, and no other, to
   the interface that the configuration describes. -/
theorem declaration_atomic (r : Registry) (s : Settings) (name : String) :
    (∀ config : Config,
      (∀ refusal, (r.declare s name config).answer = .error refusal ↔
        s.debug = true ∧ isModuleName name = false ∧ refusal = .invalidName name) ∧
      (r.declare s name config).AllOrNothing r s name config) ∧
    ∀ v : Value,
      (∀ refusal, (r.declareValue s name v).answer = .error refusal ↔
        s.debug = true ∧ (isModuleName name = false ∧ refusal = .invalidName name ∨
          isModuleName name = true ∧ (∀ entries, v ≠ .map entries) ∧
            refusal = .invalidConfig name)) ∧
      (r.declareValue s name v).AllOrNothing r s name (.ofValue v) := by
  refine ⟨fun config => ⟨fun refusal => ?_, declareFrom_allOrNothing r s name (.config config)⟩,
    fun v => ⟨fun refusal => ?_, declareFrom_allOrNothing r s name (.value v)⟩⟩
  · rw [← Settings.refusal?_config_eq_some_iff]
    show (r.declareFrom s name (.config config)).answer = .error refusal ↔ _
    exact declareFrom_eq_error_iff
  · have hmap : (∀ entries, v ≠ .map entries) ↔ v.isMap = false := by
      cases v <;> simp [Value.isMap]
    rw [hmap, ← Settings.refusal?_value_eq_some_iff]
    show (r.declareFrom s name (.value v)).answer = .error refusal ↔ _
    exact declareFrom_eq_error_iff

end Registry

end InterfaceCheck
