import InterfaceCheck.Assertions
import InterfaceCheck.Config
import InterfaceCheck.Refusal
import InterfaceCheck.Registry
import InterfaceCheck.Settings
/-!
# Declaring and finding interfaces

An interface is declared into a registry under its name. The settings of the declarer decide
whether name and configuration are validated first and whether arities will be compared. What a
declaration makes never changes; declaring the name again binds it to another interface.

A refused declaration leaves the registry as it was.
-/

namespace InterfaceCheck

namespace Settings

/-- Refuses a name that is not a module name, if names are validated. -/
def validateName (s : Settings) (name : String) : Logged (Except Refusal Unit) :=
  if s.debug then
    let outcome := Assertions.standard.check "moduleName" [.string name]
    match outcome.answer with
    | .ok _ => ⟨.ok (), outcome.events⟩
    | .error e =>
      ⟨.error (.invalidName name), outcome.events ++ [.nameRefused name e.message]⟩
  else ⟨.ok (), []⟩

/-- Refuses a configuration that is not a plain map, if configurations are validated. -/
def validateConfig (s : Settings) (name : String) (config : Value) :
    Logged (Except Refusal Unit) :=
  if s.debug then
    let outcome := Assertions.standard.check "map" [config]
    match outcome.answer with
    | .ok _ => ⟨.ok (), outcome.events⟩
    | .error e =>
      ⟨.error (.invalidConfig name), outcome.events ++ [.configRefused name e.message]⟩
  else ⟨.ok (), []⟩

end Settings

namespace Registry

/-- Binds an interface to its name. -/
def bind (r : Registry) (d : Descriptor Value) : Written (Descriptor Value) :=
  let written := r.register d.name (.ofInterface d)
  { answer := d
    registry := written.registry
    events := written.events ++ [.declared d.name d.members.size (written.answer == .replaced)] }

/-- Declares an interface under `name`. -/
def declare (r : Registry) (s : Settings) (name : String) (config : Config) :
    Written (Except Refusal (Descriptor Value)) :=
  let named := s.validateName name
  match named.answer with
  | .error refusal => ⟨.error refusal, r, named.events⟩
  | .ok _ =>
    let bound := r.bind (config.descriptor name s.strictArity)
    ⟨.ok bound.answer, bound.registry, named.events ++ bound.events⟩

/-- Declares an interface from a dynamic configuration. The name is validated before the
configuration, and once more when what was read is declared. -/
def declareValue (r : Registry) (s : Settings) (name : String) (config : Value) :
    Written (Except Refusal (Descriptor Value)) :=
  let named := s.validateName name
  match named.answer with
  | .error refusal => ⟨.error refusal, r, named.events⟩
  | .ok _ =>
    let shaped := s.validateConfig name config
    match shaped.answer with
    | .error refusal => ⟨.error refusal, r, named.events ++ shaped.events⟩
    | .ok _ =>
      let declared := r.declare s name (.ofValue config)
      ⟨declared.answer, declared.registry, named.events ++ shaped.events ++ declared.events⟩

/-- The interface bound to `name`. A name bound to something else is as good as unbound. -/
def interface? (r : Registry) (name : String) : Logged (Option (Descriptor Value)) :=
  let found := (r.resolve? name).bind (·.intoInterface?)
  ⟨found, [.lookup name found.isSome]⟩

/-- What is found is the interface that the bound value carries. -/
theorem interface?_eq (r : Registry) (name : String) :
    r.interface? name = ⟨(r.resolve? name).bind (·.interface?),
      [.lookup name ((r.resolve? name).bind (·.interface?)).isSome]⟩ := by
  simp only [interface?, Value.intoInterface?_eq]

/-- Checks that `target` implements the interface bound to `name`. The name is looked up before
the target is looked at. -/
def checkNamed (r : Registry) (name : String) (target : Value) : Logged (Except Violation Unit) :=
  let found := r.interface? name
  match found.answer with
  | none => ⟨.error (.invalidInterface name), found.events⟩
  | some d =>
    let outcome := d.check target
    ⟨outcome.answer, found.events ++ outcome.events⟩

end Registry

end InterfaceCheck
