import InterfaceCheck.Declaration
import InterfaceCheck.Session.Expr
import InterfaceCheck.Settings.Reading
/-!
# Commands and replies

What a session can be told to do, and what it answers. Registries, scopes and variables go by
name. A scope is what declares interfaces: a registry to declare into and the settings to do it
with.
-/

namespace InterfaceCheck

/-- A predicate that an assertion can be defined with. -/
inductive Criterion where
  | always
  | never
  /-- There is an argument. -/
  | hasArguments
  /-- The first argument is there and truthy. -/
  | truthy
  /-- The first argument is there and callable. -/
  | callable
deriving DecidableEq, Repr

def Criterion.holds : Criterion → List Value → Bool
  | .always, _ => true
  | .never, _ => false
  | .hasArguments, args => !args.isEmpty
  | .truthy, args => Assertions.ofFirst (·.isTruthy) args
  | .callable, args => Assertions.ofFirst (·.isCallable) args

/-- Who is asked to check that a target implements an interface. -/
inductive Route where
  /-- The checker of values. -/
  | values
  /-- A scope. -/
  | scope
  /-- The interface itself, which the value must carry. -/
  | descriptor
deriving DecidableEq, Repr

/-- The check that is asked for. A scope checks as the checker of values does: its settings play no
part, since an interface keeps those it was declared with. -/
def Route.check? (route : Route) (target interface : Value) :
    Option (Logged (Except Violation Unit)) :=
  match route with
  | .values | .scope => some (InterfaceCheck.checkImplements target interface)
  | .descriptor => interface.interface?.map (·.check target)

/-- The parts of an interface that a declaration writes out. -/
structure ConfigExpr where
  members : List (String × Expr)
  events : Option Expr
  properties : Option Expr

/-- What a session can be told to do. A `target` is the variable that takes up the result. -/
inductive Command where
  /-- Sets a variable. -/
  | assign (target : String) (value : Expr)
  /-- Describes a value, and what it has under a key. -/
  | describe (value : Expr) (key : Option String)
  | register (symbols name : String) (value : Expr)
  | resolve (symbols name : String) (target : Option String)
  | contains (symbols name : String)
  /-- Lists a registry. -/
  | listSymbols (symbols : String)
  /-- Makes a scope, with settings from a document or the defaults, and some set over them. -/
  | openScope (scope symbols : String) (document : Option String)
      (debug strictArity : Option Bool)
  | settingsOf (scope : String)
  | symbolsOf (scope : String)
  | summarizeScope (scope : String)
  | declare (scope name : String) (config : ConfigExpr) (target : Option String)
  | declareValue (scope name : String) (config : Expr) (target : Option String)
  /-- Reads a value as a configuration. -/
  | readConfig (config : Expr)
  | lookup (scope name : String) (target : Option String)
  | asInterface (value : Expr)
  | checkImplements (route : Route) (target interface : Expr)
  | checkNamed (scope name : String) (target : Expr)
  /-- Starts a new assertion table, with or without the ready-made assertions. -/
  | newTable (builtin interfaces : Bool)
  | addInterfaceAssertions
  | addAssertion (name : String) (criterion : Criterion) (template : String)
  /-- The last four look at a scope's table if one is named, and else at the session's. -/
  | summarizeTable (scope : Option String)
  | hasAssertion (scope : Option String) (name : String)
  | templateOf (scope : Option String) (name : String)
  | checkAssertion (scope : Option String) (name : String) (args : List Expr)

/-- What a session answers. -/
inductive Reply where
  | value (v : Value)
  | description (v : Value) (key : Option String)
  | insertion (i : Insertion)
  | found (v : Option Value)
  | flag (b : Bool)
  | symbols (registry : Registry)
  | names (names : List String)
  | text (s : String)
  | template (s : Option String)
  | settings (s : Settings)
  | settingsError (e : SettingsError)
  | interface (d : Option (Descriptor Value))
  | refused (r : Refusal)
  | config (c : Config)
  | verdict (v : Except Violation Unit)
  | assertion (a : Except AssertionError Unit)

end InterfaceCheck
