import InterfaceCheck.Session.Command
/-!
# Sessions

A session holds named registries, named scopes over them, variables and one assertion table, and
runs commands on them. A registry that has not been named before is empty; a scope that has not
been opened declares into the main registry with the default settings of the session.

A command that fails changes no more than its reply says, and the session goes on with the next.
-/

namespace InterfaceCheck

/-- The name of a registry, and the settings to declare into it with. -/
structure Scope where
  symbols : String
  settings : Settings

/-- The state of a session. -/
structure Session where
  /-- The settings of scopes that ask for none. -/
  defaults : Settings
  registries : Table Registry
  scopes : Table Scope
  vars : Table Value
  assertions : Assertions

namespace Session

/-- The name of the registry and of the scope that are meant where none is named. -/
def mainName : String := "main"

/-- A session in which nothing has happened. -/
def initial (defaults : Settings := .standard true) : Session :=
  ⟨defaults, .empty, .empty, .empty, .empty⟩

instance : Inhabited Session := ⟨initial⟩

/-- A registry by its name. -/
def registry (s : Session) (name : String) : Registry := (s.registries.get? name).getD .empty

/-- A scope by its name. -/
def scope (s : Session) (name : String) : Scope :=
  (s.scopes.get? name).getD ⟨mainName, s.defaults⟩

/-- The assertion table of a scope, or of the session. All scopes have the standard one. -/
def assertionsOf (s : Session) : Option String → Assertions
  | none => s.assertions
  | some _ => .standard

def withRegistry (s : Session) (name : String) (r : Registry) : Session :=
  { s with registries := s.registries.insert name r }

def withVar (s : Session) (name : String) (value : Value) : Session :=
  { s with vars := s.vars.insert name value }

/-- The session with a result in a variable, if there are both. -/
def withResult (s : Session) : Option String → Option Value → Session
  | some name, some value => s.withVar name value
  | _, _ => s

/-- The text that stands for a scope. -/
def summary (s : Session) (scope : Scope) : String :=
  let settings := [("debug", Event.flag scope.settings.debug),
    ("strict_arity", Event.flag scope.settings.strictArity)]
  Text.record "Interfaces"
    [("symbols", (s.registry scope.symbols).summary),
      ("settings", Text.record "Settings" settings),
      ("assertions", Assertions.standard.summary)]

/-- What a command comes to: the session after it, its reply, and what was reported. -/
structure Outcome where
  session : Session
  reply : Reply
  events : List Event := []

/-- The outcome of a declaration into a registry. -/
def declared (s : Session) (symbols : String) (target : Option String)
    (w : Written (Except Refusal (Descriptor Value))) : Outcome :=
  let after := s.withRegistry symbols w.registry
  match w.answer with
  | .error refusal => ⟨after, .refused refusal, w.events⟩
  | .ok d => ⟨after.withResult target (some (.ofInterface d)), .interface (some d), w.events⟩

/-- The settings for a new scope. -/
def settingsFor (s : Session) (document : Option String) (debug strictArity : Option Bool) :
    Except SettingsError Settings :=
  let base := document.elim (.ok s.defaults) (Settings.ofToml · s.defaults)
  base.map fun b =>
    { debug := debug.getD b.debug, strictArity := strictArity.getD b.strictArity }

/-- Runs a command. There is no outcome if an expression of the command has no value, or if a
value does not carry the interface that is asked to check. -/
def step? (s : Session) : Command → Option Outcome
  | .assign target value => do
    let v ← value.eval? s.vars
    some ⟨s.withVar target v, .value v, []⟩
  | .describe value key => do
    let v ← value.eval? s.vars
    some ⟨s, .description v key, []⟩
  | .register symbols name value => do
    let v ← value.eval? s.vars
    let w := (s.registry symbols).register name v
    some ⟨s.withRegistry symbols w.registry, .insertion w.answer, w.events⟩
  | .resolve symbols name target =>
    let found := (s.registry symbols).resolve? name
    some ⟨s.withResult target found, .found found, []⟩
  | .contains symbols name => some ⟨s, .flag ((s.registry symbols).contains name), []⟩
  | .listSymbols symbols => some ⟨s, .symbols (s.registry symbols), []⟩
  | .openScope name symbols document debug strictArity =>
    match s.settingsFor document debug strictArity with
    | .error e => some ⟨s, .settingsError e, []⟩
    | .ok settings =>
      some ⟨{ s with scopes := s.scopes.insert name ⟨symbols, settings⟩ }, .settings settings, []⟩
  | .settingsOf name => some ⟨s, .settings (s.scope name).settings, []⟩
  | .symbolsOf name => some ⟨s, .names (s.registry (s.scope name).symbols).names, []⟩
  | .summarizeScope name => some ⟨s, .text (s.summary (s.scope name)), []⟩
  | .declare name interface config target => do
    let members ← Expr.evalFields? s.vars config.members
    let events ← config.events.mapM (·.eval? s.vars)
    let properties ← config.properties.mapM (·.eval? s.vars)
    let scope := s.scope name
    some <| s.declared scope.symbols target <|
      (s.registry scope.symbols).declare scope.settings interface
        ⟨.ofList members, events, properties⟩
  | .declareValue name interface config target => do
    let v ← config.eval? s.vars
    let scope := s.scope name
    some <| s.declared scope.symbols target <|
      (s.registry scope.symbols).declareValue scope.settings interface v
  | .readConfig config => do
    let v ← config.eval? s.vars
    some ⟨s, .config (.ofValue v), []⟩
  | .lookup name interface target =>
    let found := (s.registry (s.scope name).symbols).interface? interface
    some ⟨s.withResult target (found.answer.map .ofInterface), .interface found.answer,
      found.events⟩
  | .asInterface value => do
    let v ← value.eval? s.vars
    some ⟨s, .interface v.interface?, []⟩
  | .checkImplements route target interface => do
    let target ← target.eval? s.vars
    let interface ← interface.eval? s.vars
    let outcome ← route.check? target interface
    some ⟨s, .verdict outcome.answer, outcome.events⟩
  | .checkNamed name interface target => do
    let target ← target.eval? s.vars
    let outcome := (s.registry (s.scope name).symbols).checkNamed interface target
    some ⟨s, .verdict outcome.answer, outcome.events⟩
  | .newTable builtin interfaces =>
    let base := if builtin then Assertions.builtin else .empty
    let table := if interfaces then base.withInterfaces else base
    some ⟨{ s with assertions := table }, .text table.summary, []⟩
  | .addInterfaceAssertions =>
    let table := s.assertions.withInterfaces
    some ⟨{ s with assertions := table }, .text table.summary, []⟩
  | .addAssertion name criterion template =>
    let table := s.assertions.add name (Assertions.quietly criterion.holds) template
    some ⟨{ s with assertions := table }, .insertion (s.assertions.insertion name), []⟩
  | .summarizeTable scope => some ⟨s, .text (s.assertionsOf scope).summary, []⟩
  | .hasAssertion scope name => some ⟨s, .flag ((s.assertionsOf scope).contains name), []⟩
  | .templateOf scope name => some ⟨s, .template ((s.assertionsOf scope).template? name), []⟩
  | .checkAssertion scope name args => do
    let values ← Expr.evalAll? s.vars args
    let outcome := (s.assertionsOf scope).check name values
    some ⟨s, .assertion outcome.answer, outcome.events⟩

/-- Runs commands one after the other and gives the outcome of each. -/
def run? (s : Session) : List Command → Option (List Outcome)
  | [] => some []
  | c :: rest => do
    let outcome ← s.step? c
    let outcomes ← outcome.session.run? rest
    some (outcome :: outcomes)

end Session

end InterfaceCheck
