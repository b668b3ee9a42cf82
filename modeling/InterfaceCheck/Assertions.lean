import InterfaceCheck.Conformance
import InterfaceCheck.ModuleName
import InterfaceCheck.Template
import InterfaceCheck.Text.Quoted
/-!
# Named assertions

An assertion is a predicate on arguments with a template for the message of its failure. A table
of assertions binds names to them; the last definition of a name counts.
-/

namespace InterfaceCheck

/-- A predicate with the template of its failure message. -/
structure Assertion where
  /-- Whether the assertion holds of the arguments. -/
  holds : List Value → Logged Bool
  template : String

/-- Why an assertion fails. -/
inductive AssertionError where
  /-- There is no assertion of that name. -/
  | unknown (name : String)
  /-- The predicate does not hold of the arguments. -/
  | failed (name message : String)
deriving DecidableEq, Repr

namespace AssertionError

/-- The name of the assertion. -/
def name : AssertionError → String
  | .unknown name | .failed name _ => name

def message : AssertionError → String
  | .unknown name => "unknown assertion: " ++ name
  | .failed _ message => message

end AssertionError

/-- Assertions by name. -/
structure Assertions where
  table : Table Assertion

namespace Assertions

/-- The table without assertions. -/
def empty : Assertions := ⟨.empty⟩

instance : Inhabited Assertions := ⟨empty⟩

/-- Defines an assertion, in the place of an earlier one of its name. -/
def add (a : Assertions) (name : String) (holds : List Value → Logged Bool) (template : String) :
    Assertions :=
  ⟨a.table.insert name ⟨holds, template⟩⟩

/-- What `add` under `name` does to the table. -/
def insertion (a : Assertions) (name : String) : Insertion := a.table.insertion name

def contains (a : Assertions) (name : String) : Bool := a.table.contains name

/-- The template of an assertion, with its placeholders. -/
def template? (a : Assertions) (name : String) : Option String :=
  (a.table.get? name).map (·.template)

/-- Checks the assertion `name` of the arguments. -/
def check (a : Assertions) (name : String) (args : List Value) :
    Logged (Except AssertionError Unit) :=
  match a.table.get? name with
  | none => ⟨.error (.unknown name), []⟩
  | some assertion =>
    let outcome := assertion.holds args
    if outcome.answer then ⟨.ok (), outcome.events⟩
    else ⟨.error (.failed name (formatMessage assertion.template args)), outcome.events⟩

/-- The names in ascending order. -/
def names (a : Assertions) : List String := a.table.sortedKeys

/-- The table as its developers see it: the names, quoted. -/
def summary (a : Assertions) : String :=
  Text.record "Assertions" [("names", Text.quoteList a.names)]

/-! ### Predicates -/

/-- A predicate that reports nothing. -/
def quietly (holds : List Value → Bool) (args : List Value) : Logged Bool := ⟨holds args, []⟩

/-- Whether the first argument is there and has the property. -/
def ofFirst (property : Value → Bool) (args : List Value) : Bool := args.head?.any property

/-- Whether the value is a string that is a module name. -/
def isModuleNameValue (v : Value) : Bool := v.text?.any isModuleName

/-- Whether the first argument implements the second; further arguments do not count. -/
def implementsSecond : List Value → Logged Bool
  | target :: interface :: _ =>
    let outcome := checkImplements target interface
    ⟨outcome.answer.isOk, outcome.events⟩
  | _ => ⟨false, []⟩

/-! ### Ready-made tables -/

/-- The assertions about strings, maps and module names. -/
def builtin : Assertions :=
  empty
    |>.add "string" (quietly (ofFirst (·.text?.isSome))) "Not a string: %1"
    |>.add "map" (quietly (ofFirst (·.isMap))) "Not a map: %1"
    |>.add "moduleName" (quietly (ofFirst isModuleNameValue)) "Invalid module name: %1"

/-- Adds the assertions about interfaces. -/
def withInterfaces (a : Assertions) : Assertions :=
  a.add "implementsInterface" implementsSecond "Does not implement %1!"
    |>.add "isInterface" (quietly (ofFirst (·.isInterface))) "Invalid interface!"

/-- The table that declarations are validated with. -/
def standard : Assertions := builtin.withInterfaces

end Assertions

end InterfaceCheck
