import InterfaceCheck.Violation
/-!
# Log events

What the operations report while they work. An operation that reports answers with a `Logged`
value: its answer and the events on the way to it, in order.
-/

namespace InterfaceCheck

universe u

/-- How much a reader of the log is expected to care. -/
inductive Level where
  | debug
  | trace
deriving DecidableEq, Repr

def Level.name : Level → String
  | .debug => "DEBUG"
  | .trace => "TRACE"

/-- Something that happened. -/
inductive Event where
  /-- A new name was bound in a registry. -/
  | registered (symbol : String)
  /-- A name was bound once more. -/
  | replaced (symbol : String)
  /-- An interface was declared with this many required members; whether its name was bound
  before. -/
  | declared (interface : String) (members : Nat) (again : Bool)
  /-- A declaration was refused for its name. -/
  | nameRefused (interface error : String)
  /-- A declaration was refused for its configuration. -/
  | configRefused (interface error : String)
  /-- An interface was looked up by its name. -/
  | lookup (interface : String) (found : Bool)
  /-- A class was found to implement an interface. -/
  | satisfied (cls interface : String)
  /-- A class was found not to implement an interface. -/
  | notSatisfied (cls interface : String) (violation : Violation)
deriving DecidableEq, Repr

namespace Event

/-- New bindings, lookups and passed checks are everyday; the rest is worth a look. -/
def level : Event → Level
  | .registered _ | .lookup _ _ | .satisfied _ _ => .trace
  | .replaced _ | .declared _ _ _ | .nameRefused _ _ | .configRefused _ _
  | .notSatisfied _ _ _ => .debug

def message : Event → String
  | .registered _ => "registered symbol"
  | .replaced _ => "replaced existing symbol"
  | .declared _ _ _ => "declared interface"
  | .nameRefused _ _ => "invalid interface name"
  | .configRefused _ _ => "invalid interface configuration"
  | .lookup _ _ => "interface lookup"
  | .satisfied _ _ => "interface satisfied"
  | .notSatisfied _ _ _ => "interface not satisfied"

def flag (b : Bool) : String := if b then "true" else "false"

/-- The named details of the event, as text. -/
def fields : Event → List (String × String)
  | .registered symbol | .replaced symbol => [("symbol", symbol)]
  | .declared interface members again =>
    [("interface", interface), ("members", toString members), ("replaced", flag again)]
  | .nameRefused interface error | .configRefused interface error =>
    [("interface", interface), ("error", error)]
  | .lookup interface found => [("interface", interface), ("found", flag found)]
  | .satisfied cls interface => [("class", cls), ("interface", interface)]
  | .notSatisfied cls interface violation =>
    [("class", cls), ("interface", interface), ("error", violation.message)]

end Event

/-- An answer with the events that were reported on the way to it. -/
structure Logged (α : Type u) where
  answer : α
  events : List Event := []

end InterfaceCheck
