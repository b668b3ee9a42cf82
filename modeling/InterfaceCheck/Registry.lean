import InterfaceCheck.Event
import InterfaceCheck.Table
import InterfaceCheck.Text.Quoted
/-!
# Symbol registries

A registry binds names to values. The last write to a name wins. A name is an opaque key: dots in
it have no meaning to the registry.
-/

namespace InterfaceCheck

universe u

/-- The bindings of names to values. -/
structure Registry where
  bindings : Table Value

/-- The outcome of an operation that may write to a registry. -/
structure Written (α : Type u) where
  answer : α
  /-- The registry after the operation. -/
  registry : Registry
  events : List Event := []

namespace Registry

/-- The registry without names. -/
def empty : Registry := ⟨.empty⟩

instance : Inhabited Registry := ⟨empty⟩

/-- Binds `name`, in the place of any earlier binding. -/
def register (r : Registry) (name : String) (value : Value) : Written Insertion where
  answer := r.bindings.insertion name
  registry := ⟨r.bindings.insert name value⟩
  events :=
    match r.bindings.insertion name with
    | .added => [.registered name]
    | .replaced => [.replaced name]

/-- The value bound to `name`. -/
def resolve? (r : Registry) (name : String) : Option Value := r.bindings.get? name

def contains (r : Registry) (name : String) : Bool := r.bindings.contains name

/-- The bound names in ascending order. -/
def names (r : Registry) : List String := r.bindings.sortedKeys

def size (r : Registry) : Nat := r.bindings.size

def isEmpty (r : Registry) : Bool := r.size == 0

/-- The registry as its developers see it: only its size shows. -/
def summary (r : Registry) : String :=
  Text.record "SymbolRegistry" [("len", toString r.size)]

end Registry

end InterfaceCheck
