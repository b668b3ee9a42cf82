import InterfaceCheck.Table
/-!
# Classes and instances

A class has a name, the signature of its constructor, a table of members and perhaps a parent. A
member is looked up in the class itself and then along its ancestors, so the nearest definition
hides those above it. What the members are is left open: both types take the type of their values
as a parameter.

A class comes about by a sequence of `ClassStep`s, in any order and with repetitions.
-/

namespace InterfaceCheck

universe u

/-- What a callable declares: its parameters before a rest parameter, and whether it has one. -/
structure Signature where
  arity : Nat
  rest : Bool
deriving DecidableEq, Repr

/-- A class over members of type `α`. -/
structure Class (α : Type u) where
  name : String
  /-- The signature of the constructor. -/
  ctor : Signature
  /-- The class that this one extends. -/
  parent : Option (Class α)
  /-- The members that the class itself defines. -/
  members : Table α

namespace Class

variable {α : Type u}

/-- The member under `key`: the class's own, or else that of the nearest ancestor with one. -/
def member? : Class α → String → Option α
  | ⟨_, _, none, members⟩, key => members.get? key
  | ⟨_, _, some parent, members⟩, key => (members.get? key).or (parent.member? key)
termination_by structural c => c

/-- The class and its ancestors, nearest first. -/
def lineage : Class α → List (Class α)
  | ⟨name, ctor, none, members⟩ => [⟨name, ctor, none, members⟩]
  | ⟨name, ctor, some parent, members⟩ => ⟨name, ctor, some parent, members⟩ :: parent.lineage
termination_by structural c => c

/-- A class without members, parent or constructor parameters. -/
def bare (name : String) : Class α := ⟨name, ⟨0, false⟩, none, .empty⟩

end Class

/-- One step in building a class. -/
inductive ClassStep (α : Type u) where
  /-- Sets the constructor's signature. -/
  | constructor (signature : Signature)
  /-- Sets the parent. -/
  | extending (parent : Class α)
  /-- Defines a member, in the place of an earlier one under the same key. -/
  | member (key : String) (value : α)

namespace Class

variable {α : Type u}

/-- The class after one more step. -/
def apply (c : Class α) : ClassStep α → Class α
  | .constructor signature => { c with ctor := signature }
  | .extending parent => { c with parent := some parent }
  | .member key value => { c with members := c.members.insert key value }

/-- The class that a sequence of steps builds. -/
def build (name : String) (steps : List (ClassStep α)) : Class α := steps.foldl apply (bare name)

/-! ### Lookup -/

theorem member?_eq (c : Class α) (key : String) :
    c.member? key = (c.members.get? key).or (c.parent.bind (·.member? key)) := by
  obtain ⟨name, ctor, parent, members⟩ := c
  cases parent <;> simp [member?]

/-- An own member is found whatever the ancestors define. -/
theorem member?_of_own {c : Class α} {key : String} {value : α}
    (h : c.members.get? key = some value) : c.member? key = some value := by
  rw [member?_eq, h]; rfl

/-- Without an own member the parent decides. -/
theorem member?_of_not_own {c : Class α} {key : String} (h : c.members.get? key = none) :
    c.member? key = c.parent.bind (·.member? key) := by
  rw [member?_eq, h]; rfl

end Class

/-- An instance of a class with fields of its own. Fields never stand in for members. -/
structure Instance (α : Type u) where
  cls : Class α
  fields : Table α

namespace Instance

variable {α : Type u}

/-- A new instance, without fields. -/
def of (c : Class α) : Instance α := ⟨c, .empty⟩

/-- Sets a field, in the place of an earlier one under the same key. -/
def withField (i : Instance α) (key : String) (value : α) : Instance α :=
  { i with fields := i.fields.insert key value }

/-- The instance's own field under `key`. -/
def field? (i : Instance α) (key : String) : Option α := i.fields.get? key

end Instance

end InterfaceCheck
