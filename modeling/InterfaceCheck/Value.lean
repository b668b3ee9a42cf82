import InterfaceCheck.Binary64
import InterfaceCheck.Class
/-!
# Dynamic values

A `Value` is what a dynamically typed program computes with. Its `Kind` is coarse: null, arrays,
maps, instances and host objects are all objects, and a class is a function, since calling it
makes an instance.

A declared interface is carried as a host object. Only declaring one makes it, so what the object
is tells that it was declared, and it needs no mark that could be compared. Any other host object is
foreign, known by its display text alone. Whoever asks an object what it is, be it through a
reference or by giving up a handle to it, is answered with the object itself.
-/

namespace InterfaceCheck

universe u

/-- A declared interface: what a class must have to implement it. -/
structure Descriptor (α : Type u) where
  name : String
  /-- The required members with a sample of each, in the order in which they are checked. -/
  members : Table α
  /-- Metadata about events, carried and never checked. -/
  events : Option α
  /-- Metadata about properties, carried and never checked. -/
  properties : Option α
  /-- Whether the arities of callable members are compared. -/
  strictArity : Bool

/-- An object that belongs to the host of the program. -/
inductive Host (α : Type u) where
  /-- An object of the embedding program, which displays as it says. -/
  | foreign (display : String)
  /-- A declared interface. -/
  | interface (descriptor : Descriptor α)

/-- The declared interface that the object is. -/
def Host.descriptor? {α : Type u} : Host α → Option (Descriptor α)
  | .foreign _ => none
  | .interface descriptor => some descriptor

/-- A dynamically typed value. -/
inductive Value where
  | undefined
  | null
  | bool (b : Bool)
  | number (x : Binary64)
  | string (s : String)
  | function (signature : Signature)
  | array (items : List Value)
  | map (entries : Table Value)
  | cls (c : Class Value)
  | inst (i : Instance Value)
  | host (h : Host Value)

/-- The coarse kind of a value. -/
inductive Kind where
  | undefined
  | boolean
  | number
  | string
  | function
  | object
deriving DecidableEq, Repr

/-- The name of the kind. -/
def Kind.name : Kind → String
  | .undefined => "undefined"
  | .boolean => "boolean"
  | .number => "number"
  | .string => "string"
  | .function => "function"
  | .object => "object"

namespace Value

instance : Inhabited Value := ⟨undefined⟩

/-- A 64-bit integer becomes the nearest number. -/
def ofInt64 (n : Int64) : Value := .number (.ofInt n.toInt)

/-- A 32-bit integer becomes the number that it is. -/
def ofInt32 (n : Int32) : Value := .number (.ofInt n.toInt)

def kind : Value → Kind
  | .undefined => .undefined
  | .bool _ => .boolean
  | .number _ => .number
  | .string _ => .string
  | .function _ | .cls _ => .function
  | .null | .array _ | .map _ | .inst _ | .host _ => .object

/-- False for undefined, null, `false`, both zeros, NaN and the empty string. -/
def isTruthy : Value → Bool
  | .undefined | .null => false
  | .bool b => b
  | .number x => !x.isZero && !x.isNaN
  | .string s => !s.isEmpty
  | _ => true

def isArray : Value → Bool
  | .array _ => true
  | _ => false

/-- Whether the value is a plain map; instances and host objects are none. -/
def isMap : Value → Bool
  | .map _ => true
  | _ => false

def isClass : Value → Bool
  | .cls _ => true
  | _ => false

def isHost : Value → Bool
  | .host _ => true
  | _ => false

/-- The signature of a callable: a function's own, or that of a class's constructor. -/
def signature? : Value → Option Signature
  | .function signature => some signature
  | .cls c => some c.ctor
  | _ => none

/-- Whether the value can be called: functions and classes. -/
def isCallable (v : Value) : Bool := v.signature?.isSome

theorem isCallable_iff {v : Value} : v.isCallable = true ↔ v.kind = .function := by
  cases v <;> simp [isCallable, signature?, kind]

/-- Values of one kind are both callable or neither is. -/
theorem isCallable_eq_of_kind_eq {a b : Value} (h : a.kind = b.kind) :
    a.isCallable = b.isCallable := by
  rw [Bool.eq_iff_iff, isCallable_iff, isCallable_iff, h]

/-- The characters of a string. -/
def text? : Value → Option String
  | .string s => some s
  | _ => none

/-- The entries of a plain map. -/
def entries? : Value → Option (Table Value)
  | .map entries => some entries
  | _ => none

/-- The value under `key` in a plain map. -/
def get? (v : Value) (key : String) : Option Value := v.entries?.bind (·.get? key)

/-- The interface that the value carries, looked at through the value. -/
def interface? : Value → Option (Descriptor Value)
  | .host (.interface descriptor) => some descriptor
  | _ => none

/-- The interface that the value carries, as a handle that the value is given up for. -/
def intoInterface? : Value → Option (Descriptor Value)
  | .host object => object.descriptor?
  | _ => none

def isInterface (v : Value) : Bool := v.interface?.isSome

/-- The class of a class or of an instance: what a check of the value looks at. -/
def class? : Value → Option (Class Value)
  | .cls c => some c
  | .inst i => some i.cls
  | _ => none

/-- The value that carries an interface. -/
def ofInterface (descriptor : Descriptor Value) : Value := .host (.interface descriptor)

/-- Both ways to an interface lead to the same. -/
@[simp] theorem intoInterface?_eq (v : Value) : v.intoInterface? = v.interface? := by
  cases v with
  | host object => cases object <;> rfl
  | _ => rfl

@[simp] theorem interface?_ofInterface (d : Descriptor Value) :
    (ofInterface d).interface? = some d := rfl

theorem interface?_eq_some_iff {v : Value} {d : Descriptor Value} :
    v.interface? = some d ↔ v = ofInterface d := by
  constructor
  · intro h
    unfold interface? at h
    split at h
    · injection h with h; subst h; rfl
    · cases h
  · rintro rfl; rfl

/-- A value with a class is truthy. -/
theorem isTruthy_of_class? {v : Value} {c : Class Value} (h : v.class? = some c) :
    v.isTruthy = true := by
  cases v <;> simp_all [class?, isTruthy]

end Value

end InterfaceCheck
