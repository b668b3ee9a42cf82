import InterfaceCheck.Value
/-!
# Violations

Why a check that something implements an interface fails. A check reports one violation, the
first that it meets.
-/

namespace InterfaceCheck

/-- What a member should have been. -/
inductive Expected where
  /-- A value of this kind. -/
  | kind (k : Kind)
  /-- An array. -/
  | array
deriving DecidableEq, Repr

def Expected.phrase : Expected → String
  | .kind k => "type " ++ k.name
  | .array => "an array"

/-- Why a check fails. -/
inductive Violation where
  /-- The target is neither a class nor an instance of one. -/
  | invalidTarget (target : String)
  /-- What should be the interface is not a declared one. -/
  | invalidInterface (interface : String)
  /-- A required member is found neither in the class nor in its ancestors. -/
  | missingMember (cls interface member : String)
  /-- A member has another kind than its sample, or is not an array as its sample is. -/
  | kindMismatch (cls interface member : String) (expected : Expected)
  /-- A callable member declares other parameters than its sample. -/
  | arityMismatch (cls interface member : String) (expected found : Nat)
deriving DecidableEq, Repr

namespace Violation

/-- The opening of a message about a class that falls short of an interface. -/
def shortfall (cls interface : String) : String :=
  "class " ++ cls ++ " does not implement interface " ++ interface ++ ": "

def message : Violation → String
  | .invalidTarget target => "invalid class or object to verify interface with: " ++ target
  | .invalidInterface interface => "invalid interface " ++ interface
  | .missingMember cls interface member =>
    shortfall cls interface ++ "missing member: " ++ member
  | .kindMismatch cls interface member expected =>
    shortfall cls interface ++ "different member types in: " ++ member ++ ", expecting "
      ++ expected.phrase
  | .arityMismatch cls interface member expected found =>
    shortfall cls interface ++ "different number of arguments in function '" ++ member
      ++ "', expecting " ++ toString expected ++ " (got " ++ toString found ++ ")"

end Violation

end InterfaceCheck
