import InterfaceCheck.Binary64
/-!
# Doubles as integers

A finite double is integral if its units make up whole ones. Every double can be taken to a 64-bit
integer: towards zero, to the nearer end of the range from beyond it, and to zero from what is no
number.
-/

namespace InterfaceCheck.Binary64

/-- The units of `2^-1074` that make up one. -/
def unitsOfOne : Nat := Nat.pow 2 1074

/-- Whether the double is an integer. -/
def isIntegral (x : Binary64) : Bool := x.isFinite && decide (x.units % unitsOfOne = 0)

/-- Whether the magnitude of the double is less than the number. -/
def isBelow (limit : Nat) (x : Binary64) : Bool := decide (x.units < limit * unitsOfOne)

/-- The double without its fraction. -/
def truncated (x : Binary64) : Int :=
  let magnitude : Int := (x.units / unitsOfOne : Nat)
  if x.isNegative then -magnitude else magnitude

/-- The double as a 64-bit integer. -/
def toInt64 (x : Binary64) : Int64 := if x.isNaN then 0 else .ofIntClamp x.truncated

end InterfaceCheck.Binary64
