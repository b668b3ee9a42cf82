/-!
# Doubles by their bits

A `Binary64` is the 64-bit word of an IEEE 754 double. All arithmetic on it is exact: a finite
double is `significand · 2^scale` units of `2^-1074`, two natural numbers, and rounding takes a
quotient of natural numbers to the nearest double with `nearest`.

The word of a magnitude is `scale · 2^52 + significand` for every finite double, subnormal or
normal, so one formula both encodes and orders magnitudes.
-/

namespace InterfaceCheck

/-- A double, given by its 64 bits. -/
structure Binary64 where
  bits : UInt64
deriving DecidableEq, Repr

namespace Binary64

/-! ### Fields -/

/-- The word of the infinite magnitude; larger words are not numbers. -/
def infiniteWord : Nat := 2047 * Nat.pow 2 52

/-- The bits without the sign, as a number. Magnitudes are ordered as these words are. -/
def word (x : Binary64) : Nat := x.bits.toNat % Nat.pow 2 63

/-- Whether the sign bit is set. -/
def isNegative (x : Binary64) : Bool := decide (Nat.pow 2 63 ≤ x.bits.toNat)

def isNaN (x : Binary64) : Bool := decide (infiniteWord < x.word)

def isInfinite (x : Binary64) : Bool := decide (x.word = infiniteWord)

def isFinite (x : Binary64) : Bool := decide (x.word < infiniteWord)

/-- Whether the number is zero, of either sign. -/
def isZero (x : Binary64) : Bool := decide (x.word = 0)

/-- The exponent of the unit in the last place, counted from the least one, `2^-1074`. -/
def scale (x : Binary64) : Nat := x.word / Nat.pow 2 52 - 1

/-- The units in the last place: at least `2^52` except at the least scale. -/
def significand (x : Binary64) : Nat := x.word - x.scale * Nat.pow 2 52

/-- The magnitude of a finite double in units of `2^-1074`. -/
def units (x : Binary64) : Nat := x.significand * Nat.pow 2 x.scale

/-- The double with the given sign and magnitude word. -/
def ofWord (negative : Bool) (word : Nat) : Binary64 :=
  ⟨UInt64.ofNat (if negative then Nat.pow 2 63 + word else word)⟩

/-! ### Rounding -/

/-- The integer nearest to `num / den`; of two equally near the even one. -/
def roundHalfEven (num den : Nat) : Nat :=
  let quotient := num / den
  let remainder := num % den
  if 2 * remainder < den then quotient
  else if den < 2 * remainder then quotient + 1
  else quotient + quotient % 2

/-- The magnitude word of the double nearest to `num / den` units of `2^-1074`, ties to the even
significand. The scale is the least at which the quotient has at most 53 bits. A magnitude past
the largest finite one becomes infinite. -/
def nearestUnits (num den : Nat) : Nat :=
  let scale := (num / den).log2 - 52
  min (scale * Nat.pow 2 52 + roundHalfEven num (den * Nat.pow 2 scale)) infiniteWord

/-- The magnitude word of the double nearest to `num / den`, ties to the even significand. -/
def nearest (num den : Nat) : Nat := nearestUnits (num * Nat.pow 2 1074) den

/-- The double nearest to an integer, ties to the even significand. -/
def ofInt (n : Int) : Binary64 := ofWord (decide (n < 0)) (nearest n.natAbs 1)

end Binary64

end InterfaceCheck
