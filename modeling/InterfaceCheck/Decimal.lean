import InterfaceCheck.Binary64
/-!
# Decimals

A `Decimal` is `digits · 10^exponent`. It is written positionally, never with an exponent, and
read to the nearest double.
-/

namespace InterfaceCheck

/-- The number `digits · 10^exponent`. -/
structure Decimal where
  digits : Nat
  exponent : Int
deriving DecidableEq, Repr

namespace Decimal

/-- The decimal digits of a number, first digit first; a single `0` for zero. -/
def numeral (n : Nat) : List Char := Nat.toDigits 10 n

/-- A number of tenth parts: `places` digits stand after the point, and at least one before it. -/
def pointed (digits : List Char) (places : Nat) : List Char :=
  if places < digits.length then
    digits.take (digits.length - places) ++ '.' :: digits.drop (digits.length - places)
  else
    '0' :: '.' :: (List.replicate (places - digits.length) '0' ++ digits)

/-- The positional text: zeros fill up to the point on either side. -/
def positional (d : Decimal) : List Char :=
  if d.digits = 0 then ['0']
  else if 0 ≤ d.exponent then numeral d.digits ++ List.replicate d.exponent.toNat '0'
  else pointed (numeral d.digits) (-d.exponent).toNat

/-- The magnitude word of the double nearest to the decimal.

A decimal of at least `10^310` is past every finite double and one below `10^-400` is below half
of the least, so no power of ten is computed for them. -/
def nearest (d : Decimal) : Nat :=
  let length : Int := (numeral d.digits).length
  if d.digits = 0 ∨ length + d.exponent < -400 then 0
  else if 310 < length + d.exponent then Binary64.infiniteWord
  else if 0 ≤ d.exponent then Binary64.nearest (d.digits * Nat.pow 10 d.exponent.toNat) 1
  else Binary64.nearest d.digits (Nat.pow 10 (-d.exponent).toNat)

end Decimal

end InterfaceCheck
