import InterfaceCheck.Decimal
/-!
# The shortest decimal of a double

Every finite double is a decimal: a number of units of `10^-1074`. Its shortest decimal lies on
the coarsest grid of multiples of a power of ten that holds a number reading back as the double.
If a grid holds one, then one of the double's two neighbours on that grid reads back, so only
those are tried. Of two neighbours that read back the nearer is taken, and the upper one if they
are equally near.
-/

namespace InterfaceCheck.Binary64

/-- The magnitude of a finite double in units of `10^-1074`. -/
def decimalUnits (x : Binary64) : Nat := x.units * Nat.pow 5 1074

/-- Whether `n · 10^power` units of `10^-1074` read back as the magnitude of `x`. -/
def readsBack (x : Binary64) (power n : Nat) : Bool :=
  decide (nearest (n * Nat.pow 10 power) (Nat.pow 10 1074) = x.word)

/-- The neighbour of a number on a grid that passes the test. If both do it is the nearer, and the
upper one if they are equally near. -/
def neighbour? (passes : Nat → Bool) (units grid : Nat) : Option Nat :=
  let low := units / grid
  match passes low, passes (low + 1) with
  | true, true => some (if grid ≤ 2 * (units % grid) then low + 1 else low)
  | true, false => some low
  | false, true => some (low + 1)
  | false, false => none

/-- The multiple of `10^power` that stands for `x` on that grid, if one of its two neighbours
there reads back. -/
def onGrid? (x : Binary64) (power : Nat) : Option Nat :=
  neighbour? (x.readsBack power) x.decimalUnits (Nat.pow 10 power)

/-- The decimal on the first grid that has a number, from `10^power` down. The finest grid has the
one that is given. -/
def searchDown (onGrid? : Nat → Option Nat) (finest : Nat) : Nat → Decimal
  | 0 => ⟨finest, -1074⟩
  | power + 1 =>
    match onGrid? (power + 1) with
    | some n => ⟨n, (power + 1 : Nat) - 1074⟩
    | none => searchDown onGrid? finest power

/-- The shortest decimal that reads back as the magnitude of a finite double. No grid coarser
than the power of ten above the double can hold one, and the finest holds the double itself. -/
def shortest (x : Binary64) : Decimal :=
  searchDown x.onGrid? x.decimalUnits (Decimal.numeral x.decimalUnits).length

/-- How texts of doubles differ between their readers. -/
structure TextForm where
  /-- The text of a number that is none. -/
  notANumber : String
  /-- The text of the positive infinity. -/
  infinity : String
  /-- Whether an integral number ends in `.0`. -/
  fraction : Bool

/-- The text of a double: its shortest decimal, positionally. The negative zero shows its sign. -/
def text (form : TextForm) (x : Binary64) : String :=
  if x.isNaN then form.notANumber
  else
    let sign := if x.isNegative then "-" else ""
    if x.isInfinite then sign ++ form.infinity
    else if x.isZero then sign ++ (if form.fraction then "0.0" else "0")
    else
      let digits := x.shortest.positional
      let ending := if form.fraction && !digits.contains '.' then ".0" else ""
      sign ++ String.ofList digits ++ ending

end InterfaceCheck.Binary64
