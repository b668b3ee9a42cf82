import InterfaceCheck.Decimal
import InterfaceCheck.Toml.Text
/-!
# TOML: numbers

Integers are decimal with an optional sign, or hexadecimal, octal or binary without one. Floats
are decimal with a fraction, an exponent or both, or the words `inf` and `nan`. An underscore may
stand between two digits. Decimal digits before the point do not start with a superfluous zero.

Reading a document only finds out what kind of number a run of characters is. What number it is
shows when somebody asks, and a literal that was read need not denote one: `0x` has no digits, and
in a decimal integer with underscores only the characters beside the underscores are looked at,
which hexadecimal digits satisfy too. TOML itself is stricter and calls these malformed. The library
that documents of this kind are in use with takes them for integers, as its answers show, and so
does this reader.
-/

namespace InterfaceCheck.Toml

/-! ### Integers -/

/-- An integer as it is written, without its underscores. -/
structure IntegerLiteral where
  base : Nat
  negative : Bool
  digits : List Char
deriving DecidableEq, Repr

/-- The value of a digit in a base. -/
def digitIn? (base : Nat) (c : Char) : Option Nat := (hexDigit? c).filter (· < base)

/-- Whether the character is a digit in a base. -/
def isDigitIn (base : Nat) (c : Char) : Bool := (digitIn? base c).isSome

/-- The number that digits denote in a base. Without digits there is none. -/
def numberIn? (base : Nat) (digits : List Char) : Option Nat :=
  if digits.isEmpty then none
  else (digits.mapM (digitIn? base)).map (·.foldl (fun n d => base * n + d) 0)

/-- The number that the literal denotes, if all of it is digits of its base. -/
def IntegerLiteral.value? (i : IntegerLiteral) : Option Int :=
  (numberIn? i.base i.digits).map fun n => if i.negative then -(n : Int) else n

/-- The run without its underscores, if each of them has a digit on either side. `afterDigit` tells
whether a digit stands before the run. -/
def ungroup? (isDigit : Char → Bool) : Bool → List Char → Option (List Char)
  | _, [] => some []
  | afterDigit, '_' :: c :: rest =>
    if afterDigit && isDigit c then (ungroup? isDigit true rest).map (c :: ·) else none
  | _, c :: rest =>
    if c = '_' then none else (ungroup? isDigit (isDigit c) rest).map (c :: ·)

/-- Whether a minus sign stands in front, and the run without its sign. -/
def unsigned : List Char → Bool × List Char
  | '-' :: rest => (true, rest)
  | '+' :: rest => (false, rest)
  | run => (false, run)

/-- Whether the character starts the exponent of a float. -/
def isExponentMark (c : Char) : Bool := c == 'e' || c == 'E'

/-- The characters foreign to integers: those that make a run a float, and the space. -/
def isForeign (c : Char) : Bool := c == '.' || c == ' ' || isExponentMark c

/-- The digits after the mark of a base other than ten. -/
def radixDigits? (base : Nat) (digits : List Char) : Option IntegerLiteral :=
  if digits.all fun c => c == '_' || isDigitIn base c then
    (ungroup? (isDigitIn base) false digits).map (⟨base, false, ·⟩)
  else none

/-- The run as a decimal integer: digits, and from the first underscore on anything that is not
foreign to them. -/
def decimalInteger? (run : List Char) : Option IntegerLiteral :=
  let (negative, body) := unsigned run
  let rest := body.dropWhile Char.isDigit
  if body.isEmpty || (body.head? == some '0' && body.length != 1) then none
  else if (rest.isEmpty || rest.head? == some '_') && !rest.any isForeign then
    (ungroup? (isDigitIn 16) false body).map (⟨10, negative, ·⟩)
  else none

/-- The run as an integer. -/
def integer? : List Char → Option IntegerLiteral
  | '0' :: 'x' :: digits => radixDigits? 16 digits
  | '0' :: 'o' :: digits => radixDigits? 8 digits
  | '0' :: 'b' :: digits => radixDigits? 2 digits
  | run => decimalInteger? run

/-! ### Floats -/

/-- A floating point number as it is written. -/
inductive FloatLiteral where
  | finite (negative : Bool) (magnitude : Decimal)
  | infinite (negative : Bool)
  | notANumber
deriving DecidableEq, Repr

/-- The nearest double. A finite literal past the largest finite double has none. -/
def FloatLiteral.binary64? : FloatLiteral → Option Binary64
  | .finite negative magnitude =>
    let word := magnitude.nearest
    if word = Binary64.infiniteWord then none else some (.ofWord negative word)
  | .infinite negative => some (.ofWord negative Binary64.infiniteWord)
  | .notANumber => some (.ofWord false (Binary64.infiniteWord + 1))

/-- The exponent of a float: nothing, or a mark, an optional sign and digits. -/
def exponent? : List Char → Option Int
  | [] => some 0
  | _ :: rest =>
    let (negative, digits) := unsigned rest
    (numberIn? 10 digits).map fun n => if negative then -(n : Int) else n

/-- The number that digits with a fraction, an exponent or both denote. -/
def decimal? (digits : List Char) : Option Decimal :=
  let mantissa := digits.takeWhile fun c => !isExponentMark c
  let power := digits.dropWhile fun c => !isExponentMark c
  let whole := mantissa.takeWhile (· != '.')
  match numberIn? 10 whole, mantissa.dropWhile (· != '.'), exponent? power with
  | some n, [], some e => if power.isEmpty then none else some ⟨n, e⟩
  | some n, _ :: fraction, some e =>
    (numberIn? 10 fraction).map fun f =>
      ⟨n * Nat.pow 10 fraction.length + f, e - fraction.length⟩
  | _, _, _ => none

/-- Whether the whole part starts with a zero and has more digits. -/
def isPadded (body : List Char) : Bool :=
  body.head? == some '0' &&
    decide (1 < (body.takeWhile fun c => c.isDigit || c == '_').length)

/-- The run as a float. -/
def float? (run : List Char) : Option FloatLiteral :=
  let (negative, body) := unsigned run
  if body = ['i', 'n', 'f'] then some (.infinite negative)
  else if body = ['n', 'a', 'n'] then some .notANumber
  else if isPadded body then none
  else ((ungroup? Char.isDigit false body).bind decimal?).map (.finite negative)

end InterfaceCheck.Toml
