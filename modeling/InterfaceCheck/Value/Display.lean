import InterfaceCheck.Binary64.Integral
import InterfaceCheck.Binary64.Shortest
import InterfaceCheck.Value
/-!
# Display text

The text that stands for a value in messages. An array is written as its items' texts with commas
between them, at any depth, so nesting does not show. Of maps, classes and instances the contents
do not show.
-/

namespace InterfaceCheck

universe u

/-- Numbers display without an exponent and without a fraction that is zero. -/
def numberForm : Binary64.TextForm where
  notANumber := "NaN"
  infinity := "Infinity"
  fraction := false

/-- The text of a number. An integer below the limit is written by way of a 64-bit integer, which
knows no negative zero. -/
def numberText (limit : Nat) (x : Binary64) : String :=
  if x.isIntegral && x.isBelow limit then toString x.toInt64.toInt else x.text numberForm

/-- The limit for integers that display by way of 64-bit integers. -/
def integerLimit : Nat := Nat.pow 10 15

def Descriptor.display {α : Type u} (d : Descriptor α) : String := "[Interface " ++ d.name ++ "]"

def Host.display {α : Type u} : Host α → String
  | .foreign text => text
  | .interface descriptor => descriptor.display

namespace Value

mutual

/-- The display text of a value. -/
def display : Value → String
  | .undefined => "undefined"
  | .null => "null"
  | .bool b => if b then "true" else "false"
  | .number x => numberText integerLimit x
  | .string s => s
  | .function signature => "function/" ++ toString signature.arity
  | .array items => displayItems items
  | .map _ => "[object Object]"
  | .cls c => "[class " ++ c.name ++ "]"
  | .inst i => "[object " ++ i.cls.name ++ "]"
  | .host h => h.display

/-- The display texts of the items with commas between them. -/
def displayItems : List Value → String
  | [] => ""
  | [v] => v.display
  | v :: w :: rest => v.display ++ "," ++ displayItems (w :: rest)

end

end Value

end InterfaceCheck
