import InterfaceCheck.Value.Display
/-!
# Message templates

A template is text with placeholders. A placeholder is a percent sign with all the ASCII digits
that follow it, and its number, counted from 1, picks an argument. The text of an argument is
inserted as it is: percent signs in it are no placeholders.

A template is read once from left to right. The number of a placeholder is kept in a 64-bit word
while its digits are read; a number that does not fit is no number, whatever digits follow.
-/

namespace InterfaceCheck.Template

/-! ### Numbers of placeholders -/

/-- The product of two words, if it is a word. -/
def times? (a b : UInt64) : Option UInt64 :=
  if a.toNat * b.toNat < UInt64.size then some (a * b) else none

/-- The sum of two words, if it is a word. -/
def plus? (a b : UInt64) : Option UInt64 :=
  if a.toNat + b.toNat < UInt64.size then some (a + b) else none

/-- What a digit counts. -/
def digitWord (d : Char) : UInt64 := d.val.toUInt64 - '0'.val.toUInt64

/-- The number with one more digit, if it is a word. -/
def extend (number : Option UInt64) (d : Char) : Option UInt64 :=
  (number.bind (times? · 10)).bind (plus? · (digitWord d))

/-- What reading digits gives: the digits, the number that they denote if it is a word, and the
text after them. -/
structure DigitRun where
  digits : List Char
  number : Option UInt64
  rest : List Char

/-- Reads the digits at the front of a text. They go on from the given number. -/
def readDigits (number : Option UInt64) : List Char → DigitRun
  | [] => ⟨[], number, []⟩
  | d :: rest =>
    if d.isDigit then
      let run := readDigits (extend number d) rest
      ⟨d :: run.digits, run.number, run.rest⟩
    else ⟨[], number, d :: rest⟩

theorem length_rest_readDigits (number : Option UInt64) (text : List Char) :
    (readDigits number text).rest.length ≤ text.length := by
  induction text generalizing number with
  | nil => simp [readDigits]
  | cons d rest ih =>
    have := ih (extend number d)
    by_cases hd : d.isDigit
    · simp only [readDigits, hd, if_true, List.length_cons]
      omega
    · simp [readDigits, hd]

/-! ### Filling in -/

/-- The text that a placeholder stands for. Without a number, or with the number 0, it stands for
itself; a number past the arguments is undefined. -/
def DigitRun.text (args : List Value) (run : DigitRun) : List Char :=
  match run.number with
  | none => '%' :: run.digits
  | some number =>
    if run.digits ≠ [] ∧ 0 < number then
      match args[(number - 1).toNat]? with
      | some v => v.display.toList
      | none => "undefined".toList
    else '%' :: run.digits

/-- The template with the placeholders filled in. -/
def fill (args : List Value) : List Char → List Char
  | [] => []
  | c :: rest =>
    if c = '%' then
      let run := readDigits (some 0) rest
      run.text args ++ fill args run.rest
    else c :: fill args rest
termination_by template => template.length
decreasing_by
  · have := length_rest_readDigits (some 0) rest
    simp only [List.length_cons]
    omega
  · simp

end InterfaceCheck.Template

namespace InterfaceCheck

/-- The message that a template makes of its arguments. -/
def formatMessage (template : String) (args : List Value) : String :=
  String.ofList (Template.fill args template.toList)

end InterfaceCheck
