import InterfaceCheck.Toml.Lexical
/-!
# TOML: dates and times

A date, a time, or both with `T` or a space between them and perhaps an offset from universal
time. Seconds may be left out. Days must exist in the calendar; a minute may have a leap second.
-/

namespace InterfaceCheck.Toml

/-- A number of exactly `count` decimal digits. -/
def fixedDigits? (count : Nat) : Reader Nat := fun cs =>
  let digits := cs.take count
  if digits.length = count ∧ digits.all Char.isDigit then
    some (digits.foldl (fun n c => 10 * n + (c.toNat - '0'.toNat)) 0, cs.drop count)
  else none

/-- A given character. -/
def mark? (c : Char) : List Char → Option (List Char)
  | d :: rest => if d = c then some rest else none
  | [] => none

def isLeapYear (year : Nat) : Bool := year % 4 == 0 && (year % 100 != 0 || year % 400 == 0)

/-- The number of days in a month; none for a number that is no month. -/
def daysInMonth (year month : Nat) : Nat :=
  if month ∈ [1, 3, 5, 7, 8, 10, 12] then 31
  else if month ∈ [4, 6, 9, 11] then 30
  else if month = 2 then (if isLeapYear year then 29 else 28)
  else 0

/-- The text after a date. -/
def date? (cs : List Char) : Option (List Char) := do
  let (year, cs) ← fixedDigits? 4 cs
  let cs ← mark? '-' cs
  let (month, cs) ← fixedDigits? 2 cs
  let cs ← mark? '-' cs
  let (day, cs) ← fixedDigits? 2 cs
  if 1 ≤ day ∧ day ≤ daysInMonth year month then some cs else none

/-- The text after hours and minutes. -/
def hourMinute? (cs : List Char) : Option (List Char) := do
  let (hour, cs) ← fixedDigits? 2 cs
  let cs ← mark? ':' cs
  let (minute, cs) ← fixedDigits? 2 cs
  if hour ≤ 23 ∧ minute ≤ 59 then some cs else none

/-- The text after a fraction of a second. -/
def fraction? : List Char → Option (List Char)
  | '.' :: c :: rest => if c.isDigit then some (rest.dropWhile Char.isDigit) else none
  | '.' :: [] => none
  | cs => some cs

/-- The text after a time of day. -/
def time? (cs : List Char) : Option (List Char) := do
  let cs ← hourMinute? cs
  match cs with
  | ':' :: cs =>
    let (second, cs) ← fixedDigits? 2 cs
    if second ≤ 60 then fraction? cs else none
  | cs => some cs

/-- Whether the text is an offset from universal time, or nothing. -/
def isOffset : List Char → Bool
  | [] | ['Z'] | ['z'] => true
  | c :: rest => (c == '+' || c == '-') && hourMinute? rest == some []

/-- Whether the text is a date, a time, or both. -/
def isMoment (cs : List Char) : Bool :=
  match date? cs with
  | none => time? cs == some []
  | some [] => true
  | some (c :: rest) =>
    (c == 'T' || c == 't' || c == ' ') && (time? rest).any isOffset

end InterfaceCheck.Toml
