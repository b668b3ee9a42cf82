import InterfaceCheck.Toml.Moment
import InterfaceCheck.Toml.Number
/-!
# TOML: values

The values of a document as they are written. Arrays and inline tables nest, to a limited depth.

TOML sets no limits to depths and to the lengths of paths. The two that stand here are those of the
library that documents of this kind are in use with, as seen from its answers to documents on either
side of them.
-/

namespace InterfaceCheck.Toml

/-- A value as it is written. -/
inductive Literal where
  | boolean (b : Bool)
  | integer (i : IntegerLiteral)
  | float (f : FloatLiteral)
  | string (s : String)
  /-- A date, a time, or both. -/
  | moment
  | array (items : List Literal)
  /-- The assignments of an inline table: the keys on the path, and the value. -/
  | inlineTable (fields : List (List String × Literal))

/-! ### Keys -/

/-- The characters of a key without quotes. -/
def isBareKey (c : Char) : Bool := c.isAlphanum || c == '_' || c == '-'

/-- A key: bare, or a string within its line. -/
def key? : Reader String := fun cs =>
  match cs.takeWhile isBareKey with
  | [] => (lineString? cs).map fun (text, rest) => (String.ofList text, rest)
  | bare => some (String.ofList bare, cs.dropWhile isBareKey)

/-- Keys with dots between them, of any number; blanks may stand around the dots. -/
def keys? (cs : List Char) : Option (List String × List Char) :=
  match key? cs with
  | none => none
  | some (key, rest) =>
    match skipBlanks rest with
    | '.' :: rest' =>
      if _h : (skipBlanks rest').length < cs.length then
        (keys? (skipBlanks rest')).map fun (keys, rest) => (key :: keys, rest)
      else none
    | rest' => some ([key], rest')
termination_by cs.length

/-- The greatest number of keys on a path. -/
def maxKeys : Nat := 80

/-- A key path: at least one key and at most `maxKeys`. -/
def keyPath? : Reader (List String) := fun cs =>
  (keys? cs).filter fun (path, _) => decide (path.length ≤ maxKeys)

/-- A key path, an equals sign and a value, with what `skip?` skips around the sign. -/
def assignment? (skip? : List Char → Option (List Char)) (value : Reader Literal) :
    Reader (List String × Literal) := fun cs => do
  let (path, cs) ← keyPath? cs
  let cs ← mark? '=' (← skip? cs)
  let cs ← skip? cs
  let (v, cs) ← value cs
  return ((path, v), cs)

/-! ### Values -/

/-- The characters of numbers, dates, times and words, and of the blanks between them: all but
those that mean something between values. -/
def isScalarChar (c : Char) : Bool :=
  ! ['=', ',', '[', ']', '{', '}', '#', '\r', '\n'].contains c

/-- The two quotation marks. -/
def isQuote (c : Char) : Bool := c == '"' || c == '\''

/-- The run of such characters in front, and the text after it. A quotation mark after a blank
starts a string, so the run ends there; inside a word it is a character like any other. -/
def scalarRun (afterBlank : Bool) : List Char → List Char × List Char
  | [] => ([], [])
  | c :: cs =>
    if isScalarChar c && !(afterBlank && isQuote c) then
      let (run, rest) := scalarRun (isBlank c) cs
      (c :: run, rest)
    else ([], c :: cs)

/-- The run without the blanks at its end. -/
def trimEnd (run : List Char) : List Char := (run.reverse.dropWhile isBlank).reverse

/-- The value that a whole run of such characters is. -/
def scalarOf? (run : List Char) : Option Literal :=
  if run = "true".toList then some (.boolean true)
  else if run = "false".toList then some (.boolean false)
  else
    match integer? run, float? run with
    | some i, _ => some (.integer i)
    | none, some f => some (.float f)
    | none, none => if isMoment run then some .moment else none

/-- A boolean, a number, a date or a time: the whole run in front. -/
def scalar? : Reader Literal := fun cs =>
  let (run, rest) := scalarRun false cs
  (scalarOf? (trimEnd run)).map (·, rest)

/-- A value with at most `depth` arrays and inline tables around its innermost part. -/
def value? : Nat → Reader Literal
  | 0, cs =>
    match cs with
    | '"' :: _ | '\'' :: _ => (string? cs).map fun (text, rest) => (.string (.ofList text), rest)
    | _ => scalar? cs
  | depth + 1, cs =>
    match cs with
    | '[' :: rest =>
      (separated? (value? depth) ']' rest).map fun (items, rest) => (.array items, rest)
    | '{' :: rest =>
      (separated? (assignment? (skipSpace? false) (value? depth)) '}' rest).map
        fun (fields, rest) => (.inlineTable fields, rest)
    | '"' :: _ | '\'' :: _ => (string? cs).map fun (text, rest) => (.string (.ofList text), rest)
    | _ => scalar? cs

/-- The greatest number of arrays and inline tables inside each other. -/
def maxDepth : Nat := 80

end InterfaceCheck.Toml
