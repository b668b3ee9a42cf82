import InterfaceCheck.Binary64.Shortest
import InterfaceCheck.Text.Quoted
import InterfaceCheck.Toml.Document
/-!
# TOML: libraries

Who wants records from TOML documents leaves the reading to a library. A `Library` reads a document
as a whole, hands over the entries of its table one after the other, gives the boolean of an entry
that is asked for one, and has the errors to report when something is wrong. An error is described
in words, and it is displayed with the place in the document where it arose.

`Library.plain` is the reader of this development as a library. It hands the entries over in
ascending order of their keys, and it does not keep places: it displays no more than the
description.
-/

namespace InterfaceCheck.Toml

/-- What reads TOML documents. -/
structure Library where
  /-- A key of the table with its value. -/
  Entry : Type
  Error : Type
  /-- The entries of the table of a document, in the order in which they are handed over. -/
  entries : String → Except Error (List Entry)
  key : Entry → String
  value : Entry → Node
  /-- The boolean that the value is. -/
  boolean : Entry → Except Error Bool
  /-- The key of the entry is none of those that are expected. -/
  unknownField : Entry → List String → Error
  /-- The key of the entry has come before. -/
  duplicateField : Entry → Error
  /-- What is wrong, in words. -/
  description : Error → String
  /-- What is wrong and where in the document. -/
  display : Error → String

/-! ### Words -/

/-- Numbers of a document show that they are floating point numbers. -/
def floatForm : Binary64.TextForm where
  notANumber := "NaN"
  infinity := "inf"
  fraction := true

/-- What an integer is called: past 64 bits its width is named, past 128 bits it has no name. -/
def integerName? (n : Int) : Option String :=
  let name := "integer `" ++ toString n ++ "`"
  if -Int.pow 2 63 ≤ n ∧ n < Int.pow 2 64 then some name
  else if -Int.pow 2 127 ≤ n ∧ n < Int.pow 2 127 then some (name ++ " as i128")
  else if 0 ≤ n ∧ n < Int.pow 2 128 then some (name ++ " as u128")
  else none

/-- What a value is called where another type is expected. Dates and times are maps of their
parts. -/
def Node.name? : Node → Option String
  | .boolean b => some ("boolean `" ++ (if b then "true" else "false") ++ "`")
  | .integer i => i.value?.bind integerName?
  | .float f => f.binary64?.map fun x => "floating point `" ++ x.text floatForm ++ "`"
  | .string s => some ("string " ++ Text.quote s)
  | .array _ | .tables _ _ => some "sequence"
  | .moment | .table _ _ => some "map"

/-- What can be wrong with a document. -/
inductive Problem where
  /-- The document is not well-formed. -/
  | malformed
  /-- A key that is none of those that are expected. -/
  | unknownField (key : String) (expected : List String)
  /-- A key for the second time. -/
  | duplicateField (key : String)
  /-- A value of another type than the expected one; `found` says what it is. -/
  | wrongType (found expected : String)
  /-- A number that no number type can hold, or that denotes none. -/
  | noNumber
deriving DecidableEq, Repr

/-- The problem in words. Libraries differ in how they put it that a document is malformed or that
a number is none, so there are no words for these two. -/
def Problem.words? : Problem → Option String
  | .malformed | .noNumber => none
  | .unknownField key expected =>
    let names := expected.map fun name => "`" ++ name ++ "`"
    some ("unknown field `" ++ key ++ "`, expected " ++ " or ".intercalate names)
  | .duplicateField key => some ("duplicate field `" ++ key ++ "`")
  | .wrongType found expected => some ("invalid type: " ++ found ++ ", expected " ++ expected)

/-! ### The plain library -/

/-- The bindings in ascending order of their keys. -/
def sortedEntries (t : Table Node) : List (String × Node) :=
  t.sortedKeys.filterMap fun key => (t.get? key).map (key, ·)

/-- The boolean that a node is. -/
def Node.boolean? : Node → Except Problem Bool
  | .boolean b => .ok b
  | node => .error (node.name?.elim .noNumber (.wrongType · "a boolean"))

/-- The reader of documents as a library. -/
def Library.plain : Library where
  Entry := String × Node
  Error := Problem
  entries document := (parse? document).elim (.error .malformed) (.ok ∘ sortedEntries)
  key := (·.1)
  value := (·.2)
  boolean entry := entry.2.boolean?
  unknownField entry expected := .unknownField entry.1 expected
  duplicateField entry := .duplicateField entry.1
  description problem := problem.words?.getD ""
  display problem := problem.words?.getD ""

end InterfaceCheck.Toml
