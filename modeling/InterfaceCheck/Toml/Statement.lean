import InterfaceCheck.Toml.Literal
/-!
# TOML: statements

A document is a sequence of statements, one a line: headings of tables and assignments, with blank
lines and comments between them. Reading it gives the statements; what table they make is another
question.

The language is that of TOML 1.1: inline tables may go on over lines and end in a comma, a
character may be escaped by two hexadecimal digits, seconds may be left out of times, and a byte
order mark may stand in front of the document. What is read beyond that and where limits are set
follows the library in use, and is said of numbers and of values, where it arises.
-/

namespace InterfaceCheck.Toml

/-- A line of a document that says something. -/
inductive Statement where
  /-- The heading of a table. -/
  | table (path : List String)
  /-- The heading of one more element of an array of tables. -/
  | element (path : List String)
  /-- A value for a key, under the heading above it. -/
  | assign (path : List String) (value : Literal)

/-- A heading: a key path with `closing` after it. -/
def heading? (closing : List Char) : Reader (List String) := fun cs =>
  match keyPath? (skipBlanks cs) with
  | none => none
  | some (path, rest) =>
    if rest.take closing.length = closing then some (path, rest.drop closing.length) else none

/-- One statement. -/
def statement? : Reader Statement
  | '[' :: '[' :: rest => (heading? [']', ']'] rest).map fun (path, rest) => (.element path, rest)
  | '[' :: rest => (heading? [']'] rest).map fun (path, rest) => (.table path, rest)
  | cs =>
    (assignment? (some ∘ skipBlanks) (value? maxDepth) cs).map
      fun ((path, v), rest) => (.assign path v, rest)

/-- The statements of a text. -/
def statements? (cs : List Char) : Option (List Statement) :=
  if skipBlanks cs = [] then some []
  else
    match lineEnd? cs with
    | some rest => if _h : rest.length < cs.length then statements? rest else none
    | none =>
      match statement? (skipBlanks cs) with
      | none => none
      | some (s, rest) =>
        match lineEnd? rest with
        | none => none
        | some rest' =>
          if _h : rest'.length < cs.length then (statements? rest').map (s :: ·) else none
termination_by cs.length

/-- The statements of a document. A byte order mark in front is skipped. -/
def statementsOf? (document : String) : Option (List Statement) :=
  match document.toList with
  | '\uFEFF' :: cs => statements? cs
  | cs => statements? cs

end InterfaceCheck.Toml
