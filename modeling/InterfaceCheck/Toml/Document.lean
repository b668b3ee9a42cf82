import InterfaceCheck.Table
import InterfaceCheck.Toml.Statement
/-!
# TOML: documents

The table that the statements of a document make. No key is bound twice and no table is opened
twice: a heading may only open a table that is new or was merely passed through by other headings,
and a dotted key may only enter tables that dotted keys or passing headings have made. What a
dotted key has passed through belongs to dotted keys from then on.
-/

namespace InterfaceCheck.Toml

/-- How a table came about. -/
inductive Origin where
  /-- By a heading of its own. -/
  | heading
  /-- By a longer heading that passes through it, and no dotted key has done so since. -/
  | passed
  /-- By a dotted key that passes through it, or has done so since. -/
  | dotted
  /-- By a value in braces. -/
  | inline
deriving DecidableEq, Repr

/-- A value of a document. -/
inductive Node where
  | boolean (b : Bool)
  | integer (i : IntegerLiteral)
  | float (f : FloatLiteral)
  | string (s : String)
  | moment
  | array (items : List Node)
  | table (origin : Origin) (entries : Table Node)
  /-- An array of tables: the elements before the last, and the last. -/
  | tables (earlier : List (Table Node)) (last : Table Node)

/-- Whether a dotted key may enter a table of this origin. -/
def Origin.isImplicit : Origin → Bool
  | .passed | .dotted => true
  | .heading | .inline => false

/-- Changes the table at the end of a path with `change`, which is told the table's origin.
Missing tables on the way are made; an array of tables is entered at its last element. -/
def update? (byDottedKey : Bool) (change : Origin → Table Node → Option (Table Node)) :
    List String → Origin → Table Node → Option (Table Node)
  | [], origin, entries => change origin entries
  | key :: path, _, entries =>
    match entries.get? key with
    | none =>
      let origin := if byDottedKey then Origin.dotted else Origin.passed
      (update? byDottedKey change path origin .empty).map (entries.insert key <| .table origin ·)
    | some (.table origin child) =>
      if origin = .inline ∨ (byDottedKey ∧ !origin.isImplicit) then none
      else
        let origin := if byDottedKey then Origin.dotted else origin
        (update? byDottedKey change path origin child).map (entries.insert key <| .table origin ·)
    | some (.tables earlier last) =>
      (update? byDottedKey change path .heading last).map (entries.insert key <| .tables earlier ·)
    | some _ => none

/-- Binds a key that a path leads to. A key under a dotted path must come into a table that dotted
keys have made. -/
def assign? (path : List String) (node : Node) (entries : Table Node) : Option (Table Node) :=
  match path.getLast? with
  | none => none
  | some key =>
    let above := path.dropLast
    update? true
      (fun origin entries =>
        if (above ≠ [] ∧ origin ≠ .dotted) ∨ entries.contains key then none
        else some (entries.insert key node))
      above .heading entries

/-- The table that assignments make. -/
def ofAssignments? (assignments : List (List String × Node)) : Option (Table Node) :=
  assignments.foldlM (fun entries a => assign? a.1 a.2 entries) .empty

mutual

/-- The value that a literal denotes, unless an inline table in it binds a key twice. -/
def Literal.node? : Literal → Option Node
  | .boolean b => some (.boolean b)
  | .integer i => some (.integer i)
  | .float f => some (.float f)
  | .string s => some (.string s)
  | .moment => some .moment
  | .array items => (nodes? items).map .array
  | .inlineTable fields => ((assignments? fields).bind ofAssignments?).map (.table .inline)

def nodes? : List Literal → Option (List Node)
  | [] => some []
  | l :: rest => l.node?.bind fun node => (nodes? rest).map (node :: ·)

def assignments? : List (List String × Literal) → Option (List (List String × Node))
  | [] => some []
  | (path, l) :: rest =>
    l.node?.bind fun node => (assignments? rest).map ((path, node) :: ·)

end

/-- Opens the table under `key` for a heading. -/
def openTable? (key : String) (entries : Table Node) : Option (Table Node) :=
  match entries.get? key with
  | none => some (entries.insert key (.table .heading .empty))
  | some (.table .passed child) => some (entries.insert key (.table .heading child))
  | some _ => none

/-- Adds an element to the array of tables under `key` for a heading. -/
def addElement? (key : String) (entries : Table Node) : Option (Table Node) :=
  match entries.get? key with
  | none => some (entries.insert key (.tables [] .empty))
  | some (.tables earlier last) =>
    some (entries.insert key (.tables (earlier ++ [last]) .empty))
  | some _ => none

/-- A document half read: its table, and the path of the heading that was read last. -/
structure Draft where
  root : Table Node
  place : List String

/-- The draft with a heading, which `start?` gives a table. -/
def Draft.head? (d : Draft) (path : List String)
    (start? : String → Table Node → Option (Table Node)) : Option Draft :=
  match path.getLast? with
  | none => none
  | some key =>
    (update? false (fun _ entries => start? key entries) path.dropLast .heading d.root).map
      (⟨·, path⟩)

/-- The draft with one more statement. -/
def Draft.add? (d : Draft) : Statement → Option Draft
  | .table path => d.head? path openTable?
  | .element path => d.head? path addElement?
  | .assign path literal =>
    literal.node?.bind fun node =>
      (update? false (fun _ entries => assign? path node entries) d.place .heading d.root).map
        (⟨·, d.place⟩)

/-- The table that the statements of a document make. -/
def ofStatements? (statements : List Statement) : Option (Table Node) :=
  (statements.foldlM Draft.add? ⟨.empty, []⟩).map (·.root)

/-- The table of a document, if it is well-formed. -/
def parse? (document : String) : Option (Table Node) :=
  (statementsOf? document).bind ofStatements?

end InterfaceCheck.Toml
