import InterfaceCheck.Proofs.Toml.Completeness
import InterfaceCheck.Proofs.Toml.TopLevel
/-!
# TOML: layouts of flags

A document may set keys to booleans, one a line, and be laid out in many ways: with blank lines and
comments, with spaces and tabs, and with either line end (`Layout`). What is in a comment does not
count, even if it looks like an assignment, a heading or a string, and neither does the rest of the
layout.

The text of a layout is one that the grammar generates, part by part: `Assignment.stated`,
`Line.row`, `Layout.says_flags`. So its table is the list of its flags (`Layout.denotes`).
-/

namespace InterfaceCheck.Toml

/-! ## Layouts -/

/-- Spaces and tabs. -/
structure Gap where
  chars : List Char
  blank : chars.all isBlank = true

/-- A comment, by the characters behind its `#`. -/
structure Comment where
  chars : List Char
  plain : chars.all isPlain = true

/-- A key without quotes is set to a boolean. -/
structure Assignment where
  key : String
  value : Bool
  beforeSign : Gap
  afterSign : Gap
  afterValue : Gap
  nonempty : key.toList ≠ []
  bare : key.toList.all isBareKey = true

/-- A line without its end. It may set a flag, and have a comment. -/
structure Line where
  indent : Gap
  assignment : Option Assignment
  comment : Option Comment

inductive LineEnd where
  | lf
  | crlf

/-- A document that sets flags. The last line has no line end; if it is empty, the document ends in
that of the line before. -/
structure Layout where
  lines : List (Line × LineEnd)
  last : Line

/-- How a boolean is written. -/
def booleanText (b : Bool) : List Char := if b then "true".toList else "false".toList

def Assignment.text (a : Assignment) : List Char :=
  a.key.toList ++ (a.beforeSign.chars ++
    '=' :: (a.afterSign.chars ++ (booleanText a.value ++ a.afterValue.chars)))

def commentText : Option Comment → List Char
  | none => []
  | some c => '#' :: c.chars

def Line.text (l : Line) : List Char :=
  l.indent.chars ++ (l.assignment.elim [] Assignment.text ++ commentText l.comment)

def LineEnd.text : LineEnd → List Char
  | .lf => ['\n']
  | .crlf => ['\r', '\n']

/-- The text of lines, each with its end. -/
def linesText (lines : List (Line × LineEnd)) : List Char :=
  lines.flatMap fun l => l.1.text ++ l.2.text

def Layout.text (l : Layout) : String := .ofList (linesText l.lines ++ l.last.text)

/-- The flag that a line sets, if any. -/
def Line.flags (l : Line) : List (String × Bool) :=
  l.assignment.toList.map fun a => (a.key, a.value)

/-- The flags that a document sets, line by line. -/
def Layout.flags (l : Layout) : List (String × Bool) :=
  l.lines.flatMap (·.1.flags) ++ l.last.flags

/-! ## What a layout says -/

open Grammar

variable {rest : List Char}

theorem Gap.blanks (g : Gap) (rest : List Char) : Blanks (g.chars ++ rest) rest :=
  blanks_of_all (List.all_eq_true.mp g.blank) rest

theorem remark_commentText (comment : Option Comment) (rest : List Char) :
    Remark (commentText comment ++ rest) rest := by
  cases comment with
  | none => exact .none rest
  | some c => exact .comment c.plain

theorem isWord_booleanText (b : Bool) : IsWord (booleanText b) := by
  have hplain : (booleanText b).all
      (fun c => isScalarChar c && !isBlank c && !isQuote c) = true := by
    cases b <;> decide
  have hchar : ∀ c ∈ booleanText b,
      isScalarChar c = true ∧ isBlank c = false ∧ isQuote c = false := by
    intro c hc
    simpa [and_assoc] using List.all_eq_true.mp hplain c hc
  exact
    { scalar := List.all_eq_true.mpr fun c hc => (hchar c hc).1
      starts := fun c hc => (hchar c (List.mem_of_mem_head? hc)).2
      ends := fun c hc => (hchar c (List.mem_of_getLast? hc)).2.1
      quotes := isChain_of_no_quote fun c hc => (hchar c hc).2.2 }

theorem value_booleanText (b : Bool) (rest : List Char) :
    Value maxDepth (booleanText b ++ rest) (.boolean b) rest := by
  have hvalue : scalarOf? (booleanText b) = some (.boolean b) := by
    cases b <;> rfl
  exact Nested.simple (.word (isWord_booleanText b) hvalue)

/-- An assignment says that its flag is set. -/
theorem Assignment.stated (a : Assignment) (rest : List Char) :
    Stated (a.text ++ rest) (.flag (a.key, a.value)) (a.afterValue.chars ++ rest) := by
  have hkey : ∀ rest, Path (a.key.toList ++ rest) [a.key] rest := by
    intro rest
    have hbare : Key (a.key.toList ++ rest) (.ofList a.key.toList) rest := .bare a.nonempty a.bare
    rw [String.ofList_toList] at hbare
    exact ⟨.last hbare, (by decide : 1 ≤ maxKeys)⟩
  unfold Assignment.text
  simp only [List.append_assoc, List.cons_append]
  exact .assign (.mk (hkey _) (a.beforeSign.blanks _) (a.afterSign.blanks _)
    (value_booleanText a.value _))

theorem Line.row (l : Line) (rest : List Char) :
    Row (l.text ++ rest) (l.flags.map .flag) rest := by
  have hremark := remark_commentText l.comment rest
  unfold Line.text Line.flags
  rw [List.append_assoc, List.append_assoc]
  cases l.assignment with
  | none => exact .blank (l.indent.blanks _) hremark
  | some a => exact .stated (l.indent.blanks _) (a.stated _) (a.afterValue.blanks _) hremark

theorem LineEnd.lineBreak (e : LineEnd) (rest : List Char) : LineBreak (e.text ++ rest) rest := by
  cases e with
  | lf => exact .feed rest
  | crlf => exact .returnFeed rest

theorem rows_linesText {last : List Statement} (lines : List (Line × LineEnd))
    (h : Rows rest last) :
    Rows (linesText lines ++ rest) ((lines.flatMap (·.1.flags)).map .flag ++ last) := by
  induction lines with
  | nil => exact h
  | cons l lines ih =>
    rw [linesText, List.flatMap_cons, List.flatMap_cons, List.map_append, List.append_assoc,
      List.append_assoc, List.append_assoc]
    exact .more (l.1.row _) (l.2.lineBreak _) ih

/-- A layout sets its flags, and says nothing else. -/
theorem Layout.says_flags (l : Layout) : Says l.text (l.flags.map .flag) := by
  have hlast : Rows l.last.text (l.last.flags.map .flag) := by
    have hrow := l.last.row []
    rw [List.append_nil] at hrow
    exact .last hrow
  refine ⟨_, .inl String.toList_ofList, ?_⟩
  rw [Layout.flags, List.map_append]
  exact rows_linesText l.lines hlast

/-- **The table of a layout is the list of its flags**, if none is set twice. -/
theorem Layout.denotes (l : Layout) (h : (l.flags.map (·.1)).Nodup) :
    Denotes l.text ⟨l.flags.map flagEntry⟩ :=
  ⟨_, l.says_flags, ofStatements?_flags h⟩

end InterfaceCheck.Toml
