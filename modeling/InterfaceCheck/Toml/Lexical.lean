/-!
# TOML: characters and line structure

Blanks, line ends and comments of a TOML document. A line ends in a line feed, perhaps after a
carriage return; a carriage return alone is nowhere allowed, nor is any other control character
but the tab.

A `Reader` takes something off the front of a text and gives the rest, or fails.
-/

namespace InterfaceCheck.Toml

universe u

/-- Reads from the front of a text. -/
abbrev Reader (α : Type u) := List Char → Option (α × List Char)

/-- Spaces and tabs. -/
def isBlank (c : Char) : Bool := c == ' ' || c == '\t'

/-- Characters that stand for themselves in comments and strings: all but the controls, and the
tab. -/
def isPlain (c : Char) : Bool := c == '\t' || (decide (32 ≤ c.toNat) && c.toNat != 127)

/-- The text after leading blanks. -/
def skipBlanks (cs : List Char) : List Char := cs.dropWhile isBlank

/-- The text after a line end. -/
def newline? : List Char → Option (List Char)
  | '\n' :: rest => some rest
  | '\r' :: '\n' :: rest => some rest
  | _ => none

/-- The text after a comment, if one starts here: the end of its line. -/
def skipComment : List Char → List Char
  | '#' :: rest => rest.dropWhile isPlain
  | cs => cs

/-- The text after the line, if only blanks and a comment are left of it. -/
def lineEnd? (cs : List Char) : Option (List Char) :=
  match skipComment (skipBlanks cs) with
  | [] => some []
  | rest => newline? rest

/-- The text after blanks, line ends and comments. `inComment` tells whether a comment is being
skipped. -/
def skipSpace? (inComment : Bool) : List Char → Option (List Char)
  | [] => some []
  | '\n' :: rest => skipSpace? false rest
  | '\r' :: '\n' :: rest => skipSpace? false rest
  | c :: rest =>
    if inComment then (if isPlain c then skipSpace? true rest else none)
    else if c = '#' then skipSpace? true rest
    else if isBlank c then skipSpace? false rest
    else some (c :: rest)

/-- Items with commas between them, up to `close`; a comma may stand after the last. Blanks, line
ends and comments may stand around items. -/
def separated? {α : Type u} (item : Reader α) (close : Char) (cs : List Char) :
    Option (List α × List Char) :=
  match skipSpace? false cs with
  | none | some [] => none
  | some (c :: cs') =>
    if c = close then some ([], cs')
    else
      match item (c :: cs') with
      | none => none
      | some (a, rest) =>
        match skipSpace? false rest with
        | none | some [] => none
        | some (d :: rest') =>
          if d = ',' then
            if _h : rest'.length < cs.length then
              (separated? item close rest').map fun (items, rest) => (a :: items, rest)
            else none
          else if d = close then some ([a], rest')
          else none
termination_by cs.length

end InterfaceCheck.Toml
