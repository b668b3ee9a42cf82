/-!
# Module names

A module name is one or more identifiers with dots between them, such as `geo.shapes.Polygon`. An
identifier starts with an ASCII letter, `_` or `$` and goes on with those and ASCII digits; no
other character may occur, a line end included.
-/

namespace InterfaceCheck.ModuleName

/-- The characters that an identifier may start with. -/
def isStart (c : Char) : Bool := c.isAlpha || c == '_' || c == '$'

/-- The characters that an identifier may go on with. -/
def isContinuation (c : Char) : Bool := isStart c || c.isDigit

/-- Reads the rest of a name after the first character of an identifier. -/
def isRest : List Char → Bool
  | [] => true
  | '.' :: c :: rest => isStart c && isRest rest
  | c :: rest => isContinuation c && isRest rest

/-- Reads a name from its first character. -/
def isName : List Char → Bool
  | [] => false
  | c :: rest => isStart c && isRest rest

end InterfaceCheck.ModuleName

namespace InterfaceCheck

/-- Whether the whole string is a module name. -/
def isModuleName (s : String) : Bool := ModuleName.isName s.toList

end InterfaceCheck
