import InterfaceCheck.Toml.Lexical
/-!
# TOML: strings

Strings stand in double quotes, where a backslash escapes, or in apostrophes, where it does not.
With one quote on either side they stay in one line. With three they may go on over lines; a line
end right after the opening is dropped, and one or two more quotes may stand before the closing.
-/

namespace InterfaceCheck.Toml

/-- The value of a hexadecimal digit. -/
def hexDigit? (c : Char) : Option Nat :=
  if c.isDigit then some (c.toNat - '0'.toNat)
  else if 'a' ≤ c ∧ c ≤ 'f' then some (c.toNat - 'a'.toNat + 10)
  else if 'A' ≤ c ∧ c ≤ 'F' then some (c.toNat - 'A'.toNat + 10)
  else none

/-- The character with the code point that the next `count` hexadecimal digits denote. Surrogates
and numbers past the last code point are no characters. -/
def coded? (count : Nat) : Reader Char := fun cs =>
  let digits := cs.take count
  if digits.length = count then
    match digits.mapM hexDigit? with
    | none => none
    | some ds =>
      let code := ds.foldl (fun n d => 16 * n + d) 0
      if code.isValidChar then some (Char.ofNat code, cs.drop count) else none
  else none

/-- The character that the text after a backslash stands for. -/
def escape? : Reader Char
  | 'b' :: rest => some ('\x08', rest)
  | 't' :: rest => some ('\t', rest)
  | 'n' :: rest => some ('\n', rest)
  | 'f' :: rest => some ('\x0c', rest)
  | 'r' :: rest => some ('\r', rest)
  | 'e' :: rest => some ('\x1b', rest)
  | '"' :: rest => some ('"', rest)
  | '\\' :: rest => some ('\\', rest)
  | 'x' :: rest => coded? 2 rest
  | 'u' :: rest => coded? 4 rest
  | 'U' :: rest => coded? 8 rest
  | _ => none

/-- The text after all blanks and line ends. -/
def skipLines : List Char → List Char
  | '\n' :: rest => skipLines rest
  | '\r' :: '\n' :: rest => skipLines rest
  | c :: rest => if isBlank c then skipLines rest else c :: rest
  | [] => []

/-- After a backslash at the end of a line: the text after the blanks and line ends that the
backslash hides. -/
def lineContinuation? (cs : List Char) : Option (List Char) :=
  (newline? (skipBlanks cs)).map skipLines

/-- The text without a line end in front. -/
def dropNewline (cs : List Char) : List Char := (newline? cs).getD cs

/-- One or two quotes that stand before the closing ones, which have been read already. -/
def extraQuotes (quote : Char) : List Char → List Char × List Char
  | c :: d :: rest =>
    if c = quote then
      if d = quote then ([c, d], rest) else ([c], d :: rest)
    else ([], c :: d :: rest)
  | [c] => if c = quote then ([c], []) else ([], [c])
  | [] => ([], [])

/-- The rest of a string in double quotes. -/
def basicRest? : Reader (List Char)
  | [] => none
  | '"' :: rest => some ([], rest)
  | '\\' :: rest =>
    match escape? rest with
    | none => none
    | some (c, rest') =>
      if _h : rest'.length < rest.length + 1 then
        (basicRest? rest').map fun (text, rest) => (c :: text, rest)
      else none
  | c :: rest =>
    if isPlain c then (basicRest? rest).map fun (text, rest) => (c :: text, rest) else none
termination_by cs => cs.length

/-- The rest of a string in apostrophes. -/
def literalRest? : Reader (List Char)
  | [] => none
  | '\'' :: rest => some ([], rest)
  | c :: rest =>
    if isPlain c then (literalRest? rest).map fun (text, rest) => (c :: text, rest) else none

/-- The rest of a string in three double quotes. -/
def longBasicRest? : Reader (List Char)
  | [] => none
  | '"' :: '"' :: '"' :: rest => some (extraQuotes '"' rest)
  | '\\' :: rest =>
    match lineContinuation? rest with
    | some rest' =>
      if _h : rest'.length < rest.length + 1 then longBasicRest? rest' else none
    | none =>
      match escape? rest with
      | none => none
      | some (c, rest') =>
        if _h : rest'.length < rest.length + 1 then
          (longBasicRest? rest').map fun (text, rest) => (c :: text, rest)
        else none
  | '\n' :: rest => (longBasicRest? rest).map fun (text, rest) => ('\n' :: text, rest)
  | '\r' :: '\n' :: rest =>
    (longBasicRest? rest).map fun (text, rest) => ('\r' :: '\n' :: text, rest)
  | c :: rest =>
    if isPlain c then (longBasicRest? rest).map fun (text, rest) => (c :: text, rest) else none
termination_by cs => cs.length

/-- The rest of a string in three apostrophes. -/
def longLiteralRest? : Reader (List Char)
  | [] => none
  | '\'' :: '\'' :: '\'' :: rest => some (extraQuotes '\'' rest)
  | '\n' :: rest => (longLiteralRest? rest).map fun (text, rest) => ('\n' :: text, rest)
  | '\r' :: '\n' :: rest =>
    (longLiteralRest? rest).map fun (text, rest) => ('\r' :: '\n' :: text, rest)
  | c :: rest =>
    if isPlain c then (longLiteralRest? rest).map fun (text, rest) => (c :: text, rest) else none

/-- A string within its line. -/
def lineString? : Reader (List Char)
  | '"' :: rest => basicRest? rest
  | '\'' :: rest => literalRest? rest
  | _ => none

/-- A string in any of the four forms. -/
def string? : Reader (List Char)
  | '"' :: '"' :: '"' :: rest => longBasicRest? (dropNewline rest)
  | '\'' :: '\'' :: '\'' :: rest => longLiteralRest? (dropNewline rest)
  | cs => lineString? cs

end InterfaceCheck.Toml
