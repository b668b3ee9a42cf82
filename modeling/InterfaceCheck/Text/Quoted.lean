import InterfaceCheck.Text.Combining
import InterfaceCheck.Text.Unprintable
/-!
# Quoted text

What developers are shown of strings and of the state of objects.

A string stands in double quotes, such that every character of it can be seen and told apart. Quotes
and backslashes are escaped by a backslash; line feed, carriage return, tab and NUL have letters of
their own; a character that is unprintable or that would join the quote is written by its code
point, as `\u{3a9}` is. All others stand for themselves, the apostrophe among them.

Of an object the name is shown, and in braces its fields with their values.
-/

namespace InterfaceCheck.Text

/-- The escape by code point: lower-case hexadecimal digits between braces. -/
def codeEscape (c : Char) : List Char :=
  ['\\', 'u', '{'] ++ Nat.toDigits 16 c.toNat ++ ['}']

/-- The quoted form of one character. -/
def escape (c : Char) : List Char :=
  if c = '"' then ['\\', '"']
  else if c = '\\' then ['\\', '\\']
  else if c = '\n' then ['\\', 'n']
  else if c = '\r' then ['\\', 'r']
  else if c = '\t' then ['\\', 't']
  else if c = '\x00' then ['\\', '0']
  else if isCombining c || isUnprintable c then codeEscape c
  else [c]

/-- The string in quotes. -/
def quote (s : String) : String :=
  String.ofList ('"' :: s.toList.flatMap escape ++ ['"'])

/-- The quoted strings in brackets, with commas between them. -/
def quoteList (names : List String) : String := "[" ++ ", ".intercalate (names.map quote) ++ "]"

/-- A name, and fields with their values in braces. -/
def record (name : String) (fields : List (String × String)) : String :=
  let shown := fields.map fun f => f.1 ++ ": " ++ f.2
  name ++ " ".push '{' ++ " " ++ ", ".intercalate shown ++ " ".push '}'

/-- The value of a single field stands between texts that do not depend on it. -/
theorem record_field (name key value : String) :
    record name [(key, value)] =
      name ++ " ".push '{' ++ " " ++ (key ++ ": ") ++ value ++ " ".push '}' :=
  congrArg (· ++ " ".push '}') (String.append_assoc ..).symm

end InterfaceCheck.Text
