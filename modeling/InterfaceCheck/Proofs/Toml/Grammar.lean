import InterfaceCheck.Toml.Document
import Mathlib.Data.List.Chain
/-!
# TOML: what is well-formed

The grammar of documents, said without regard to how they are read. It consists of relations between
a text, what the text begins with, and the text behind that: `G cs a rest` says that `cs` begins
with something that `G` generates and that stands for `a`, and that `rest` follows it
(`Toml.Grammar`). Blanks, line ends and comments stand for nothing (`Toml.Filler`).

A text may begin in several ways with what a grammar generates: a key with its first letters, say.
Of a whole document one reading at most goes through to the end; that this is so, and that the
reader finds it, is proved where the reader is looked at.

Two things are left to functions, of a whole word and of a whole list of statements: which value a
word stands for (`scalarOf?`), and which table the statements make (`ofStatements?`). With these
`Denotes` says which documents are well-formed, and what their tables are.
-/

namespace InterfaceCheck.Toml

/-- `G cs a rest`: at the front of `cs` stands a text for `a`, and `rest` follows. -/
abbrev Grammar (α : Type) := List Char → α → List Char → Prop

/-- `F cs rest`: at the front of `cs` stands a text that counts for nothing, and `rest` follows. -/
abbrev Filler := List Char → List Char → Prop

/-- A run of characters with the property `p` is over where `rest` starts. -/
def Stops (p : Char → Bool) (rest : List Char) : Prop := ∀ c ∈ rest.head?, p c = false

namespace Grammar

/-! ## Between words -/

/-- Blanks of any number. -/
inductive Blanks : Filler where
  | none (rest : List Char) : Blanks rest rest
  | blank {c : Char} {cs rest : List Char} :
      isBlank c = true → Blanks cs rest → Blanks (c :: cs) rest

/-- A line feed, perhaps behind a carriage return. -/
inductive LineBreak : Filler where
  | feed (rest : List Char) : LineBreak ('\n' :: rest) rest
  | returnFeed (rest : List Char) : LineBreak ('\r' :: '\n' :: rest) rest

/-- A comment, or none. -/
inductive Remark : Filler where
  | none (rest : List Char) : Remark rest rest
  | comment {text rest : List Char} :
      text.all isPlain = true → Remark ('#' :: (text ++ rest)) rest

/-- Blanks, line ends and comments, each comment up to the end of its line. -/
inductive Space : Filler where
  | none (rest : List Char) : Space rest rest
  | blank {c : Char} {cs rest : List Char} :
      isBlank c = true → Space cs rest → Space (c :: cs) rest
  | line {cs cs' rest : List Char} : LineBreak cs cs' → Space cs' rest → Space cs rest
  | comment {text cs cs' rest : List Char} :
      text.all isPlain = true → LineBreak cs cs' → Space cs' rest →
      Space ('#' :: (text ++ cs)) rest

/-! ## Strings -/

/-- The letters that stand behind a backslash for another character, and those that stand for
themselves. -/
def escapes : List (Char × Char) :=
  [('b', '\x08'), ('t', '\t'), ('n', '\n'), ('f', '\x0c'), ('r', '\r'), ('e', '\x1b'),
    ('"', '"'), ('\\', '\\')]

/-- The letters behind a backslash that announce a code point, and the number of its digits. -/
def codeMarks : List (Char × Nat) := [('x', 2), ('u', 4), ('U', 8)]

/-- What stands behind a backslash for one character. -/
inductive Escape : Grammar Char where
  | letter {c d : Char} {rest : List Char} : (c, d) ∈ escapes → Escape (c :: rest) d rest
  | code {mark : Char} {count : Nat} {digits rest : List Char} {values : List Nat} :
      (mark, count) ∈ codeMarks → digits.length = count →
      digits.mapM hexDigit? = some values →
      (values.foldl (fun n d => 16 * n + d) 0).isValidChar →
      Escape (mark :: (digits ++ rest)) (.ofNat (values.foldl (fun n d => 16 * n + d) 0)) rest

/-- A string in double quotes, from behind the first of them. -/
inductive Basic : Grammar (List Char) where
  | close (rest : List Char) : Basic ('"' :: rest) [] rest
  | plain {c : Char} {cs text rest : List Char} :
      isPlain c = true → c ≠ '"' → c ≠ '\\' → Basic cs text rest → Basic (c :: cs) (c :: text) rest
  | escape {c : Char} {cs cs' text rest : List Char} :
      Escape cs c cs' → Basic cs' text rest → Basic ('\\' :: cs) (c :: text) rest

/-- A string in apostrophes, from behind the first of them. -/
inductive Verbatim : Grammar (List Char) where
  | close (rest : List Char) : Verbatim ('\'' :: rest) [] rest
  | plain {c : Char} {cs text rest : List Char} :
      isPlain c = true → c ≠ '\'' → Verbatim cs text rest → Verbatim (c :: cs) (c :: text) rest

/-- A string within its line. -/
inductive LineString : Grammar (List Char) where
  | basic {cs text rest : List Char} : Basic cs text rest → LineString ('"' :: cs) text rest
  | verbatim {cs text rest : List Char} : Verbatim cs text rest → LineString ('\'' :: cs) text rest

/-- Blanks and line ends, as many as there are. -/
inductive Hidden : Filler where
  | none {rest : List Char} :
      Stops isBlank rest → (∀ rest', ¬ LineBreak rest rest') → Hidden rest rest
  | blank {c : Char} {cs rest : List Char} :
      isBlank c = true → Hidden cs rest → Hidden (c :: cs) rest
  | line {cs cs' rest : List Char} : LineBreak cs cs' → Hidden cs' rest → Hidden cs rest

/-- What a long string in double quotes may contain besides quotes. A backslash at the end of a line
hides the line end, with the blanks before it and all blanks and line ends behind it. -/
inductive LongItem : Grammar (List Char) where
  | plain {c : Char} (rest : List Char) :
      isPlain c = true → c ≠ '"' → c ≠ '\\' → LongItem (c :: rest) [c] rest
  | feed (rest : List Char) : LongItem ('\n' :: rest) ['\n'] rest
  | returnFeed (rest : List Char) : LongItem ('\r' :: '\n' :: rest) ['\r', '\n'] rest
  | escape {c : Char} {cs rest : List Char} : Escape cs c rest → LongItem ('\\' :: cs) [c] rest
  | hidden {cs cs₁ cs₂ rest : List Char} :
      Blanks cs cs₁ → LineBreak cs₁ cs₂ → Hidden cs₂ rest → LongItem ('\\' :: cs) [] rest

/-- What a long string in apostrophes may contain besides apostrophes. -/
inductive LongVerbatimItem : Grammar (List Char) where
  | plain {c : Char} (rest : List Char) :
      isPlain c = true → c ≠ '\'' → LongVerbatimItem (c :: rest) [c] rest
  | feed (rest : List Char) : LongVerbatimItem ('\n' :: rest) ['\n'] rest
  | returnFeed (rest : List Char) : LongVerbatimItem ('\r' :: '\n' :: rest) ['\r', '\n'] rest

/-- A long string, from behind its opening, `n` quotation marks having stood immediately before. One
mark or two may stand anywhere in it, but never three together; three close it. -/
inductive Long (quote : Char) (Item : Grammar (List Char)) : Nat → Grammar (List Char) where
  | close (n : Nat) (rest : List Char) : Long quote Item n (quote :: quote :: quote :: rest) [] rest
  | quote {n : Nat} {cs text rest : List Char} :
      n < 2 → Long quote Item (n + 1) cs text rest →
      Long quote Item n (quote :: cs) (quote :: text) rest
  | item {n : Nat} {cs cs' text text' rest : List Char} :
      Item cs text cs' → Long quote Item 0 cs' text' rest →
      Long quote Item n cs (text ++ text') rest

/-- A line end that counts for nothing, where there is one. -/
inductive FirstBreak : Filler where
  | line {cs rest : List Char} : LineBreak cs rest → FirstBreak cs rest
  | none {rest : List Char} : (∀ rest', ¬ LineBreak rest rest') → FirstBreak rest rest

/-- A string in any of the four forms. -/
inductive Quoted : Grammar (List Char) where
  | line {cs text rest : List Char} : LineString cs text rest → Quoted cs text rest
  | long {cs cs' text rest : List Char} :
      FirstBreak cs cs' → Long '"' LongItem 0 cs' text rest →
      Quoted ('"' :: '"' :: '"' :: cs) text rest
  | longVerbatim {cs cs' text rest : List Char} :
      FirstBreak cs cs' → Long '\'' LongVerbatimItem 0 cs' text rest →
      Quoted ('\'' :: '\'' :: '\'' :: cs) text rest

/-! ## Keys -/

/-- A key: bare, or a string within its line. -/
inductive Key : Grammar String where
  | bare {cs rest : List Char} :
      cs ≠ [] → cs.all isBareKey = true → Key (cs ++ rest) (.ofList cs) rest
  | quoted {cs text rest : List Char} : LineString cs text rest → Key cs (.ofList text) rest

/-- Keys with dots between them. -/
inductive Keys : Grammar (List String) where
  | last {key : String} {cs rest : List Char} : Key cs key rest → Keys cs [key] rest
  | dotted {key : String} {keys : List String} {cs cs₁ cs₂ cs₃ rest : List Char} :
      Key cs key cs₁ → Blanks cs₁ ('.' :: cs₂) → Blanks cs₂ cs₃ → Keys cs₃ keys rest →
      Keys cs (key :: keys) rest

/-- A key path of allowed length. -/
def Path : Grammar (List String) := fun cs path rest => Keys cs path rest ∧ path.length ≤ maxKeys

/-- A key path, an equals sign and a value. -/
inductive Assigned (Gap : Filler) (Value : Grammar Literal) : Grammar (List String × Literal) where
  | mk {path : List String} {v : Literal} {cs cs₁ cs₂ cs₃ rest : List Char} :
      Path cs path cs₁ → Gap cs₁ ('=' :: cs₂) → Gap cs₂ cs₃ → Value cs₃ v rest →
      Assigned Gap Value cs (path, v) rest

/-! ## Values -/

/-- The texts that can stand for a boolean, a number, a date or a time. There are blanks only
inside, and no quotation mark stands behind a blank or at the front. -/
structure IsWord (cs : List Char) : Prop where
  scalar : cs.all isScalarChar = true
  starts : ∀ c ∈ cs.head?, isBlank c = false ∧ isQuote c = false
  ends : ∀ c ∈ cs.getLast?, isBlank c = false
  quotes : cs.IsChain fun b c => isBlank b = true → isQuote c = false

/-- A value without parts. -/
inductive Simple : Grammar Literal where
  | word {cs rest : List Char} {v : Literal} :
      IsWord cs → scalarOf? cs = some v → Simple (cs ++ rest) v rest
  | string {cs text rest : List Char} :
      Quoted cs text rest → Simple cs (.string (.ofList text)) rest

/-- Items with commas between them up to `close`, with space around them. A comma may stand behind
the last. -/
inductive Separated {α : Type} (Item : Grammar α) (close : Char) : Grammar (List α) where
  | close {cs rest : List Char} : Space cs (close :: rest) → Separated Item close cs [] rest
  | last {a : α} {cs cs₁ cs₂ rest : List Char} :
      Space cs cs₁ → Item cs₁ a cs₂ → Space cs₂ (close :: rest) → Separated Item close cs [a] rest
  | more {a : α} {items : List α} {cs cs₁ cs₂ cs₃ rest : List Char} :
      Space cs cs₁ → Item cs₁ a cs₂ → Space cs₂ (',' :: cs₃) → Separated Item close cs₃ items rest →
      Separated Item close cs (a :: items) rest

/-- A value whose parts are `Value`s. -/
inductive Nested (Value : Grammar Literal) : Grammar Literal where
  | simple {v : Literal} {cs rest : List Char} : Simple cs v rest → Nested Value cs v rest
  | array {items : List Literal} {cs rest : List Char} :
      Separated Value ']' cs items rest → Nested Value ('[' :: cs) (.array items) rest
  | inlineTable {fields : List (List String × Literal)} {cs rest : List Char} :
      Separated (Assigned Space Value) '}' cs fields rest →
      Nested Value ('{' :: cs) (.inlineTable fields) rest

/-- A value with at most so many arrays and inline tables around its innermost part. -/
def Value : Nat → Grammar Literal
  | 0 => Simple
  | depth + 1 => Nested (Value depth)

/-! ## Documents -/

/-- One statement. -/
inductive Stated : Grammar Statement where
  | table {path : List String} {cs cs₁ cs₂ rest : List Char} :
      Blanks cs cs₁ → Path cs₁ path cs₂ → Blanks cs₂ (']' :: rest) →
      Stated ('[' :: cs) (.table path) rest
  | element {path : List String} {cs cs₁ cs₂ rest : List Char} :
      Blanks cs cs₁ → Path cs₁ path cs₂ → Blanks cs₂ (']' :: ']' :: rest) →
      Stated ('[' :: '[' :: cs) (.element path) rest
  | assign {path : List String} {v : Literal} {cs rest : List Char} :
      Assigned Blanks (Value maxDepth) cs (path, v) rest → Stated cs (.assign path v) rest

/-- A line without its end: perhaps a statement, and perhaps a comment behind it. -/
inductive Row : Grammar (List Statement) where
  | blank {cs cs₁ rest : List Char} : Blanks cs cs₁ → Remark cs₁ rest → Row cs [] rest
  | stated {s : Statement} {cs cs₁ cs₂ cs₃ rest : List Char} :
      Blanks cs cs₁ → Stated cs₁ s cs₂ → Blanks cs₂ cs₃ → Remark cs₃ rest → Row cs [s] rest

/-- Lines up to the end of the text, with line ends between them. -/
inductive Rows : List Char → List Statement → Prop where
  | last {statements : List Statement} {cs : List Char} : Row cs statements [] → Rows cs statements
  | more {statements later : List Statement} {cs cs₁ cs₂ : List Char} :
      Row cs statements cs₁ → LineBreak cs₁ cs₂ → Rows cs₂ later → Rows cs (statements ++ later)

end Grammar

/-- `Says document statements`: the document consists of lines with these statements. A byte order
mark may stand in front. -/
def Says (document : String) (statements : List Statement) : Prop :=
  ∃ text, (document.toList = text ∨ document.toList = '\uFEFF' :: text) ∧
    Grammar.Rows text statements

/-- `Denotes document t`: the document is well-formed, and `t` is its table. -/
def Denotes (document : String) (t : Table Node) : Prop :=
  ∃ statements, Says document statements ∧ ofStatements? statements = some t

end InterfaceCheck.Toml
