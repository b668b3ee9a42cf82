import InterfaceCheck.Settings
import InterfaceCheck.Toml.Library
/-!
# Reading settings

Settings are read from the top-level table of a TOML document. Its keys may be `debug` and
`strict-arity`, its values booleans; a key left out stands for its default. A library reads the
document as a whole before any of its entries is looked at, and the first entry that does not fit is
reported, in the order in which the library hands them over.
-/

namespace InterfaceCheck

/-- Why a document gives no settings. -/
inductive SettingsError (ε : Type := Toml.Problem) where
  /-- The library reports that the document cannot be read as settings. -/
  | parse (problem : ε)
deriving DecidableEq, Repr

namespace SettingsError

variable {ε : Type}

/-- The text of the error. It goes on with what the library displays, the place in the document
included. -/
def message (display : ε → String) : SettingsError ε → String
  | .parse problem => "failed to parse interface settings: " ++ display problem

/-- What the plain library says is wrong, where it has words for it: no more than the description
that a library displays with the place, behind the opening of the message. -/
def message? : SettingsError → Option String
  | .parse problem => problem.words?

/-- The plain library displays no more than its words. -/
theorem message_plain {e : SettingsError} {words : String} (h : e.message? = some words) :
    e.message Toml.Library.plain.display = "failed to parse interface settings: " ++ words := by
  cases e with
  | parse problem =>
    have hwords : problem.words? = some words := h
    have hdisplay : Toml.Library.plain.display problem = words :=
      congrArg (Option.getD · "") hwords
    exact congrArg ("failed to parse interface settings: " ++ ·) hdisplay

end SettingsError

namespace Settings

/-- The keys that are settings. -/
def keys : List String := ["debug", "strict-arity"]

/-- The settings that entries have given so far. -/
structure Given where
  debug : Option Bool := none
  strictArity : Option Bool := none

/-- The value that an entry gives to a setting, unless an earlier one has given it a value. -/
def give (L : Toml.Library) (given : Option Bool) (entry : L.Entry) :
    Except L.Error (Option Bool) :=
  if given.isSome then .error (L.duplicateField entry) else (L.boolean entry).map some

/-- One more entry. -/
def Given.add (L : Toml.Library) (given : Given) (entry : L.Entry) : Except L.Error Given :=
  if L.key entry = "debug" then
    (give L given.debug entry).map ({ given with debug := · })
  else if L.key entry = "strict-arity" then
    (give L given.strictArity entry).map ({ given with strictArity := · })
  else .error (L.unknownField entry keys)

/-- The settings, with the defaults for those that no entry has given. -/
def Given.orElse (given : Given) (defaults : Settings) : Settings where
  debug := given.debug.getD defaults.debug
  strictArity := given.strictArity.getD defaults.strictArity

/-- The settings of a TOML document, as a library reads it. -/
def read (L : Toml.Library) (defaults : Settings) (document : String) :
    Except (SettingsError L.Error) Settings :=
  match L.entries document with
  | .error e => .error (.parse e)
  | .ok entries =>
    match entries.foldlM (Given.add L) {} with
    | .error e => .error (.parse e)
    | .ok given => .ok (given.orElse defaults)

/-- The settings of a TOML document. -/
def ofToml (document : String) (defaults : Settings := .standard true) :
    Except SettingsError Settings :=
  read .plain defaults document

end Settings

end InterfaceCheck
