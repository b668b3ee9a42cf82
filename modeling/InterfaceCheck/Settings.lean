/-!
# Settings

How interfaces are declared. Without further notice arities are compared; whether declarations are
validated depends on what the program was built for.
-/

namespace InterfaceCheck

/-- How interfaces are declared. -/
structure Settings where
  /-- Whether names and configurations are validated. -/
  debug : Bool
  /-- Whether checks of the declared interfaces compare arities. -/
  strictArity : Bool
deriving DecidableEq, Repr

/-- The settings of those who ask for none. A program that is built for debugging validates, one
that is built for release does not. -/
def Settings.standard (forDebugging : Bool) : Settings where
  debug := forDebugging
  strictArity := true

end InterfaceCheck
