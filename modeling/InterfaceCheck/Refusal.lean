import InterfaceCheck.Text.Quoted
/-!
# Refusals

Why a declaration is refused. Only declarations with validation on are.
-/

namespace InterfaceCheck

/-- Why a declaration is refused. -/
inductive Refusal where
  /-- The name is not a module name. -/
  | invalidName (name : String)
  /-- The configuration of the interface is not a plain map. -/
  | invalidConfig (name : String)
deriving DecidableEq, Repr

def Refusal.message : Refusal → String
  | .invalidName name => "invalid interface name: " ++ Text.quote name
  | .invalidConfig name => "invalid interface configuration in " ++ name

end InterfaceCheck
