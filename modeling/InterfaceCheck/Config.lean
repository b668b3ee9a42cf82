import InterfaceCheck.Value
/-!
# Interface configurations

What an interface is declared from: the required members with their samples, and metadata about
events and properties. A configuration is put together step by step or read from a plain map.
-/

namespace InterfaceCheck

/-- What an interface is declared from. -/
structure Config where
  /-- The required members with a sample of each. -/
  members : Table Value := .empty
  events : Option Value := none
  properties : Option Value := none

namespace Config

/-- Requires a member that is shaped as the sample. -/
def member (c : Config) (key : String) (sample : Value) : Config :=
  { c with members := c.members.insert key sample }

/-- Reads the entries `members`, `events` and `properties` of a plain map. There are no members
if that entry is not a plain map, and nothing at all in any other value. -/
def ofValue (v : Value) : Config where
  members := ((v.get? "members").bind (·.entries?)).getD .empty
  events := v.get? "events"
  properties := v.get? "properties"

/-- The interface that the configuration declares. -/
def descriptor (c : Config) (name : String) (strictArity : Bool) : Descriptor Value where
  name := name
  members := c.members
  events := c.events
  properties := c.properties
  strictArity := strictArity

end Config

end InterfaceCheck
