import InterfaceCheck.Value
/-!
# Value expressions

How the commands of a session write values. An expression builds a value from scratch, takes up
the value of a variable, or takes a part out of another value; none builds an interface, which only
a declaration makes.
-/

namespace InterfaceCheck

/-- Where in a value a part of it is found. -/
inductive Selector where
  /-- An item of an array, counted from 0. -/
  | item (index : Nat)
  /-- An entry of a plain map. -/
  | entry (key : String)
  /-- A member of a class, its own or an ancestor's. -/
  | member (key : String)
  /-- The class of an instance. -/
  | cls
  /-- An own field of an instance. -/
  | field (key : String)
  /-- The sample of a required member of an interface. -/
  | sample (key : String)
  | events
  | properties
deriving DecidableEq, Repr

/-- What the value has where the selector points. -/
def Value.select? : Value → Selector → Option Value
  | .array items, .item index => items[index]?
  | .map entries, .entry key => entries.get? key
  | .cls c, .member key => c.member? key
  | .inst i, .cls => some (.cls i.cls)
  | .inst i, .field key => i.field? key
  | .host (.interface d), .sample key => d.members.get? key
  | .host (.interface d), .events => d.events
  | .host (.interface d), .properties => d.properties
  | _, _ => none

/-- An expression for a value. -/
inductive Expr where
  | undefined
  | null
  | bool (b : Bool)
  | number (x : Binary64)
  | string (s : String)
  | function (signature : Signature)
  | array (items : List Expr)
  | map (entries : List (String × Expr))
  | cls (name : String) (ctor : Signature) (members : List (String × Expr)) (parent : Option Expr)
  | inst (maker : Expr) (fields : List (String × Expr))
  /-- A host object that is not an interface. -/
  | foreign (display : String)
  /-- The value of a variable. -/
  | var (name : String)
  /-- A part of another value. -/
  | part (whole : Expr) (selector : Selector)

namespace Expr

/-- The steps that build the class of a class expression. -/
def classSteps (ctor : Signature) (members : List (String × Value))
    (parent : Option (Class Value)) : List (ClassStep Value) :=
  .constructor ctor :: members.map (fun m => .member m.1 m.2)
    ++ (parent.map ClassStep.extending).toList

mutual

/-- The value of the expression. There is none if a variable has no value, if the parent of a
class is not a class, if an instance is made of something else than a class, or if there is no
such part. -/
def eval? (vars : Table Value) : Expr → Option Value
  | .undefined => some .undefined
  | .null => some .null
  | .bool b => some (.bool b)
  | .number x => some (.number x)
  | .string s => some (.string s)
  | .function signature => some (.function signature)
  | .array items => (evalAll? vars items).map .array
  | .map entries => (evalFields? vars entries).map fun fields => .map (.ofList fields)
  | .cls name ctor members none =>
    (evalFields? vars members).map fun fields =>
      .cls (Class.build name (classSteps ctor fields none))
  | .cls name ctor members (some parent) =>
    (evalFields? vars members).bind fun fields =>
      (eval? vars parent).bind fun
        | .cls p => some (.cls (Class.build name (classSteps ctor fields (some p))))
        | _ => none
  | .inst maker fields =>
    (eval? vars maker).bind fun
      | .cls c =>
        (evalFields? vars fields).map fun fields =>
          .inst (fields.foldl (fun i f => i.withField f.1 f.2) (.of c))
      | _ => none
  | .foreign display => some (.host (.foreign display))
  | .var name => vars.get? name
  | .part whole selector => (eval? vars whole).bind (·.select? selector)

/-- The values of the expressions. -/
def evalAll? (vars : Table Value) : List Expr → Option (List Value)
  | [] => some []
  | e :: rest => (eval? vars e).bind fun v => (evalAll? vars rest).map (v :: ·)

/-- The values of the expressions, under their keys. -/
def evalFields? (vars : Table Value) : List (String × Expr) → Option (List (String × Value))
  | [] => some []
  | (key, e) :: rest =>
    (eval? vars e).bind fun v => (evalFields? vars rest).map ((key, v) :: ·)

end

end Expr

end InterfaceCheck
