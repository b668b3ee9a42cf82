import InterfaceCheck.Event
import InterfaceCheck.Value.Display
/-!
# Conformance

A class implements an interface if it has every required member, itself or from an ancestor, in a
shape that fits the sample. Shapes are coarse: the kind, the arity of a callable, and whether an
object is an array. Nothing inside a sample or a member is compared.

Requirements are checked in the order of their declaration and the first one that fails is
reported. Of an instance the class is checked; its fields play no part.
-/

namespace InterfaceCheck

/-- Whether a callable declared as `found` can stand for one declared as `wanted`. Arities must
be equal, except that a rest parameter takes up any further arguments. -/
def Signature.accepts (wanted found : Signature) : Bool :=
  if found.rest then decide (found.arity ≤ wanted.arity) else decide (found.arity = wanted.arity)

/-- How a member fails to fit its sample. -/
inductive Mismatch where
  | shape (expected : Expected)
  | arity (expected found : Nat)
deriving DecidableEq, Repr

/-- How `member` fails to fit `sample`, if it does. Arities count only where the check is strict.
Once the kinds agree, both are callable or neither is (`isCallable_eq_of_kind_eq`), so a callable
sample never meets a member without a signature. -/
def Value.mismatch? (strict : Bool) (sample member : Value) : Option Mismatch :=
  if sample.kind ≠ member.kind then some (.shape (.kind sample.kind))
  else
    match sample.signature?, member.signature? with
    | some wanted, some found =>
      if strict && !wanted.accepts found then some (.arity wanted.arity found.arity) else none
    | _, _ => if sample.isArray && !member.isArray then some (.shape .array) else none

/-- The violation that a mismatch of a member amounts to. -/
def Mismatch.violation (cls interface member : String) : Mismatch → Violation
  | .shape expected => .kindMismatch cls interface member expected
  | .arity expected found => .arityMismatch cls interface member expected found

namespace Descriptor

/-- How a class falls short of one requirement, if it does. -/
def shortfall? (d : Descriptor Value) (c : Class Value) (requirement : String × Value) :
    Option Violation :=
  match c.member? requirement.1 with
  | none => some (.missingMember c.name d.name requirement.1)
  | some member =>
    (requirement.2.mismatch? d.strictArity member).map
      (·.violation c.name d.name requirement.1)

/-- The first requirement that a class falls short of. -/
def violation? (d : Descriptor Value) (c : Class Value) : Option Violation :=
  d.members.entries.findSome? (d.shortfall? c)

/-- Checks a class and reports the outcome. -/
def checkClass (d : Descriptor Value) (c : Class Value) : Logged (Except Violation Unit) :=
  match d.violation? c with
  | none => ⟨.ok (), [.satisfied c.name d.name]⟩
  | some violation => ⟨.error violation, [.notSatisfied c.name d.name violation]⟩

/-- Checks a class or the class of an instance. Other targets are refused without a report. -/
def check (d : Descriptor Value) (target : Value) : Logged (Except Violation Unit) :=
  match target.class? with
  | none => ⟨.error (.invalidTarget target.display), []⟩
  | some c => d.checkClass c

end Descriptor

/-- Checks that `target` implements the interface that `interface` carries. The target is looked
at first. -/
def checkImplements (target interface : Value) : Logged (Except Violation Unit) :=
  match target.class? with
  | none => ⟨.error (.invalidTarget target.display), []⟩
  | some c =>
    match interface.interface? with
    | none => ⟨.error (.invalidInterface interface.display), []⟩
    | some d => d.checkClass c

/-- For a value that carries an interface the two checks agree. -/
theorem checkImplements_ofInterface (target : Value) (d : Descriptor Value) :
    checkImplements target (.ofInterface d) = d.check target := by
  cases h : target.class? <;> simp [checkImplements, Descriptor.check, h]

end InterfaceCheck
