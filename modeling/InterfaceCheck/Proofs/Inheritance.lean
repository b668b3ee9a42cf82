import InterfaceCheck.Proofs.Shapes
import InterfaceCheck.Proofs.Table
/-!
# Checks and inheritance

A class that extends another has what its parent has, except for what it defines itself. A check
sees the two classes through their members, so it sees them differently only under the keys that the
class defines; and it mentions the name of the class that it was given, never the place in the chain
where a member was found.

- `checkClass_renamed`: the name of a class goes into the violation and into nothing else;
- `offersAlike_parent`: a class without an own member under any of the keys offers what its parent
  offers;
- `implements_of_parent_iff`: requirement by requirement, an own member decides if there is one, and
  the parent does otherwise;
- `conformance_inherited`: what follows for the checks of the two.
-/

namespace InterfaceCheck

/-! ## The name of a class -/

/-- The same violation, found with a class of another name. -/
def Violation.ofClass (name : String) : Violation → Violation
  | .missingMember _ interface member => .missingMember name interface member
  | .kindMismatch _ interface member expected => .kindMismatch name interface member expected
  | .arityMismatch _ interface member expected found =>
    .arityMismatch name interface member expected found
  | v => v

theorem Mismatch.violation_ofClass (cls name interface member : String) (m : Mismatch) :
    (m.violation cls interface member).ofClass name = m.violation name interface member := by
  cases m <;> rfl

/-- The same class under another name. -/
def Class.renamed (c : Class Value) (name : String) : Class Value := { c with name := name }

/-- Names play no part in a lookup. -/
theorem Class.member?_renamed (c : Class Value) (name key : String) :
    (c.renamed name).member? key = c.member? key := by
  rw [member?_eq, member?_eq c]
  rfl

namespace Descriptor

variable (d : Descriptor Value) (c : Class Value) (name : String)

theorem shortfall?_renamed (r : String × Value) :
    d.shortfall? (c.renamed name) r = (d.shortfall? c r).map (Violation.ofClass name) := by
  unfold shortfall?
  rw [Class.member?_renamed]
  cases c.member? r.1 with
  | none => rfl
  | some member =>
    simp only [Option.map_map]
    refine congrArg (Option.map · _) (funext fun m => ?_)
    exact (m.violation_ofClass c.name name d.name r.1).symm

/-- The first violation is the same one, with the other name in it. -/
theorem violation?_renamed :
    d.violation? (c.renamed name) = (d.violation? c).map (Violation.ofClass name) := by
  unfold violation?
  rw [List.map_findSome?]
  exact congrArg (List.findSome? · _) (funext (d.shortfall?_renamed c name))

theorem checkClass_renamed :
    (d.checkClass (c.renamed name)).answer =
      (d.checkClass c).answer.mapError (Violation.ofClass name) := by
  rw [checkClass_answer, checkClass_answer, violation?_renamed]
  cases d.violation? c <;> rfl

end Descriptor

/-! ## A class and its parent -/

namespace Class

variable {c p : Class Value}

/-- What a class does not define, its parent has to have. -/
theorem member?_of_parent (h : c.parent = some p) (key : String) :
    c.member? key = (c.members.get? key).or (p.member? key) := by
  rw [member?_eq, h]
  rfl

/-- A class that defines none of the keys offers what its parent offers, under its own name. -/
theorem offersAlike_parent (h : c.parent = some p) {keys : List String}
    (hown : ∀ key ∈ keys, key ∉ c.members.keys) : c.OffersAlike keys (p.renamed c.name) where
  name := rfl
  members key hkey := by
    have hnone : c.members.get? key = none := Table.get?_eq_none_iff.mpr (hown key hkey)
    rw [member?_of_parent h, hnone, Option.none_or, member?_renamed]

end Class

namespace Descriptor

variable {d : Descriptor Value} {c p : Class Value}

/-- An own member settles a requirement, whatever the parent has under the key. -/
theorem meets_of_own {r : String × Value} {own : Value} (hown : c.members.get? r.1 = some own) :
    d.Meets c r ↔ r.2.Fits d.strictArity own := by
  rw [meets_iff, Class.member?_of_own hown]
  simp

/-- Without an own member the parent settles it. -/
theorem meets_of_not_own (h : c.parent = some p) {r : String × Value}
    (hown : c.members.get? r.1 = none) : d.Meets c r ↔ d.Meets p r := by
  rw [meets_iff, meets_iff, Class.member?_of_parent h, hown, Option.none_or]

/-- A class implements an interface iff its own members fit where they are required and its parent
meets the other requirements. -/
theorem implements_of_parent_iff (h : c.parent = some p) :
    c.Implements d ↔ ∀ r ∈ d.members.entries,
      (∀ own, c.members.get? r.1 = some own → r.2.Fits d.strictArity own) ∧
        (c.members.get? r.1 = none → d.Meets p r) := by
  rw [Class.implements_iff]
  refine forall₂_congr fun r _ => ?_
  cases hown : c.members.get? r.1 with
  | none => simp [meets_of_not_own h hown]
  | some own => simp [meets_of_own hown]

end Descriptor

/-- **Conformance is inherited.** Of a class and its parent:

1. if the class defines none of the required members, its check has the answer of its parent's, with
   its own name in the place of the parent's;
2. if the parent passes and every own member under a required key fits the sample, the class passes;
3. if the class passes, every own member under a required key is the one that a lookup finds, and it
   fits the sample, whether or not the parent's would. -/
theorem conformance_inherited {c p : Class Value} (h : c.parent = some p)
    (d : Descriptor Value) :
    ((∀ key ∈ d.members.keys, key ∉ c.members.keys) →
      (checkImplements (.cls c) (.ofInterface d)).answer =
        (checkImplements (.cls p) (.ofInterface d)).answer.mapError (Violation.ofClass c.name)) ∧
    (p.Implements d →
      (∀ r ∈ d.members.entries, ∀ own, c.members.get? r.1 = some own →
        r.2.Fits d.strictArity own) → c.Implements d) ∧
    (c.Implements d → ∀ r ∈ d.members.entries, ∀ own, c.members.get? r.1 = some own →
      c.member? r.1 = some own ∧ r.2.Fits d.strictArity own) := by
  refine ⟨?_, ?_, ?_⟩
  · intro hown
    have halike : d.checkClass c = d.checkClass (p.renamed c.name) :=
      Descriptor.checkClass_eq_of_alike (.refl d) (Class.offersAlike_parent h hown)
    rw [checkImplements_of_hasClass (.cls c), checkImplements_of_hasClass (.cls p), halike,
      Descriptor.checkClass_renamed]
  · intro hp hown
    refine (Descriptor.implements_of_parent_iff h).mpr fun r hr => ⟨hown r hr, fun _ => ?_⟩
    exact Class.implements_iff.mp hp r hr
  · intro hc r hr own hget
    have hdecides := (Descriptor.implements_of_parent_iff h).mp hc r hr
    exact ⟨Class.member?_of_own hget, hdecides.1 own hget⟩

/-- A plain tile is refused like the polygon that it extends, under its own name. A cube replaces a
method of the square that it extends and passes like it; a blob spoils what the square had right. -/
theorem conformance_inherited_polygons :
    let shape : Descriptor Value := ⟨"geo.Shape",
      .ofList [("area", .function ⟨0, false⟩), ("corners", .array [])], none, none, true⟩
    let polygon : Class Value := ⟨"geo.Polygon", ⟨0, false⟩, none,
      .ofList [("corners", .array [.null])]⟩
    let tile : Class Value := ⟨"geo.Tile", ⟨0, false⟩, some polygon, .ofList [("colour", .null)]⟩
    let square : Class Value := ⟨"geo.Square", ⟨0, false⟩, some polygon,
      .ofList [("area", .function ⟨0, true⟩)]⟩
    let cube : Class Value := ⟨"geo.Cube", ⟨0, false⟩, some square,
      .ofList [("area", .function ⟨0, false⟩)]⟩
    let blob : Class Value := ⟨"geo.Blob", ⟨0, false⟩, some square, .ofList [("corners", .null)]⟩
    (checkImplements (.cls tile) (.ofInterface shape)).answer =
        .error (.missingMember "geo.Tile" "geo.Shape" "area") ∧
      square.Implements shape ∧ cube.Implements shape ∧ ¬ blob.Implements shape := by
  intro shape polygon tile square cube blob
  have hentries : shape.members.entries =
      [("area", .function ⟨0, false⟩), ("corners", .array [])] := rfl
  have hsquare : square.Implements shape := rfl
  refine ⟨(conformance_inherited (c := tile) rfl shape).1 (by decide), hsquare, ?_, ?_⟩
  · refine (conformance_inherited (c := cube) rfl shape).2.1 hsquare fun r hr own hown => ?_
    rw [hentries, List.mem_cons, List.mem_singleton] at hr
    rcases hr with rfl | rfl
    · cases hown
      exact .refl _ _
    · cases hown
  · intro hblob
    have hcorners : ("corners", .array []) ∈ shape.members.entries := by
      simp [hentries]
    have hfits := (conformance_inherited (c := blob) rfl shape).2.2 hblob _ hcorners .null rfl
    cases hfits.2.array rfl

end InterfaceCheck
