import InterfaceCheck.Proofs.Combination
/-!
# What building a class comes to

The steps that build a class set its constructor and its parent and define its members, in any order
and with repetitions. Of each kind the last step counts, and steps of one kind do not see those of
another (`Class.build_eq`). So a lookup depends on the last definition of its key and on the parent
set last, and not on which of them came first.

A lookup climbs from the class to its ancestors and takes the first hit. The flattened table of a
class is made the other way round, from the farthest ancestor down, each class writing over what
those above it have left.

- `member?_eq_flattened`: the two ways give the same member;
- `search?_eq`: climbing one class a turn comes to an end, and no later than at the last ancestor;
- `build_answers`: the two for all classes that can be built, with the members and the constructor
  that they have.
-/

namespace InterfaceCheck

universe u

variable {α : Type u}

/-! ## What a step sets -/

namespace ClassStep

/-- The signature that the step gives to the constructor. -/
def signature? : ClassStep α → Option Signature
  | .constructor signature => some signature
  | _ => none

/-- The parent that the step sets. -/
def parent? : ClassStep α → Option (Class α)
  | .extending parent => some parent
  | _ => none

/-- The member that the step defines, under its key. -/
def binding? : ClassStep α → Option (String × α)
  | .member key value => some (key, value)
  | _ => none

end ClassStep

namespace Class

theorem foldl_apply :
    ∀ (c : Class α) (steps : List (ClassStep α)), steps.foldl apply c =
      ⟨c.name, (steps.filterMap ClassStep.signature?).getLast?.getD c.ctor,
        (steps.filterMap ClassStep.parent?).getLast?.or c.parent,
        c.members.insertAll (steps.filterMap ClassStep.binding?)⟩
  | ⟨name, ctor, parent, members⟩, [] => by
    show _ = Class.mk name ctor (none.or parent) members
    rw [Option.none_or]
    rfl
  | c, step :: steps => by
    rw [List.foldl_cons, foldl_apply]
    -- what the first step sets holds until a later step sets it again
    cases step with
    | constructor signature =>
      show Class.mk _ ((steps.filterMap ClassStep.signature?).getLast?.getD signature) _ _ =
        Class.mk _ ((signature :: steps.filterMap ClassStep.signature?).getLast?.getD c.ctor) _ _
      rw [List.getLast?_cons, Option.getD_some]
      rfl
    | extending parent =>
      show Class.mk _ _ ((steps.filterMap ClassStep.parent?).getLast?.or (some parent)) _ =
        Class.mk _ _ ((parent :: steps.filterMap ClassStep.parent?).getLast?.or c.parent) _
      rw [List.getLast?_cons, Option.some_or]
      cases (steps.filterMap ClassStep.parent?).getLast? <;> rfl
    | member key value => rfl

/-- A built class has the constructor and the parent set last, and of each member the last
definition. -/
theorem build_eq (name : String) (steps : List (ClassStep α)) :
    build name steps =
      ⟨name, (steps.filterMap ClassStep.signature?).getLast?.getD ⟨0, false⟩,
        (steps.filterMap ClassStep.parent?).getLast?,
        .ofList (steps.filterMap ClassStep.binding?)⟩ := by
  unfold build
  rw [foldl_apply]
  show Class.mk _ _ ((steps.filterMap ClassStep.parent?).getLast?.or none) _ = _
  rw [Option.or_none]
  rfl

/-! ## Flattened tables -/

/-- The members of the class and its ancestors in one table, made from the farthest ancestor
down. -/
def flattened (c : Class α) : Table α :=
  c.lineage.foldr (fun a below => below.followedBy a.members) .empty

/-- No class of the lineage lists a key twice. -/
def KeysOnce (c : Class α) : Prop := ∀ a ∈ c.lineage, a.members.keys.Nodup

/-- The first hit on the way up is what the way down leaves in the table. -/
theorem member?_eq_flattened {c : Class α} (h : c.KeysOnce) (key : String) :
    c.member? key = c.flattened.get? key := by
  rw [member?_eq_findSome?]
  unfold flattened
  unfold KeysOnce at h
  generalize c.lineage = lineage at h ⊢
  induction lineage with
  | nil => rfl
  | cons a farther ih =>
    have ih := ih fun b hb => h b (List.mem_cons_of_mem a hb)
    rw [List.foldr_cons, Table.get?_followedBy (h a List.mem_cons_self), ← ih, List.findSome?_cons]
    cases a.members.get? key <;> rfl

/-! ## The search, turn by turn -/

/-- Looks for a member in the class and then in one ancestor a turn. There is no answer if the turns
do not suffice. -/
def search? (key : String) : Nat → Class α → Option (Option α)
  | 0, _ => none
  | turns + 1, c =>
    match c.members.get? key with
    | some value => some (some value)
    | none =>
      match c.parent with
      | some parent => search? key turns parent
      | none => some none

/-- The search ends at the latest where the ancestors do, and then it has found what there is. -/
theorem search?_eq (key : String) {turns : Nat} {c : Class α} (h : c.lineage.length ≤ turns) :
    search? key turns c = some (c.member? key) := by
  induction turns generalizing c with
  | zero =>
    cases hp : c.parent with
    | none => rw [lineage_of_root hp] at h; cases h
    | some p => rw [lineage_of_parent hp] at h; cases h
  | succ turns ih =>
    unfold search?
    cases hown : c.members.get? key with
    | some value => rw [member?_of_own hown]
    | none =>
      rw [member?_of_not_own hown]
      cases hp : c.parent with
      | none => rfl
      | some p =>
        rw [lineage_of_parent hp, List.length_cons] at h
        exact ih (Nat.le_of_succ_le_succ h)

/-! ## Classes that can be built -/

/-- `c.Built`: steps have built the class, and so the parents that they set. -/
inductive Built : Class α → Prop where
  | of_steps (name : String) (steps : List (ClassStep α)) :
      (∀ p, ClassStep.extending p ∈ steps → Built p) → Built (build name steps)

/-- The parent of a built class is a built class. -/
theorem parent_of_build {name : String} {steps : List (ClassStep α)} {p : Class α}
    (h : (build name steps).parent = some p) : ClassStep.extending p ∈ steps := by
  rw [build_eq] at h
  obtain ⟨step, hstep, hp⟩ := List.mem_filterMap.mp (List.mem_of_getLast? h)
  cases step with
  | extending parent => exact Option.some.inj hp ▸ hstep
  | _ => cases hp

theorem Built.keysOnce {c : Class α} (h : c.Built) : c.KeysOnce := by
  induction h with
  | of_steps name steps _ ih =>
    have hown : (build name steps).members.keys.Nodup := by
      rw [build_eq]
      exact Table.nodup_keys_ofList _
    intro a ha
    cases hp : (build name steps).parent with
    | none =>
      rw [lineage_of_root hp, List.mem_singleton] at ha
      rw [ha]
      exact hown
    | some p =>
      rw [lineage_of_parent hp] at ha
      rcases List.mem_cons.mp ha with rfl | ha
      · exact hown
      · exact ih p (parent_of_build hp) a ha

end Class

/-- **What a built class answers.** Take any steps, whose parents have been built by steps in turn.
Of the class that they build:

1. under a key that a step defines there is the value of the last definition;
2. under any other key there is what the parent set last finds, and nothing without a parent;
3. the signature is the one set last, and never that of a parent;
4. under every key there is what the flattened table of the class has;
5. a search turn by turn ends, and no later than at the last ancestor. -/
theorem Class.build_answers {steps : List (ClassStep Value)}
    (h : ∀ p, ClassStep.extending p ∈ steps → p.Built) (name : String) :
    let c := Class.build name steps
    (∀ key value, Table.Last (steps.filterMap ClassStep.binding?) key value →
      c.member? key = some value) ∧
    (∀ key, key ∉ (steps.filterMap ClassStep.binding?).map (·.1) →
      c.member? key = (steps.filterMap ClassStep.parent?).getLast?.bind (·.member? key)) ∧
    (Value.cls c).signature? =
      some ((steps.filterMap ClassStep.signature?).getLast?.getD ⟨0, false⟩) ∧
    (∀ key, c.member? key = c.flattened.get? key) ∧
    ∀ key turns, c.lineage.length ≤ turns → Class.search? key turns c = some (c.member? key) := by
  intro c
  have hc : c = _ := build_eq name steps
  refine ⟨fun key value hlast => ?_, fun key hnot => ?_, ?_, ?_, fun key turns => search?_eq key⟩
  · refine member?_of_own ?_
    rw [hc]
    exact Table.get?_ofList_eq_some_iff.mpr hlast
  · have hown : c.members.get? key = none := by
      rw [hc]
      exact Table.get?_ofList_eq_none_iff.mpr hnot
    rw [member?_of_not_own hown, hc]
  · show some c.ctor = _
    rw [hc]
  · exact member?_eq_flattened (Built.of_steps name steps h).keysOnce

/-- A disc defines its area twice and sets two parents, the second of them after all its members. It
has no constructor of its own. -/
theorem Class.build_answers_disc :
    let shape : Class Value := .build "geo.Shape"
      [.member "label" (.string "shape"), .constructor ⟨2, true⟩, .member "area" .null]
    let steps : List (ClassStep Value) := [.member "area" .null, .extending (.build "geo.Solid" []),
      .member "area" (.function ⟨0, false⟩), .extending shape]
    let disc := Class.build "geo.Disc" steps
    (∀ p, ClassStep.extending p ∈ steps → p.Built) ∧
      disc.member? "area" = some (.function ⟨0, false⟩) ∧
      disc.member? "label" = shape.member? "label" ∧
      (Value.cls disc).signature? = some ⟨0, false⟩ ∧
      disc.flattened.get? "label" = some (.string "shape") := by
  intro shape steps disc
  have hbuilt : ∀ p, ClassStep.extending p ∈ steps → p.Built := by
    intro p hp
    have hparents : steps.filterMap ClassStep.parent? = [.build "geo.Solid" [], shape] := rfl
    have hmem : p ∈ steps.filterMap ClassStep.parent? := List.mem_filterMap.mpr ⟨_, hp, rfl⟩
    rw [hparents] at hmem
    simp only [List.mem_cons, List.not_mem_nil, or_false] at hmem
    rcases hmem with rfl | rfl
    · exact .of_steps _ _ nofun
    · refine .of_steps _ _ fun p hp => ?_
      simp at hp
  obtain ⟨hown, hother, hsignature, hflattened, -⟩ := Class.build_answers hbuilt "geo.Disc"
  refine ⟨hbuilt, hown _ _ ⟨[("area", .null)], [], rfl, nofun⟩, hother "label" (by decide),
    hsignature, ?_⟩
  rw [← hflattened]
  rfl

end InterfaceCheck
