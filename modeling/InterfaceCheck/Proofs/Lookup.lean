import InterfaceCheck.Class
/-!
# Looking members up along the parent chain

`Class.member?` goes from a class to its parent until some class defines the key. Here the search
is said without the recursion. The lineage of a class lists it and its ancestors, nearest first,
and `Finds` says that a class of the lineage defines the key and that no nearer one does. A lookup
gives a value iff the class finds it (`member?_eq_some_iff`), and gives none iff no class of the
lineage defines the key (`member?_eq_none_iff`).
-/

namespace InterfaceCheck

universe u

namespace Class

variable {α : Type u}

/-! ## The lineage -/

/-- A class is the nearest of its own lineage. -/
theorem lineage_of_parent {c p : Class α} (h : c.parent = some p) : c.lineage = c :: p.lineage := by
  obtain ⟨name, ctor, parent, members⟩ := c
  subst h
  rw [lineage]

/-- A class without a parent is alone in its lineage. -/
theorem lineage_of_root {c : Class α} (h : c.parent = none) : c.lineage = [c] := by
  obtain ⟨name, ctor, parent, members⟩ := c
  subst h
  rw [lineage]

/-! ## The search -/

/-- A lookup takes the first table of the lineage that has the key. -/
theorem member?_eq_findSome? :
    ∀ (c : Class α) (key : String),
      c.member? key = c.lineage.findSome? (fun a => a.members.get? key)
  | ⟨_, _, none, members⟩, key => by
    cases h : members.get? key <;> simp [member?, lineage, h]
  | ⟨_, _, some parent, members⟩, key => by
    have ih := member?_eq_findSome? parent key
    cases h : members.get? key <;> simp [member?, lineage, h, ih]
termination_by structural c => c

/-- `c.Finds key value`: a class of the lineage binds `key` to `value`, and no nearer one defines
the key. -/
def Finds (c : Class α) (key : String) (value : α) : Prop :=
  ∃ nearer a farther, c.lineage = nearer ++ a :: farther ∧
    (∀ b ∈ nearer, b.members.get? key = none) ∧ a.members.get? key = some value

theorem member?_eq_some_iff {c : Class α} {key : String} {value : α} :
    c.member? key = some value ↔ c.Finds key value := by
  rw [member?_eq_findSome?, List.findSome?_eq_some_iff]
  constructor
  · rintro ⟨nearer, a, farther, hl, ha, hn⟩
    exact ⟨nearer, a, farther, hl, hn, ha⟩
  · rintro ⟨nearer, a, farther, hl, hn, ha⟩
    exact ⟨nearer, a, farther, hl, ha, hn⟩

theorem member?_eq_none_iff {c : Class α} {key : String} :
    c.member? key = none ↔ ∀ a ∈ c.lineage, a.members.get? key = none := by
  rw [member?_eq_findSome?, List.findSome?_eq_none_iff]

end Class

end InterfaceCheck
