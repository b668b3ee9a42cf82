import InterfaceCheck.Assertions
import InterfaceCheck.Proofs.Table
/-!
# Building assertion tables step by step

An assertion table comes about by single definitions and by bulk definitions of the interface
assertions, in any order. Each step defines some names (`Assertions.Step.definitions`), and a run
of steps leaves the table that their definitions make when they are inserted one after the other
(`Assertions.table_run`). So what counts of a name is the last definition of it
(`Assertions.get?_run_of_last`).
-/

namespace InterfaceCheck

namespace Assertions

/-- One change to a table of assertions. -/
inductive Step where
  /-- A single definition. -/
  | add (name : String) (holds : List Value → Logged Bool) (template : String)
  /-- The interface assertions are defined. -/
  | interfaces

/-- What a step defines, in order. -/
def Step.definitions : Step → List (String × Assertion)
  | .add name holds template => [(name, ⟨holds, template⟩)]
  | .interfaces =>
    [("implementsInterface", ⟨implementsSecond, "Does not implement %1!"⟩),
     ("isInterface", ⟨quietly (ofFirst (·.isInterface)), "Invalid interface!"⟩)]

/-- The names that a step defines. -/
def Step.names (s : Step) : List String := s.definitions.map (·.1)

/-- The table after one step. -/
def apply (a : Assertions) : Step → Assertions
  | .add name holds template => a.add name holds template
  | .interfaces => a.withInterfaces

/-- The table after all steps. -/
def run (a : Assertions) (steps : List Step) : Assertions := steps.foldl apply a

theorem table_apply (a : Assertions) (s : Step) :
    (a.apply s).table = a.table.insertAll s.definitions := by
  cases s <;> rfl

theorem table_run :
    ∀ (a : Assertions) (steps : List Step),
      (a.run steps).table = a.table.insertAll (steps.flatMap Step.definitions)
  | _, [] => rfl
  | a, s :: steps => by
    show ((a.apply s).run steps).table = _
    rw [table_run, table_apply, List.flatMap_cons, Table.insertAll_append]

/-- The last definition of a name is the one in the table. -/
theorem get?_run_of_last {a : Assertions} {steps : List Step} {name : String} {x : Assertion}
    (h : Table.Last (steps.flatMap Step.definitions) name x) :
    (a.run steps).table.get? name = some x := by
  rw [table_run]
  exact Table.get?_insertAll_of_last h

/-- If a step defines a name once and no later step defines it, that definition is the last. -/
theorem last_of_step {before after : List Step} {s : Step} {name : String} {x : Assertion}
    (hs : Table.Last s.definitions name x) (hafter : ∀ t ∈ after, name ∉ t.names) :
    Table.Last ((before ++ s :: after).flatMap Step.definitions) name x := by
  obtain ⟨pre, post, hdefs, hpost⟩ := hs
  refine ⟨before.flatMap Step.definitions ++ pre, post ++ after.flatMap Step.definitions, ?_, ?_⟩
  · simp [List.flatMap_append, hdefs]
  · rw [List.map_append, List.mem_append, not_or]
    refine ⟨hpost, fun hm => ?_⟩
    -- a later definition would belong to a later step
    rw [List.map_flatMap, List.mem_flatMap] at hm
    obtain ⟨t, ht, hname⟩ := hm
    exact hafter t ht hname

/-! ## Checks -/

theorem check_of_none {a : Assertions} {name : String} (h : a.table.get? name = none)
    (args : List Value) : a.check name args = ⟨.error (.unknown name), []⟩ := by
  unfold check
  rw [h]

theorem check_of_some {a : Assertions} {name : String} {x : Assertion}
    (h : a.table.get? name = some x) (args : List Value) :
    a.check name args =
      ⟨if (x.holds args).answer then .ok ()
        else .error (.failed name (formatMessage x.template args)), (x.holds args).events⟩ := by
  unfold check
  rw [h]
  cases hx : (x.holds args).answer <;> simp [hx]

/-- A check of a defined name passes iff its predicate holds. -/
theorem check_eq_ok_iff {a : Assertions} {name : String} {x : Assertion} {args : List Value}
    (h : a.table.get? name = some x) :
    (a.check name args).answer = .ok () ↔ (x.holds args).answer = true := by
  rw [check_of_some h]
  cases (x.holds args).answer <;> simp

/-- A check reports what its predicate reports. -/
theorem check_events {a : Assertions} {name : String} {x : Assertion} {args : List Value}
    (h : a.table.get? name = some x) : (a.check name args).events = (x.holds args).events := by
  rw [check_of_some h]

end Assertions

end InterfaceCheck
