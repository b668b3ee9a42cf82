import InterfaceCheck.Value.Display
/-!
# Display text does not show nesting

The leaves of a value (`Value.leaves`) are what is left of its arrays when these are taken apart:
the values at the ends that are no arrays, and the empty arrays. Each leaf has a text that looks at
nothing inside it (`Value.leafText`). A value displays as the texts of its leaves with commas
between them (`Value.display_eq_intercalate`), so all that shows of an array is its leaves: its
items may as well stand in its place in the array around it (`Value.Splices`). An empty array is a
leaf without text, and taking it away takes a comma away unless it was alone
(`Value.display_without_empty_iff`).

`Value.display_flattens` has it all together.
-/

namespace InterfaceCheck.Value

/-! ## Leaves -/

mutual

/-- What is left of a value when arrays are taken apart. -/
def leaves : Value → List Value
  | .array items => if items.isEmpty then [.array []] else itemLeaves items
  | v => [v]

/-- The leaves of the items, one item after the other. -/
def itemLeaves : List Value → List Value
  | [] => []
  | v :: rest => v.leaves ++ itemLeaves rest

end

/-- The text of a leaf. An empty array has none; of a map, a class, an instance or a function the
contents do not show. -/
def leafText : Value → String
  | .undefined => "undefined"
  | .null => "null"
  | .bool b => if b then "true" else "false"
  | .number x => numberText integerLimit x
  | .string s => s
  | .function signature => "function/" ++ toString signature.arity
  | .array _ => ""
  | .map _ => "[object Object]"
  | .cls c => "[class " ++ c.name ++ "]"
  | .inst i => "[object " ++ i.cls.name ++ "]"
  | .host h => h.display

theorem itemLeaves_eq (items : List Value) : itemLeaves items = items.flatMap leaves := by
  induction items with
  | nil => rfl
  | cons v rest ih => rw [itemLeaves, ih, List.flatMap_cons]

theorem leaves_array_nil : leaves (.array []) = [.array []] := rfl

theorem leaves_array {items : List Value} (h : items ≠ []) :
    leaves (.array items) = items.flatMap leaves := by
  have hempty : ¬ items.isEmpty = true := fun he => h (List.isEmpty_iff.mp he)
  rw [leaves, if_neg hempty, itemLeaves_eq]

theorem leaves_of_not_array {v : Value} (h : ∀ items, v ≠ .array items) : v.leaves = [v] :=
  leaves.eq_2 v h

/-- No value is without leaves. -/
theorem leaves_ne_nil : ∀ v : Value, v.leaves ≠ []
  | .array [] => List.cons_ne_nil _ _
  | .array (v :: rest) => by
    rw [leaves_array (List.cons_ne_nil v rest), List.flatMap_cons]
    exact List.append_ne_nil_of_left_ne_nil (leaves_ne_nil v) _
  | .undefined | .null | .bool _ | .number _ | .string _ | .function _ | .map _ | .cls _
  | .inst _ | .host _ => List.cons_ne_nil _ _

theorem flatMap_leaves_ne_nil {items : List Value} (h : items ≠ []) :
    items.flatMap leaves ≠ [] := by
  rw [← leaves_array h]
  exact leaves_ne_nil _

/-! ## Texts -/

/-- A comma stands behind an item that others follow. -/
theorem displayItems_cons {v : Value} {rest : List Value} (h : rest ≠ []) :
    displayItems (v :: rest) = v.display ++ "," ++ displayItems rest := by
  cases rest with
  | nil => exact absurd rfl h
  | cons w rest => rw [displayItems]

mutual

/-- **A value displays as its leaves.** -/
theorem display_eq_intercalate : ∀ v : Value, v.display = ",".intercalate (v.leaves.map leafText)
  | .array [] => rfl
  | .array (v :: rest) => by
    rw [leaves_array (List.cons_ne_nil v rest), display, displayItems_eq_intercalate (v :: rest)]
  | .undefined | .null | .bool _ | .number _ | .string _ | .function _ | .map _ | .cls _
  | .inst _ | .host _ => String.intercalate_singleton.symm

/-- The items display as all of their leaves. The comma that stands between two items is the one
between the last leaf of the first and the first leaf of the second. -/
theorem displayItems_eq_intercalate :
    ∀ items : List Value,
      displayItems items = ",".intercalate ((items.flatMap leaves).map leafText)
  | [] => rfl
  | v :: rest => by
    rw [List.flatMap_cons, List.map_append]
    by_cases hrest : rest = []
    · subst hrest
      rw [displayItems, display_eq_intercalate v, List.flatMap_nil, List.map_nil, List.append_nil]
    · have hfirst : v.leaves.map leafText ≠ [] := fun h =>
        leaves_ne_nil v (List.map_eq_nil_iff.mp h)
      have hlater : (rest.flatMap leaves).map leafText ≠ [] := fun h =>
        flatMap_leaves_ne_nil hrest (List.map_eq_nil_iff.mp h)
      rw [displayItems_cons hrest, display_eq_intercalate v, displayItems_eq_intercalate rest,
        String.intercalate_append_of_ne_nil hfirst hlater]

end

/-! ## Splicing -/

/-- `Splices v w`: somewhere in `v` a non-empty array stands in another, and `w` is `v` with the
items of the inner array in its place. -/
inductive Splices : Value → Value → Prop where
  | here {before inner after : List Value} : inner ≠ [] →
      Splices (.array (before ++ .array inner :: after)) (.array (before ++ inner ++ after))
  | within {before after : List Value} {v w : Value} : Splices v w →
      Splices (.array (before ++ v :: after)) (.array (before ++ w :: after))

/-- Splicing keeps the leaves, and their order. -/
theorem Splices.leaves_eq {v w : Value} (h : Splices v w) : v.leaves = w.leaves := by
  induction h with
  | @here before inner after hinner =>
    rw [leaves_array (by simp), leaves_array (by simp [hinner]), List.flatMap_append,
      List.flatMap_cons, leaves_array hinner, List.flatMap_append, List.flatMap_append,
      List.append_assoc]
  | within _ ih =>
    rw [leaves_array (by simp), leaves_array (by simp), List.flatMap_append, List.flatMap_append,
      List.flatMap_cons, List.flatMap_cons, ih]

theorem Splices.display_eq {v w : Value} (h : Splices v w) : v.display = w.display := by
  rw [display_eq_intercalate, display_eq_intercalate, h.leaves_eq]

/-! ## Empty arrays -/

/-- The commas are one fewer than the texts that they stand between. -/
theorem length_intercalate {texts : List String} (h : texts ≠ []) :
    (",".intercalate texts).length + 1 = (String.join texts).length + texts.length := by
  induction texts with
  | nil => exact absurd rfl h
  | cons t texts ih =>
    by_cases hrest : texts = []
    · subst hrest
      simp
    · have hcomma : ",".length = 1 := rfl
      rw [String.intercalate_cons_of_ne_nil hrest, String.length_append, String.length_append,
        hcomma, String.join_cons, String.length_append, List.length_cons]
      have := ih hrest
      omega

/-- An empty array leaves no trace only where it is the only item. -/
theorem display_without_empty_iff {before after : List Value} :
    (Value.array (before ++ .array [] :: after)).display =
        (Value.array (before ++ after)).display ↔ before = [] ∧ after = [] := by
  constructor
  · intro h
    refine List.append_eq_nil_iff.mp (Decidable.not_not.mp fun hne => ?_)
    have hleaves := flatMap_leaves_ne_nil hne
    rw [display_eq_intercalate, display_eq_intercalate, leaves_array (by simp),
      leaves_array hne] at h
    have hlength := congrArg (String.length · + 1) h
    rw [length_intercalate (by simp [leaves_array_nil]),
      length_intercalate (by simpa using hleaves)] at hlength
    -- there is one leaf more on the left, and its text is empty
    simp only [List.flatMap_append, List.flatMap_cons, leaves_array_nil, List.map_append,
      List.map_cons, leafText, String.join_append, String.join_cons, String.length_append,
      List.length_append, List.length_map, List.length_cons, String.length_empty,
      List.cons_append, List.nil_append] at hlength
    omega
  · rintro ⟨rfl, rfl⟩
    rfl

/-! ## Together -/

/-- **Display flattens arrays.**

1. A value displays as the texts of its leaves with commas between them, where a non-empty array
   has the leaves of its items, an empty array is a leaf without text, and any other value is a
   leaf.
2. To put the items of a non-empty array in its place, at any depth, does not change the text.
3. To take an empty array away does, unless it was the only item. -/
theorem display_flattens :
    (∀ v : Value, v.display = ",".intercalate (v.leaves.map leafText)) ∧
    (∀ items, items ≠ [] → leaves (.array items) = items.flatMap leaves) ∧
    (leaves (.array []) = [.array []] ∧ leafText (.array []) = "") ∧
    (∀ v : Value, (∀ items, v ≠ .array items) → v.leaves = [v]) ∧
    (∀ v w : Value, Splices v w → v.display = w.display) ∧
    ∀ before after : List Value,
      (Value.array (before ++ .array [] :: after)).display =
        (Value.array (before ++ after)).display ↔ before = [] ∧ after = [] :=
  ⟨display_eq_intercalate, fun _ => leaves_array, ⟨leaves_array_nil, rfl⟩,
    fun _ => leaves_of_not_array, fun _ _ => Splices.display_eq,
    fun _ _ => display_without_empty_iff⟩

/-- An array within an array within an array: its items move up, first by one array and then by
another, and the text stays. The empty array at the end shows as a comma. -/
theorem display_flattens_thrice :
    let nested : Value := .array [.array [.array [.string "a", .null], .undefined], .array []]
    nested.display = (Value.array [.string "a", .null, .undefined, .array []]).display ∧
      nested.display = "a,null,undefined," ∧
      nested.display ≠
        (Value.array [.array [.array [.string "a", .null], .undefined]]).display := by
  intro nested
  obtain ⟨htext, -, -, -, hsplice, hempty⟩ := display_flattens
  have hinner : Splices nested
      (.array [.array [.string "a", .null, .undefined], .array []]) :=
    @Splices.within [] [.array []] _ _
      (@Splices.here [] [.string "a", .null] [.undefined] (by simp))
  have houter : Splices (.array [.array [.string "a", .null, .undefined], .array []])
      (.array [.string "a", .null, .undefined, .array []]) :=
    @Splices.here [] [.string "a", .null, .undefined] [.array []] (by simp)
  refine ⟨(hsplice _ _ hinner).trans (hsplice _ _ houter), ?_, fun h => ?_⟩
  · rw [htext]
    rfl
  · have hnone := (hempty [.array [.array [.string "a", .null], .undefined]] []).mp h
    exact absurd hnone.1 (by simp)

end InterfaceCheck.Value
