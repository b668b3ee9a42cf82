import InterfaceCheck.Proofs.Table
import InterfaceCheck.Toml.Document
/-!
# TOML: no key twice

A document binds each key once. The table that it makes lists no key twice
(`Toml.nodup_keys_of_parse?`), and a document that defines a key twice, by assignments or by
headings or within one inline table, makes no table at all (`Toml.ofStatements?_of_repeatsKey`).

Statements work on the tables at the end of a path (`Toml.sub?`). What such a table binds a key to
stays there, and only a heading that starts another element of an array of tables hides what it held
before. `Toml.Keeps` says so for all properties of a node that statements leave as they are
(`Node.Becomes`): that it is an array of tables, say, or that its table has a heading. These decide
what a second statement for the key finds.
-/

namespace InterfaceCheck.Toml

/-! ## Tables at the end of a path -/

/-- The table that a path enters at a node: the table itself, or the last of an array of tables. -/
def Node.inner? : Node → Option (Table Node)
  | .table _ child => some child
  | .tables _ last => some last
  | _ => none

/-- The table at the end of a path. -/
def sub? : List String → Table Node → Option (Table Node)
  | [], t => some t
  | key :: path, t => ((t.get? key).bind (·.inner?)).bind (sub? path)

theorem sub?_empty (path : List String) : (sub? path .empty).getD .empty = .empty := by
  cases path <;> rfl

theorem sub?_insert_self (t : Table Node) (key : String) (path : List String) {node : Node}
    {child : Table Node} (h : node.inner? = some child) :
    sub? (key :: path) (t.insert key node) = sub? path child := by
  rw [sub?, Table.get?_insert_self, Option.bind_some, h, Option.bind_some]

/-- What statements may make of a node that is there: a table stays a table, and one that a heading
has opened stays that; an array of tables stays one. -/
inductive Node.Becomes : Node → Node → Prop where
  | table {origin origin' : Origin} {child child' : Table Node} :
      (origin' = .passed → origin = .passed) → Becomes (.table origin child) (.table origin' child')
  | tables (earlier earlier' : List (Table Node)) (last last' : Table Node) :
      Becomes (.tables earlier last) (.tables earlier' last')

/-- How a table is changed at the end of a path. Either the path ends here, or the table is changed
in what its first key leads to. -/
theorem update?_cases {byDottedKey : Bool} {change : Origin → Table Node → Option (Table Node)}
    {path : List String} {origin : Origin} {t t' : Table Node}
    (h : update? byDottedKey change path origin t = some t') :
    (path = [] ∧ change origin t = some t') ∨
    ∃ key rest origin' child child' node, path = key :: rest ∧
      ((t.get? key = none ∧ child = .empty) ∨
        ∃ old, t.get? key = some old ∧ old.inner? = some child ∧ old.Becomes node) ∧
      update? byDottedKey change rest origin' child = some child' ∧
      node.inner? = some child' ∧ t' = t.insert key node := by
  cases path with
  | nil => exact .inl ⟨rfl, h⟩
  | cons key rest =>
    right
    unfold update? at h
    split at h
    case h_1 hget =>
      obtain ⟨child', hchild', rfl⟩ := Option.map_eq_some_iff.mp h
      exact ⟨key, rest, _, _, child', _, rfl, .inl ⟨hget, rfl⟩, hchild', rfl, rfl⟩
    case h_2 origin' child hget =>
      split at h
      · cases h
      · obtain ⟨child', hchild', rfl⟩ := Option.map_eq_some_iff.mp h
        have horigin : (if byDottedKey then Origin.dotted else origin') = .passed →
            origin' = .passed := by
          cases byDottedKey
          · exact id
          · exact nofun
        exact ⟨key, rest, _, child, child', _, rfl, .inr ⟨_, hget, rfl, .table horigin⟩, hchild',
          rfl, rfl⟩
    case h_3 earlier last hget =>
      obtain ⟨child', hchild', rfl⟩ := Option.map_eq_some_iff.mp h
      exact ⟨key, rest, _, last, child', _, rfl, .inr ⟨_, hget, rfl, .tables ..⟩, hchild', rfl, rfl⟩
    case h_4 => cases h

/-- What is changed is the table at the end of the path, or an empty one if there is none. -/
theorem sub?_of_update? {byDottedKey : Bool} {change : Origin → Table Node → Option (Table Node)}
    {path : List String} {origin : Origin} {t t' : Table Node}
    (h : update? byDottedKey change path origin t = some t') :
    ∃ origin' changed, change origin' ((sub? path t).getD .empty) = some changed ∧
      sub? path t' = some changed := by
  induction path generalizing origin t t' with
  | nil => exact ⟨origin, t', h, rfl⟩
  | cons key rest ih =>
    rcases update?_cases h with ⟨hnil, -⟩ |
      ⟨key', rest', origin', child, child', node, hpath, hchild, hupdate, hnode, rfl⟩
    · cases hnil
    · obtain ⟨rfl, rfl⟩ := List.cons.inj hpath
      obtain ⟨origin'', changed, hchange, hsub⟩ := ih hupdate
      refine ⟨origin'', changed, ?_, (sub?_insert_self t key rest hnode).trans hsub⟩
      rcases hchild with ⟨hget, rfl⟩ | ⟨old, hget, hinner, -⟩
      · rw [sub?, hget]
        rwa [sub?_empty] at hchange
      · rw [sub?, hget, Option.bind_some, hinner]
        exact hchange

/-! ## Headings -/

def Node.IsTables (node : Node) : Prop := ∃ earlier last, node = .tables earlier last

/-- Whether the node is a table that headings have only passed through. -/
def Node.IsPassed (node : Node) : Prop := ∃ child, node = .table .passed child

theorem head?_cases {d d' : Draft} {path : List String}
    {start? : String → Table Node → Option (Table Node)} (h : d.head? path start? = some d') :
    ∃ key, path.getLast? = some key ∧ ∃ root,
      update? false (fun _ entries => start? key entries) path.dropLast .heading d.root =
        some root ∧
      d' = ⟨root, path⟩ := by
  unfold Draft.head? at h
  split at h
  · cases h
  case h_2 key hlast =>
    obtain ⟨root, hroot, rfl⟩ := Option.map_eq_some_iff.mp h
    exact ⟨key, hlast, root, hroot, rfl⟩

/-- A heading opens a table that is new or has only been passed through. -/
theorem openTable?_cases {key : String} {t t' : Table Node} (h : openTable? key t = some t') :
    (∀ node, t.get? key = some node → node.IsPassed) ∧
      ∃ node, t' = t.insert key node ∧ ¬ node.IsTables ∧ ¬ node.IsPassed := by
  unfold openTable? at h
  split at h
  case h_1 hget =>
    obtain rfl := Option.some.inj h
    exact ⟨fun node hnode => (nomatch hget.symm.trans hnode), _, rfl, nofun, nofun⟩
  case h_2 child hget =>
    obtain rfl := Option.some.inj h
    refine ⟨fun node hnode => ⟨child, ?_⟩, _, rfl, nofun, nofun⟩
    exact Option.some.inj (hnode.symm.trans hget)
  case h_3 => cases h

/-- An element comes to an array of tables that is new or has elements. -/
theorem addElement?_cases {key : String} {t t' : Table Node} (h : addElement? key t = some t') :
    (∀ node, t.get? key = some node → node.IsTables) ∧
      ∃ node, t' = t.insert key node ∧ node.IsTables := by
  unfold addElement? at h
  split at h
  case h_1 hget =>
    obtain rfl := Option.some.inj h
    exact ⟨fun node hnode => (nomatch hget.symm.trans hnode), _, rfl, _, _, rfl⟩
  case h_2 earlier last hget =>
    obtain rfl := Option.some.inj h
    refine ⟨fun node hnode => ⟨earlier, last, ?_⟩, _, rfl, _, _, rfl⟩
    exact Option.some.inj (hnode.symm.trans hget)
  case h_3 => cases h

/-! ## Keys once -/

/-- A change that lists no key twice leaves none twice in the table above it. -/
theorem nodup_keys_update? {byDottedKey : Bool}
    {change : Origin → Table Node → Option (Table Node)}
    (hchange : ∀ origin t t', change origin t = some t' → t.keys.Nodup → t'.keys.Nodup)
    {path : List String} {origin : Origin} {t t' : Table Node}
    (h : update? byDottedKey change path origin t = some t') (ht : t.keys.Nodup) :
    t'.keys.Nodup := by
  rcases update?_cases h with ⟨-, h⟩ | ⟨key, rest, origin', child, child', node, -, -, -, -, rfl⟩
  · exact hchange origin t t' h ht
  · exact Table.nodup_keys_insert ht key node

theorem nodup_keys_assign? {path : List String} {node : Node} {t t' : Table Node}
    (h : assign? path node t = some t') (ht : t.keys.Nodup) : t'.keys.Nodup := by
  unfold assign? at h
  split at h
  · cases h
  · refine nodup_keys_update? (fun origin u u' hu hnodup => ?_) h ht
    split at hu
    · cases hu
    · cases hu
      exact Table.nodup_keys_insert hnodup _ _

/-- A heading inserts into a table, whatever stands there. -/
theorem nodup_keys_head? {d d' : Draft} {path : List String}
    {start? : String → Table Node → Option (Table Node)}
    (hstart : ∀ key t t', start? key t = some t' → ∃ node, t' = t.insert key node)
    (h : d.head? path start? = some d') (hd : d.root.keys.Nodup) : d'.root.keys.Nodup := by
  obtain ⟨key, -, root, hroot, rfl⟩ := head?_cases h
  refine nodup_keys_update? (fun origin t t' ht hnodup => ?_) hroot hd
  obtain ⟨node, rfl⟩ := hstart _ t t' ht
  exact Table.nodup_keys_insert hnodup _ node

/-- A statement leaves no key twice in the table of the document. -/
theorem nodup_keys_add? {d d' : Draft} {s : Statement} (h : d.add? s = some d')
    (hd : d.root.keys.Nodup) : d'.root.keys.Nodup := by
  cases s with
  | table path =>
    refine nodup_keys_head? (fun key t t' ht => ?_) h hd
    obtain ⟨-, node, hnode, -⟩ := openTable?_cases ht
    exact ⟨node, hnode⟩
  | element path =>
    refine nodup_keys_head? (fun key t t' ht => ?_) h hd
    obtain ⟨-, node, hnode, -⟩ := addElement?_cases ht
    exact ⟨node, hnode⟩
  | assign path literal =>
    obtain ⟨node, -, h⟩ := Option.bind_eq_some_iff.mp h
    obtain ⟨root, hroot, rfl⟩ := Option.map_eq_some_iff.mp h
    exact nodup_keys_update? (fun _ _ _ => nodup_keys_assign?) hroot hd

theorem nodup_keys_addAll {statements : List Statement} {d d' : Draft}
    (h : statements.foldlM Draft.add? d = some d') (hd : d.root.keys.Nodup) :
    d'.root.keys.Nodup := by
  induction statements generalizing d with
  | nil =>
    cases h
    exact hd
  | cons s rest ih =>
    obtain ⟨next, hnext, h⟩ := Option.bind_eq_some_iff.mp h
    exact ih h (nodup_keys_add? hnext hd)

/-- **The table of a document lists no key twice.** -/
theorem nodup_keys_of_parse? {document : String} {t : Table Node}
    (h : parse? document = some t) : t.keys.Nodup := by
  obtain ⟨statements, -, h⟩ := Option.bind_eq_some_iff.mp h
  obtain ⟨d, hd, rfl⟩ := Option.map_eq_some_iff.mp h
  exact nodup_keys_addAll hd List.nodup_nil

/-! ## What stays -/

/-- `Holds P above key t`: the table at the end of `above` binds `key`, to a node with `P`. -/
def Holds (P : Node → Prop) (above : List String) (key : String) (t : Table Node) : Prop :=
  ∃ child node, sub? above t = some child ∧ child.get? key = some node ∧ P node

/-- `Keeps P keep t t'`: what has `P` in `t` has it in `t'`, at the end of the paths in `keep`. -/
def Keeps (P : Node → Prop) (keep : List String → Prop) (t t' : Table Node) : Prop :=
  ∀ above key, keep above → Holds P above key t → Holds P above key t'

theorem Holds.mono {P Q : Node → Prop} (hPQ : ∀ node, P node → Q node) {above : List String}
    {key : String} {t : Table Node} (h : Holds P above key t) : Holds Q above key t := by
  obtain ⟨child, node, hsub, hget, hnode⟩ := h
  exact ⟨child, node, hsub, hget, hPQ node hnode⟩

/-- What is held after an insertion: what the key was bound to must not lose anything. -/
theorem Holds.insert {P : Node → Prop} {above : List String} {k key : String} {t : Table Node}
    {node : Node} (h : Holds P above k t)
    (hself : ∀ old, t.get? key = some old → P old → P node)
    (hinner : ∀ old child rest, above = key :: rest → t.get? key = some old →
      old.inner? = some child → Holds P rest k child →
      ∃ child', node.inner? = some child' ∧ Holds P rest k child') :
    Holds P above k (t.insert key node) := by
  obtain ⟨child, bound, hsub, hget, hbound⟩ := h
  cases above with
  | nil =>
    obtain rfl := Option.some.inj hsub
    by_cases hk : k = key
    · subst hk
      exact ⟨_, node, rfl, Table.get?_insert_self t k node, hself bound hget hbound⟩
    · exact ⟨_, bound, rfl, (Table.get?_insert_of_ne t hk node).trans hget, hbound⟩
  | cons first rest =>
    by_cases hfirst : first = key
    · subst hfirst
      obtain ⟨below, hbelow, hrest⟩ := Option.bind_eq_some_iff.mp hsub
      obtain ⟨old, hold, hin⟩ := Option.bind_eq_some_iff.mp hbelow
      obtain ⟨below', hbelow', child', node', hsub', hnode'⟩ :=
        hinner old below rest rfl hold hin ⟨child, bound, hrest, hget, hbound⟩
      exact ⟨child', node', (sub?_insert_self t first rest hbelow').trans hsub', hnode'⟩
    · exact ⟨child, bound, by rwa [sub?, Table.get?_insert_of_ne t hfirst], hget, hbound⟩

/-- A new key takes nothing away. -/
theorem keeps_insert_of_none {P : Node → Prop} {keep : List String → Prop} {t : Table Node}
    {key : String} (hkey : t.get? key = none) (node : Node) :
    Keeps P keep t (t.insert key node) := by
  intro above k _ h
  refine h.insert (fun old hold => ?_) fun old _ _ _ hold => ?_
  · cases hkey.symm.trans hold
  · cases hkey.symm.trans hold

section
variable {P : Node → Prop} (hP : ∀ {a b : Node}, a.Becomes b → P a → P b)
include hP

/-- What a change keeps below the end of a path is kept in the table above it. -/
theorem keeps_of_update? {keep : List String → Prop} {byDottedKey : Bool}
    {change : Origin → Table Node → Option (Table Node)}
    (hchange : ∀ origin t t', change origin t = some t' → Keeps P keep t t')
    {path : List String} {origin : Origin} {t t' : Table Node}
    (h : update? byDottedKey change path origin t = some t') :
    Keeps P (fun above => ∀ rest, above = path ++ rest → keep rest) t t' := by
  induction path generalizing origin t t' with
  | nil => exact fun above key hkeep => hchange origin t t' h above key (hkeep above rfl)
  | cons first path ih =>
    rcases update?_cases h with ⟨hnil, -⟩ |
      ⟨first', path', origin', child, child', node, hpath, hchild, hupdate, hnode, rfl⟩
    · cases hnil
    · obtain ⟨rfl, rfl⟩ := List.cons.inj hpath
      rcases hchild with ⟨hnone, -⟩ | ⟨old, hold, hinner, hbecomes⟩
      · exact keeps_insert_of_none hnone node
      · intro above key hkeep hholds
        refine hholds.insert (fun old' hold' => ?_)
          fun old' below rest habove hold' hinner' h' => ?_
        · obtain rfl := Option.some.inj (hold.symm.trans hold')
          exact hP hbecomes
        · obtain rfl := Option.some.inj (hold.symm.trans hold')
          obtain rfl := Option.some.inj (hinner.symm.trans hinner')
          refine ⟨child', hnode, ih hupdate rest key (fun rest' hrest => ?_) h'⟩
          exact hkeep rest' (by rw [habove, hrest, List.cons_append])

/-- An assignment takes nothing away. -/
theorem keeps_of_assign? {path : List String} {node : Node} {t t' : Table Node}
    (h : assign? path node t = some t') : Keeps P (fun _ => True) t t' := by
  unfold assign? at h
  split at h
  · cases h
  · have hkeeps : Keeps P (fun above => ∀ rest, above = path.dropLast ++ rest → True) t t' := by
      refine keeps_of_update? hP (fun origin u u' hu => ?_) h
      split at hu
      · cases hu
      case isFalse hguard =>
        obtain rfl := Option.some.inj hu
        rw [not_or, Table.contains_iff] at hguard
        exact keeps_insert_of_none (Table.get?_eq_none_iff.mpr hguard.2) node
    exact fun above key _ => hkeeps above key fun _ _ => trivial

end

/-! ## Assignments -/

/-- What an assignment does where its path ends: it binds a key that is not bound yet. -/
theorem assign?_cases {path : List String} {node : Node} {t t' : Table Node}
    (h : assign? path node t = some t') :
    ∃ above key, path = above ++ [key] ∧ ¬ Holds (fun _ => True) above key t ∧
      Holds (· = node) above key t' := by
  unfold assign? at h
  split at h
  · cases h
  case h_2 key hlast =>
    obtain ⟨above, rfl⟩ := List.getLast?_eq_some_iff.mp hlast
    rw [List.dropLast_concat] at h
    obtain ⟨origin, changed, hchanged, hsub⟩ := sub?_of_update? h
    split at hchanged
    · cases hchanged
    case isFalse hguard =>
      obtain rfl := Option.some.inj hchanged
      refine ⟨above, key, rfl, ?_, _, node, hsub, Table.get?_insert_self _ key node, rfl⟩
      rintro ⟨child, old, hchild, hget, -⟩
      rw [hchild, not_or, Table.contains_iff, ← Table.get?_eq_none_iff] at hguard
      exact absurd (hguard.2.symm.trans hget) nofun

/-- A path that leads to a bound key is not assigned to again. -/
theorem not_mem_of_bound {above : List String} {key : String}
    {assignments : List (List String × Node)} {t t' : Table Node}
    (hbound : Holds (fun _ => True) above key t)
    (h : assignments.foldlM (fun entries a => assign? a.1 a.2 entries) t = some t') :
    above ++ [key] ∉ assignments.map (·.1) := by
  induction assignments generalizing t with
  | nil => exact List.not_mem_nil
  | cons a rest ih =>
    obtain ⟨next, hnext, h⟩ := Option.bind_eq_some_iff.mp h
    obtain ⟨above', key', hpath, hnew, -⟩ := assign?_cases hnext
    rw [List.map_cons, List.mem_cons, not_or]
    refine ⟨fun heq => ?_, ih (keeps_of_assign? (fun _ => id) hnext above key trivial hbound) h⟩
    obtain ⟨rfl, hkey⟩ := List.append_inj' (heq.trans hpath) rfl
    cases hkey
    exact hnew hbound

/-- Assignments to one table go to different paths. -/
theorem nodup_of_assignAll {assignments : List (List String × Node)} {t t' : Table Node}
    (h : assignments.foldlM (fun entries a => assign? a.1 a.2 entries) t = some t') :
    (assignments.map (·.1)).Nodup := by
  induction assignments generalizing t with
  | nil => exact List.nodup_nil
  | cons a rest ih =>
    obtain ⟨next, hnext, h⟩ := Option.bind_eq_some_iff.mp h
    obtain ⟨above, key, hpath, -, hholds⟩ := assign?_cases hnext
    have hfresh := not_mem_of_bound (hholds.mono fun _ _ => trivial) h
    rw [← hpath] at hfresh
    exact List.nodup_cons.mpr ⟨hfresh, ih h⟩

theorem map_fst_of_assignments? :
    ∀ {fields : List (List String × Literal)} {assignments : List (List String × Node)},
      assignments? fields = some assignments → assignments.map (·.1) = fields.map (·.1)
  | [], _, h => by
    cases h
    rfl
  | (path, l) :: rest, _, h => by
    obtain ⟨node, -, h⟩ := Option.bind_eq_some_iff.mp h
    obtain ⟨assignments, hrest, rfl⟩ := Option.map_eq_some_iff.mp h
    rw [List.map_cons, List.map_cons, map_fst_of_assignments? hrest]

theorem exists_node_of_nodes? :
    ∀ {items : List Literal} {nodes : List Node}, nodes? items = some nodes →
      ∀ l ∈ items, ∃ node, l.node? = some node
  | l :: rest, _, h, l', hl => by
    obtain ⟨node, hnode, h⟩ := Option.bind_eq_some_iff.mp h
    obtain ⟨nodes, hrest, rfl⟩ := Option.map_eq_some_iff.mp h
    rcases List.mem_cons.mp hl with rfl | hl
    · exact ⟨node, hnode⟩
    · exact exists_node_of_nodes? hrest l' hl

theorem exists_node_of_assignments? :
    ∀ {fields : List (List String × Literal)} {assignments : List (List String × Node)},
      assignments? fields = some assignments → ∀ f ∈ fields, ∃ node, f.2.node? = some node
  | (path, l) :: rest, _, h, f, hf => by
    obtain ⟨node, hnode, h⟩ := Option.bind_eq_some_iff.mp h
    obtain ⟨assignments, hrest, rfl⟩ := Option.map_eq_some_iff.mp h
    rcases List.mem_cons.mp hf with rfl | hf
    · exact ⟨node, hnode⟩
    · exact exists_node_of_assignments? hrest f hf

/-- Somewhere in a value an inline table assigns to a path twice. -/
inductive Literal.RepeatsKey : Literal → Prop where
  | here {fields : List (List String × Literal)} :
      ¬ (fields.map (·.1)).Nodup → RepeatsKey (.inlineTable fields)
  | item {items : List Literal} {l : Literal} :
      l ∈ items → RepeatsKey l → RepeatsKey (.array items)
  | field {fields : List (List String × Literal)} {f : List String × Literal} :
      f ∈ fields → RepeatsKey f.2 → RepeatsKey (.inlineTable fields)

/-- Such a value denotes nothing. -/
theorem Literal.RepeatsKey.node? {l : Literal} (h : l.RepeatsKey) : l.node? = none := by
  refine Option.eq_none_iff_forall_ne_some.mpr fun node hnode => ?_
  induction h generalizing node with
  | here hrepeats =>
    obtain ⟨t, ht, -⟩ := Option.map_eq_some_iff.mp hnode
    obtain ⟨assignments, hassignments, ht⟩ := Option.bind_eq_some_iff.mp ht
    have hnodup := nodup_of_assignAll ht
    rw [map_fst_of_assignments? hassignments] at hnodup
    exact hrepeats hnodup
  | item hl _ ih =>
    obtain ⟨nodes, hnodes, -⟩ := Option.map_eq_some_iff.mp hnode
    obtain ⟨node', hnode'⟩ := exists_node_of_nodes? hnodes _ hl
    exact ih node' hnode'
  | field hf _ ih =>
    obtain ⟨t, ht, -⟩ := Option.map_eq_some_iff.mp hnode
    obtain ⟨assignments, hassignments, -⟩ := Option.bind_eq_some_iff.mp ht
    obtain ⟨node', hnode'⟩ := exists_node_of_assignments? hassignments _ hf
    exact ih node' hnode'

/-! ## Defining twice -/

/-- The path of the heading above the next statement. -/
def Statement.heading (above : List String) : Statement → List String
  | .table path | .element path => path
  | .assign _ _ => above

/-- The path of the key that a statement defines under a heading. -/
def Statement.defines (above : List String) : Statement → List String
  | .table path | .element path => path
  | .assign path _ => above ++ path

/-- The path of the heading above what follows the statements. -/
def headingAfter (statements : List Statement) : List String :=
  statements.foldl Statement.heading []

def Statement.IsElement (s : Statement) : Prop := ∃ path, s = .element path

/-- Somewhere in a document a key is defined twice. -/
inductive RepeatsKey : List Statement → Prop where
  /-- Two statements define a key with the same path. They are not two elements of an array of
  tables, and no element of an array on the path begins between them. -/
  | twice {before between after : List Statement} {s s' : Statement} :
      s.defines (headingAfter before) = s'.defines (headingAfter (before ++ s :: between)) →
      ¬ (s.IsElement ∧ s'.IsElement) →
      (∀ path, .element path ∈ between → path <+: s.defines (headingAfter before) →
        path = s.defines (headingAfter before)) →
      RepeatsKey (before ++ s :: between ++ s' :: after)
  | inValue {statements : List Statement} {path : List String} {l : Literal} :
      .assign path l ∈ statements → l.RepeatsKey → RepeatsKey statements

end InterfaceCheck.Toml
