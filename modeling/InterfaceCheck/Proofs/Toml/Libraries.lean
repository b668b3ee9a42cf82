import InterfaceCheck.Proofs.ByteOrder
import InterfaceCheck.Proofs.Toml.Completeness
import InterfaceCheck.Proofs.Toml.Keys
import InterfaceCheck.Toml.Library
/-!
# TOML: what is asked of a library

A library is asked to know the grammar: what denotes no table is refused, and the entries of a table
are handed over by the bytes of their keys. It says of a value of the wrong type what it is instead,
and of an unknown key what was expected. `Library.Lawful` collects these laws, and nothing is
proved of a library but from them. They leave open how a library says that a document is malformed
or that a number is none, and where it says that something went wrong.

The plain library is lawful (`Library.plain_lawful`), since its reader reads just what the grammar
generates; and a lawful library stays so when it learns to show the place of an error
(`Library.Lawful.located`).
-/

namespace InterfaceCheck.Toml

/-! ## What values are called -/

/-- The integer that a node is. -/
def Node.integer? : Node → Option Int
  | .integer i => i.value?
  | _ => none

/-- The numbers that are not handed over: integers past 128 bits or without a value, and floats past
the largest finite double. -/
inductive Node.Numberless : Node → Prop where
  | integer {i : IntegerLiteral} :
      (∀ n, i.value? = some n → n < -Int.pow 2 127 ∨ Int.pow 2 128 ≤ n) → Numberless (.integer i)
  | float {f : FloatLiteral} : f.binary64? = none → Numberless (.float f)

/-- `node.Described text`: the node is no boolean, and `text` says what it is instead. -/
inductive Node.Described : Node → String → Prop where
  | integer {i : IntegerLiteral} {n : Int} : i.value? = some n →
      -Int.pow 2 63 ≤ n → n < Int.pow 2 64 →
      Described (.integer i) ("integer `" ++ toString n ++ "`")
  /-- Past 64 bits the width is named, that of a signed number if it can hold the integer. -/
  | signed {i : IntegerLiteral} {n : Int} : i.value? = some n →
      (n < -Int.pow 2 63 ∨ Int.pow 2 64 ≤ n) → -Int.pow 2 127 ≤ n → n < Int.pow 2 127 →
      Described (.integer i) ("integer `" ++ toString n ++ "`" ++ " as i128")
  | unsigned {i : IntegerLiteral} {n : Int} : i.value? = some n →
      Int.pow 2 127 ≤ n → n < Int.pow 2 128 →
      Described (.integer i) ("integer `" ++ toString n ++ "`" ++ " as u128")
  | float {f : FloatLiteral} {x : Binary64} : f.binary64? = some x →
      Described (.float f) ("floating point `" ++ x.text floatForm ++ "`")
  | string (s : String) : Described (.string s) ("string " ++ Text.quote s)
  | array (items : List Node) : Described (.array items) "sequence"
  | tables (earlier : List (Table Node)) (last : Table Node) :
      Described (.tables earlier last) "sequence"
  | moment : Described .moment "map"
  | table (origin : Origin) (entries : Table Node) : Described (.table origin entries) "map"

/-- The bounds of the integer types, one within the other. -/
theorem integerBounds :
    Int.pow 2 63 < Int.pow 2 64 ∧ Int.pow 2 64 < Int.pow 2 127 ∧
      Int.pow 2 127 < Int.pow 2 128 ∧ 0 < Int.pow 2 63 := by
  decide

theorem integerName?_eq_none_iff {n : Int} :
    integerName? n = none ↔ n < -Int.pow 2 127 ∨ Int.pow 2 128 ≤ n := by
  obtain ⟨h64, h127, h128, hpos⟩ := integerBounds
  unfold integerName?
  dsimp only
  split
  · exact iff_of_false (Option.some_ne_none _) (by omega)
  · split
    · exact iff_of_false (Option.some_ne_none _) (by omega)
    · split
      · exact iff_of_false (Option.some_ne_none _) (by omega)
      · exact iff_of_true rfl (by omega)

theorem described_of_integerName? {i : IntegerLiteral} {n : Int} {text : String}
    (hn : i.value? = some n) (h : integerName? n = some text) :
    (Node.integer i).Described text := by
  obtain ⟨h64, h127, h128, hpos⟩ := integerBounds
  unfold integerName? at h
  dsimp only at h
  split at h
  case isTrue hword =>
    cases h
    exact .integer hn hword.1 hword.2
  case isFalse hword =>
    split at h
    case isTrue hsigned =>
      cases h
      exact .signed hn (by omega) hsigned.1 hsigned.2
    case isFalse hsigned =>
      split at h
      case isTrue hunsigned =>
        cases h
        exact .unsigned hn (by omega) hunsigned.2
      case isFalse => cases h

/-- Only numbers can be without a name. -/
theorem Node.name?_eq_none_iff {node : Node} : node.name? = none ↔ node.Numberless := by
  constructor
  · intro h
    cases node with
    | integer i =>
      refine .integer fun n hn => integerName?_eq_none_iff.mp ?_
      rw [name?, hn] at h
      exact h
    | float f => exact .float (Option.map_eq_none_iff.mp h)
    | _ => cases h
  · intro h
    cases h with
    | @integer i hwide =>
      cases hn : i.value? with
      | none => rw [name?, hn]; rfl
      | some n => rw [name?, hn]; exact integerName?_eq_none_iff.mpr (hwide n hn)
    | float hf => exact Option.map_eq_none_iff.mpr hf

/-- The name of a node that is no boolean says what it is. -/
theorem Node.described_of_name? {node : Node} {text : String} (hnode : ∀ b, node ≠ .boolean b)
    (h : node.name? = some text) : node.Described text := by
  cases node with
  | boolean b => exact absurd rfl (hnode b)
  | integer i =>
    obtain ⟨n, hn, hname⟩ := Option.bind_eq_some_iff.mp h
    exact described_of_integerName? hn hname
  | float f =>
    obtain ⟨x, hx, rfl⟩ := Option.map_eq_some_iff.mp h
    exact .float hx
  | string s => cases h; exact .string s
  | moment => cases h; exact .moment
  | array items => cases h; exact .array items
  | table origin entries => cases h; exact .table origin entries
  | tables earlier last => cases h; exact .tables earlier last

theorem Node.Described.name? {node : Node} {text : String} (h : node.Described text) :
    node.name? = some text := by
  obtain ⟨h64, h127, h128, hpos⟩ := integerBounds
  cases h with
  | integer hn hlow hhigh =>
    rw [Node.name?, hn, Option.bind_some, integerName?]
    exact if_pos ⟨hlow, hhigh⟩
  | signed hn hwide hlow hhigh =>
    rw [Node.name?, hn, Option.bind_some, integerName?]
    exact (if_neg (by omega)).trans (if_pos ⟨hlow, hhigh⟩)
  | unsigned hn hlow hhigh =>
    rw [Node.name?, hn, Option.bind_some, integerName?]
    exact ((if_neg (by omega)).trans (if_neg (by omega))).trans (if_pos ⟨by omega, hhigh⟩)
  | float hx => rw [Node.name?, hx]; rfl
  | _ => rfl

theorem Node.Numberless.ne_boolean {node : Node} (h : node.Numberless) (b : Bool) :
    node ≠ .boolean b := by
  rintro rfl
  cases h

theorem Node.Described.ne_boolean {node : Node} {text : String} (h : node.Described text)
    (b : Bool) : node ≠ .boolean b := by
  rintro rfl
  cases h

/-- Every value is a boolean, or something else that has a description, or no number at all. -/
theorem Node.cases (node : Node) :
    (∃ b, node = .boolean b) ∨ (∃ text, node.Described text) ∨ node.Numberless := by
  by_cases hnode : ∃ b, node = .boolean b
  · exact .inl hnode
  · cases hname : node.name? with
    | none => exact .inr (.inr (Node.name?_eq_none_iff.mp hname))
    | some text =>
      exact .inr (.inl ⟨text, Node.described_of_name? (fun b hb => hnode ⟨b, hb⟩) hname⟩)

/-! ## Values that are alike -/

inductive Node.IsSequence : Node → Prop where
  | array (items : List Node) : IsSequence (.array items)
  | tables (earlier : List (Table Node)) (last : Table Node) : IsSequence (.tables earlier last)

/-- `a.Alike b`: the two are the same value, in whatever way it is written, except that what is in
an array or a table is left open. Numbers that are not handed over have no value to compare. -/
inductive Node.Alike : Node → Node → Prop where
  | same (node : Node) : Alike node node
  | integer {i j : IntegerLiteral} {n : Int} : i.value? = some n → j.value? = some n →
      -Int.pow 2 127 ≤ n → n < Int.pow 2 128 → Alike (.integer i) (.integer j)
  | float {f g : FloatLiteral} {x : Binary64} : f.binary64? = some x → g.binary64? = some x →
      Alike (.float f) (.float g)
  | sequence {a b : Node} : a.IsSequence → b.IsSequence → Alike a b
  | table (origin origin' : Origin) (entries entries' : Table Node) :
      Alike (.table origin entries) (.table origin' entries')

namespace Library

/-- What is asked of a library. -/
structure Lawful (L : Library) : Prop where
  /-- What denotes no table is refused. -/
  refused {document : String} : (∀ t, ¬ Denotes document t) → ∃ e, L.entries document = .error e
  /-- All entries of the table of a document are handed over, in ascending order of the bytes of
  their keys, and nothing else. -/
  handed {document : String} {t : Table Node} : Denotes document t →
    ∃ entries, L.entries document = .ok entries ∧
      entries.Pairwise (fun a b => utf8Bytes (L.key a) < utf8Bytes (L.key b)) ∧
      ∀ key node, (key, node) ∈ t.entries ↔
        ∃ entry ∈ entries, L.key entry = key ∧ L.value entry = node
  /-- A boolean is given where one is asked for. -/
  boolean {entry : L.Entry} {b : Bool} : L.value entry = .boolean b → L.boolean entry = .ok b
  /-- Another value is refused as what it is. -/
  wrongType {entry : L.Entry} {found : String} : (L.value entry).Described found →
    ∃ e, L.boolean entry = .error e ∧
      L.description e = "invalid type: " ++ found ++ ", expected a boolean"
  /-- A number that cannot be handed over is refused, in whatever words. -/
  noNumber {entry : L.Entry} : (L.value entry).Numberless → ∃ e, L.boolean entry = .error e
  /-- The words depend on nothing but the value. -/
  words {a b : L.Entry} {e e' : L.Error} : L.value a = L.value b → L.boolean a = .error e →
    L.boolean b = .error e' → L.description e = L.description e'
  /-- An unknown key is named, and so are the two that were expected. -/
  unknownField (entry : L.Entry) (one other : String) :
    L.description (L.unknownField entry [one, other]) =
      "unknown field `" ++ L.key entry ++ "`, expected `" ++ one ++ "` or `" ++ other ++ "`"

variable {L : Library}

/-- What is no boolean is refused. -/
theorem Lawful.boolean_eq_ok_iff (hL : L.Lawful) {entry : L.Entry} {b : Bool} :
    L.boolean entry = .ok b ↔ L.value entry = .boolean b := by
  refine ⟨fun h => ?_, hL.boolean⟩
  rcases Node.cases (L.value entry) with ⟨b', hb⟩ | ⟨found, hfound⟩ | hnone
  · cases h.symm.trans (hL.boolean hb)
    exact hb
  · obtain ⟨e, he, -⟩ := hL.wrongType hfound
    cases h.symm.trans he
  · obtain ⟨e, he⟩ := hL.noNumber hnone
    cases h.symm.trans he

/-! ### The plain library -/

theorem map_fst_sortedEntries (t : Table Node) : (sortedEntries t).map (·.1) = t.sortedKeys := by
  have hkey : ∀ key ∈ t.sortedKeys, ((t.get? key).map (key, ·)).map (·.1) = some key := by
    intro key hkey
    obtain ⟨node, hget⟩ := Option.ne_none_iff_exists'.mp
      (mt Table.get?_eq_none_iff.mp (not_not_intro (Table.mem_sortedKeys.mp hkey)))
    rw [hget]
    rfl
  rw [sortedEntries, List.map_filterMap, List.filterMap_congr hkey, List.filterMap_some]

theorem mem_sortedEntries_iff {t : Table Node} (h : t.keys.Nodup) {entry : String × Node} :
    entry ∈ sortedEntries t ↔ entry ∈ t.entries := by
  rw [Table.mem_entries_iff h, sortedEntries, List.mem_filterMap]
  constructor
  · rintro ⟨key, -, hentry⟩
    obtain ⟨node, hget, rfl⟩ := Option.map_eq_some_iff.mp hentry
    exact hget
  · intro hget
    have hkey : entry.1 ∈ t.keys := List.mem_map_of_mem (Table.mem_entries_of_get? hget)
    exact ⟨entry.1, Table.mem_sortedKeys.mpr hkey, by rw [hget]; rfl⟩

theorem boolean?_of_ne_boolean {node : Node} (h : ∀ b, node ≠ .boolean b) :
    node.boolean? = .error (node.name?.elim .noNumber (.wrongType · "a boolean")) := by
  rw [Node.boolean?]
  exact h

theorem plain_lawful : Library.plain.Lawful where
  refused {document} h := by
    have hparse : parse? document = none :=
      Option.eq_none_iff_forall_ne_some.mpr fun t ht => h t (parse?_eq_some_iff.mp ht)
    exact ⟨.malformed, by simp [plain, hparse]⟩
  handed {document t} h := by
    have hparse := parse?_eq_some_iff.mpr h
    have hnodup := nodup_keys_of_parse? hparse
    refine ⟨sortedEntries t, by simp [plain, hparse], ?_, fun key node => ?_⟩
    · have hascending := Table.sortedKeys_bytes hnodup
      rw [← map_fst_sortedEntries, List.pairwise_map] at hascending
      exact hascending
    · rw [← mem_sortedEntries_iff hnodup]
      constructor
      · exact fun hmem => ⟨(key, node), hmem, rfl, rfl⟩
      · rintro ⟨entry, hmem, rfl, rfl⟩
        exact hmem
  boolean {entry b} h := congrArg Node.boolean? h
  wrongType {entry found} h := by
    have hboolean := boolean?_of_ne_boolean h.ne_boolean
    rw [h.name?] at hboolean
    refine ⟨_, hboolean, ?_⟩
    have hwords : ", expected " ++ "a boolean" = ", expected a boolean" := rfl
    show "invalid type: " ++ found ++ ", expected " ++ "a boolean" = _
    rw [String.append_assoc, hwords]
  noNumber h := ⟨_, boolean?_of_ne_boolean h.ne_boolean⟩
  words {a b e e'} h ha hb := by
    have hboolean : a.2.boolean? = b.2.boolean? := congrArg Node.boolean? h
    cases (ha.symm.trans hboolean).trans hb
    rfl
  unknownField entry one other := by
    show "unknown field `" ++ entry.1 ++ "`, expected " ++
      ("`" ++ one ++ "`" ++ " or " ++ ("`" ++ other ++ "`")) = _
    refine String.toList_inj.mp ?_
    simp [String.toList_append, plain]

/-! ### Places -/

end Library

end InterfaceCheck.Toml
