/-!
# Ordered tables

A `Table` binds string keys to values and remembers the order in which its keys came. It is the
one table of this library: the entries of a map, the members of a class, the fields of an
instance, the samples of an interface and the bindings of a registry are all tables.

`insert` gives a new key the last place and leaves a known key where it stands, so a table lists
its keys in the order of their first insertion, each bound to the value inserted last.
-/

namespace InterfaceCheck

universe u

/-- What a write to a table did to its key. -/
inductive Insertion where
  /-- The key was new. -/
  | added
  /-- The key was bound before. -/
  | replaced
deriving DecidableEq, Repr

/-- Values under string keys, in the order of the keys. -/
structure Table (α : Type u) where
  /-- The bindings in order. A table made by `insert` has each key once. -/
  entries : List (String × α)

namespace Table

variable {α : Type u}

/-- The table without keys. -/
def empty : Table α := ⟨[]⟩

instance : Inhabited (Table α) := ⟨empty⟩

/-- The keys in order. -/
def keys (t : Table α) : List String := t.entries.map (·.1)

/-- The values in the order of their keys. -/
def values (t : Table α) : List α := t.entries.map (·.2)

/-- The number of bindings. -/
def size (t : Table α) : Nat := t.entries.length

/-- The value under `key`. -/
def get? (t : Table α) (key : String) : Option α := t.entries.lookup key

/-- Whether `key` is bound. -/
def contains (t : Table α) (key : String) : Bool := (t.get? key).isSome

/-- Rebinds `key` where it stands, or adds it at the end. -/
def put (key : String) (value : α) : List (String × α) → List (String × α)
  | [] => [(key, value)]
  | (k, v) :: rest => if k = key then (key, value) :: rest else (k, v) :: put key value rest

/-- Binds `key` to `value`. A key that is already there keeps its place. -/
def insert (t : Table α) (key : String) (value : α) : Table α := ⟨put key value t.entries⟩

/-- What `insert` under `key` does to the table. -/
def insertion (t : Table α) (key : String) : Insertion :=
  if t.contains key then .replaced else .added

/-- Inserts the bindings one after the other. -/
def insertAll (t : Table α) (bindings : List (String × α)) : Table α :=
  bindings.foldl (fun t b => t.insert b.1 b.2) t

/-- The table that results from inserting `bindings` in order. -/
def ofList (bindings : List (String × α)) : Table α := empty.insertAll bindings

/-- The keys in ascending order. Strings compare by their characters' code points, which is also
the order of their UTF-8 bytes. -/
def sortedKeys (t : Table α) : List String := t.keys.mergeSort (fun a b => decide (a ≤ b))

/-! ### Lookup after an insertion -/

theorem lookup_put_self (key : String) (value : α) (l : List (String × α)) :
    (put key value l).lookup key = some value := by
  induction l with
  | nil => simp [put]
  | cons e l ih =>
    obtain ⟨k, v⟩ := e
    by_cases h : k = key
    · simp [put, h]
    · have : (key == k) = false := by simpa using fun e => h e.symm
      simp [put, h, List.lookup_cons, this, ih]

theorem lookup_put_of_ne {key other : String} (h : other ≠ key) (value : α)
    (l : List (String × α)) : (put key value l).lookup other = l.lookup other := by
  induction l with
  | nil =>
    have : (other == key) = false := by simpa using h
    simp [put, List.lookup_cons, this]
  | cons e l ih =>
    obtain ⟨k, v⟩ := e
    by_cases hk : k = key
    · subst hk
      have : (other == k) = false := by simpa using h
      simp [put, List.lookup_cons, this]
    · simp [put, hk, List.lookup_cons, ih]

@[simp] theorem get?_empty (key : String) : (empty : Table α).get? key = none := rfl

@[simp] theorem get?_insert_self (t : Table α) (key : String) (value : α) :
    (t.insert key value).get? key = some value :=
  lookup_put_self key value t.entries

theorem get?_insert_of_ne (t : Table α) {key other : String} (h : other ≠ key) (value : α) :
    (t.insert key value).get? other = t.get? other :=
  lookup_put_of_ne h value t.entries

/-! ### Keys after an insertion -/

theorem put_of_mem {key : String} {l : List (String × α)} (value : α)
    (h : key ∈ l.map (·.1)) : (put key value l).map (·.1) = l.map (·.1) := by
  induction l with
  | nil => simp at h
  | cons e l ih =>
    obtain ⟨k, v⟩ := e
    by_cases hk : k = key
    · simp [put, hk]
    · have : key ∈ l.map (·.1) := by
        simp only [List.map_cons, List.mem_cons] at h
        exact h.resolve_left fun e => hk e.symm
      simp [put, hk, ih this]

theorem put_of_not_mem {key : String} {l : List (String × α)} (value : α)
    (h : key ∉ l.map (·.1)) : put key value l = l ++ [(key, value)] := by
  induction l with
  | nil => rfl
  | cons e l ih =>
    obtain ⟨k, v⟩ := e
    simp only [List.map_cons, List.mem_cons, not_or] at h
    have hk : ¬k = key := fun e => h.1 e.symm
    simp [put, hk, ih h.2]

/-- A known key keeps its place. -/
theorem keys_insert_of_mem (t : Table α) {key : String} (value : α) (h : key ∈ t.keys) :
    (t.insert key value).keys = t.keys :=
  put_of_mem value h

/-- A new key comes last. -/
theorem keys_insert_of_not_mem (t : Table α) {key : String} (value : α) (h : key ∉ t.keys) :
    (t.insert key value).keys = t.keys ++ [key] := by
  simp [keys, insert, put_of_not_mem value h]

end Table

end InterfaceCheck
