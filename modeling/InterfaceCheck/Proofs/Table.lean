import InterfaceCheck.Table
/-!
# What a table remembers

A table that is made by inserting bindings one after the other remembers, of each key, the value
bound last and the place where the key came first. This file states the first half and what else
the clients of tables rely on:

- `get?_ofList_eq_some_iff`: the value under a key is that of its last binding (`Last`);
- `mem_keys_ofList`, `nodup_keys_ofList`: the keys are those bound, each once;
- `sortedKeys_pairwise`, `mem_sortedKeys`: the listing is strictly ascending and complete;
- `mem_values_insertAll`: a table holds no values but those put into it.
-/

namespace InterfaceCheck

universe u

namespace Table

variable {α : Type u}

/-! ## Lookup and keys -/

theorem get?_eq_none_iff {t : Table α} {key : String} : t.get? key = none ↔ key ∉ t.keys := by
  unfold get? keys
  rw [List.lookup_eq_none_iff]
  constructor
  · intro h hm
    obtain ⟨e, he, rfl⟩ := List.mem_map.mp hm
    simpa using h e he
  · intro h e he
    have hne : key ≠ e.1 := fun hk => h (hk ▸ List.mem_map_of_mem he)
    simpa using hne

theorem contains_iff {t : Table α} {key : String} : t.contains key = true ↔ key ∈ t.keys := by
  unfold contains
  rw [Option.isSome_iff_ne_none, ne_eq, get?_eq_none_iff, Decidable.not_not]

/-- What is found under a key is bound there. -/
theorem mem_entries_of_get? {t : Table α} {key : String} {value : α}
    (h : t.get? key = some value) : (key, value) ∈ t.entries := by
  obtain ⟨before, after, hl, -⟩ := List.lookup_eq_some_iff.mp h
  rw [hl]
  simp

/-- A value found under a key is among the values. -/
theorem mem_values_of_get? {t : Table α} {key : String} {value : α}
    (h : t.get? key = some value) : value ∈ t.values :=
  List.mem_map_of_mem (mem_entries_of_get? h)

/-- Where no key comes twice, the bindings are what lookups find. -/
theorem mem_entries_iff {t : Table α} (h : t.keys.Nodup) {e : String × α} :
    e ∈ t.entries ↔ t.get? e.1 = some e.2 := by
  refine ⟨fun he => ?_, mem_entries_of_get?⟩
  obtain ⟨before, after, hentries⟩ := List.append_of_mem he
  refine List.lookup_eq_some_iff.mpr ⟨before, after, hentries, fun e' he' => ?_⟩
  -- an earlier binding of the key would be a second one
  rw [keys, hentries, List.map_append, List.nodup_append] at h
  have hne : e.1 ≠ e'.1 :=
    (h.2.2 e'.1 (List.mem_map_of_mem he') e.1 List.mem_cons_self).symm
  simpa using hne

theorem eq_of_mem_entries {t : Table α} (h : t.keys.Nodup) {key : String} {value value' : α}
    (hmem : (key, value) ∈ t.entries) (hmem' : (key, value') ∈ t.entries) : value = value' :=
  Option.some.inj (((mem_entries_iff h).mp hmem).symm.trans ((mem_entries_iff h).mp hmem'))

/-! ## One insertion -/

theorem mem_keys_insert {t : Table α} {key other : String} {value : α} :
    other ∈ (t.insert key value).keys ↔ other = key ∨ other ∈ t.keys := by
  by_cases h : key ∈ t.keys
  · rw [keys_insert_of_mem t value h]
    constructor
    · exact Or.inr
    · rintro (rfl | ho)
      · exact h
      · exact ho
  · rw [keys_insert_of_not_mem t value h, List.mem_append, List.mem_singleton]
    exact or_comm

theorem nodup_keys_insert {t : Table α} (h : t.keys.Nodup) (key : String) (value : α) :
    (t.insert key value).keys.Nodup := by
  by_cases hk : key ∈ t.keys
  · rw [keys_insert_of_mem t value hk]
    exact h
  · rw [keys_insert_of_not_mem t value hk]
    refine List.nodup_append.mpr ⟨h, by simp, ?_⟩
    rintro a ha b hb rfl
    exact hk (List.mem_singleton.mp hb ▸ ha)

/-- A known key keeps its place, and a new one comes last. -/
theorem keys_insert (t : Table α) (key : String) (value : α) :
    (t.insert key value).keys = t.keys ++ if t.contains key then [] else [key] := by
  by_cases h : key ∈ t.keys
  · rw [keys_insert_of_mem t value h, if_pos (contains_iff.mpr h), List.append_nil]
  · have hc : ¬ t.contains key = true := fun hc => h (contains_iff.mp hc)
    rw [keys_insert_of_not_mem t value h, if_neg hc]

/-- A known key is replaced, and a new one makes the table longer by one. -/
theorem size_insert (t : Table α) (key : String) (value : α) :
    (t.insert key value).size = if t.contains key then t.size else t.size + 1 := by
  have hsize : ∀ u : Table α, u.size = u.keys.length := fun u => (List.length_map _).symm
  rw [hsize, hsize, keys_insert, List.length_append]
  cases t.contains key <;> rfl

theorem mem_values_put {key : String} {value w : α} :
    ∀ {l : List (String × α)}, w ∈ (put key value l).map (·.2) → w = value ∨ w ∈ l.map (·.2)
  | [], h => .inl (by simpa [put] using h)
  | (k, v) :: l, h => by
    unfold put at h
    split at h
    · rcases List.mem_cons.mp h with rfl | h
      · exact .inl rfl
      · exact .inr (List.mem_cons_of_mem _ h)
    · rcases List.mem_cons.mp h with rfl | h
      · exact .inr List.mem_cons_self
      · exact (mem_values_put h).imp_right (List.mem_cons_of_mem _)

theorem mem_values_insert {t : Table α} {key : String} {value w : α}
    (h : w ∈ (t.insert key value).values) : w = value ∨ w ∈ t.values :=
  mem_values_put h

/-! ## Many insertions -/

theorem insertAll_cons (t : Table α) (b : String × α) (l : List (String × α)) :
    t.insertAll (b :: l) = (t.insert b.1 b.2).insertAll l := rfl

theorem insertAll_append (t : Table α) (l l' : List (String × α)) :
    t.insertAll (l ++ l') = (t.insertAll l).insertAll l' :=
  List.foldl_append

theorem mem_keys_insertAll {key : String} :
    ∀ {t : Table α} {l : List (String × α)},
      key ∈ (t.insertAll l).keys ↔ key ∈ t.keys ∨ key ∈ l.map (·.1)
  | t, [] => by simp [insertAll]
  | t, b :: l => by
    rw [insertAll_cons, mem_keys_insertAll, mem_keys_insert, List.map_cons, List.mem_cons,
      or_assoc, or_left_comm]

theorem nodup_keys_insertAll :
    ∀ {t : Table α}, t.keys.Nodup → ∀ l : List (String × α), (t.insertAll l).keys.Nodup
  | _, h, [] => h
  | _, h, b :: l => nodup_keys_insertAll (nodup_keys_insert h b.1 b.2) l

theorem mem_values_insertAll {w : α} :
    ∀ {t : Table α} {l : List (String × α)},
      w ∈ (t.insertAll l).values → w ∈ t.values ∨ w ∈ l.map (·.2)
  | _, [], h => .inl h
  | _, b :: l, h => by
    rcases mem_values_insertAll (l := l) h with h | h
    · rcases mem_values_insert h with rfl | h
      · exact .inr List.mem_cons_self
      · exact .inl h
    · exact .inr (List.mem_cons_of_mem _ h)

/-- Bindings of other keys leave a key as it is. -/
theorem get?_insertAll_of_not_mem {key : String} :
    ∀ {t : Table α} {l : List (String × α)}, key ∉ l.map (·.1) →
      (t.insertAll l).get? key = t.get? key
  | _, [], _ => rfl
  | t, b :: l, h => by
    rw [List.map_cons, List.mem_cons, not_or] at h
    obtain ⟨hb, hl⟩ := h
    rw [insertAll_cons, get?_insertAll_of_not_mem hl, get?_insert_of_ne t hb]

/-- New keys, each of them once, come last in their order. -/
theorem entries_insertAll_of_fresh :
    ∀ {t : Table α} {l : List (String × α)}, (l.map (·.1)).Nodup → (∀ b ∈ l, b.1 ∉ t.keys) →
      (t.insertAll l).entries = t.entries ++ l
  | t, [], _, _ => (List.append_nil t.entries).symm
  | t, b :: l, hnodup, hfresh => by
    rw [List.map_cons, List.nodup_cons] at hnodup
    obtain ⟨hb, hl⟩ := hnodup
    have hput : (t.insert b.1 b.2).entries = t.entries ++ [b] :=
      put_of_not_mem b.2 (hfresh b List.mem_cons_self)
    have hrest : ∀ b' ∈ l, b'.1 ∉ (t.insert b.1 b.2).keys := by
      intro b' hb' hmem
      rcases mem_keys_insert.mp hmem with heq | hmem
      · exact hb (heq ▸ List.mem_map_of_mem hb')
      · exact hfresh b' (List.mem_cons_of_mem b hb') hmem
    rw [insertAll_cons, entries_insertAll_of_fresh hl hrest, hput, List.append_assoc]
    rfl

/-! ## The last binding -/

/-- `Last l key value`: the last binding of `key` in the list binds it to `value`. -/
def Last (l : List (String × α)) (key : String) (value : α) : Prop :=
  ∃ before after, l = before ++ (key, value) :: after ∧ key ∉ after.map (·.1)

theorem Last.mem {l : List (String × α)} {key : String} {value : α} (h : Last l key value) :
    (key, value) ∈ l := by
  obtain ⟨before, after, rfl, -⟩ := h
  simp

/-- A key that is bound at all is bound last at some place. -/
theorem exists_last {key : String} :
    ∀ {l : List (String × α)}, key ∈ l.map (·.1) → ∃ value, Last l key value
  | (k, v) :: l, h => by
    -- the head counts only if the rest does not bind the key again
    by_cases hl : key ∈ l.map (·.1)
    · obtain ⟨value, before, after, rfl, hn⟩ := exists_last hl
      exact ⟨value, (k, v) :: before, after, rfl, hn⟩
    · rcases List.mem_cons.mp h with rfl | h
      · exact ⟨v, [], l, rfl, hl⟩
      · exact absurd h hl

theorem get?_insertAll_of_last {t : Table α} {l : List (String × α)} {key : String} {value : α}
    (h : Last l key value) : (t.insertAll l).get? key = some value := by
  obtain ⟨before, after, rfl, hn⟩ := h
  rw [insertAll_append, insertAll_cons, get?_insertAll_of_not_mem hn, get?_insert_self]

/-! ## Tables from lists of bindings -/

theorem mem_keys_ofList {l : List (String × α)} {key : String} :
    key ∈ (ofList l).keys ↔ key ∈ l.map (·.1) := by
  unfold ofList
  rw [mem_keys_insertAll]
  simp [empty, keys]

theorem nodup_keys_ofList (l : List (String × α)) : (ofList l).keys.Nodup :=
  nodup_keys_insertAll (t := empty) List.nodup_nil l

theorem mem_values_ofList {l : List (String × α)} {w : α} (h : w ∈ (ofList l).values) :
    w ∈ l.map (·.2) :=
  (mem_values_insertAll h).resolve_left (List.not_mem_nil)

theorem get?_ofList_eq_none_iff {l : List (String × α)} {key : String} :
    (ofList l).get? key = none ↔ key ∉ l.map (·.1) := by
  rw [get?_eq_none_iff, mem_keys_ofList]

theorem get?_ofList_eq_some_iff {l : List (String × α)} {key : String} {value : α} :
    (ofList l).get? key = some value ↔ Last l key value := by
  constructor
  · intro h
    have hk : key ∈ l.map (·.1) := by
      refine Decidable.not_not.mp fun hn => ?_
      rw [get?_ofList_eq_none_iff.mpr hn] at h
      cases h
    obtain ⟨w, hw⟩ := exists_last hk
    have hget : (ofList l).get? key = some w := get?_insertAll_of_last hw
    rw [h] at hget
    exact Option.some.inj hget ▸ hw
  · exact get?_insertAll_of_last

/-! ## The listing -/

theorem sortedKeys_perm (t : Table α) : t.sortedKeys.Perm t.keys := List.mergeSort_perm t.keys _

theorem mem_sortedKeys {t : Table α} {key : String} : key ∈ t.sortedKeys ↔ key ∈ t.keys :=
  t.sortedKeys_perm.mem_iff

theorem length_sortedKeys (t : Table α) : t.sortedKeys.length = t.size :=
  t.sortedKeys_perm.length_eq.trans (List.length_map _)

/-- The listing ascends. -/
theorem sortedKeys_ascending (t : Table α) : t.sortedKeys.Pairwise (fun a b => a ≤ b) := by
  have hle : t.sortedKeys.Pairwise (fun a b => decide (a ≤ b) = true) := by
    refine List.pairwise_mergeSort ?_ ?_ t.keys
    · intro a b c hab hbc
      simp only [decide_eq_true_eq] at hab hbc ⊢
      exact String.le_trans hab hbc
    · intro a b
      simpa using String.le_total a b
  exact hle.imp of_decide_eq_true

/-- If no key comes twice, the listing ascends strictly. -/
theorem sortedKeys_pairwise {t : Table α} (h : t.keys.Nodup) :
    t.sortedKeys.Pairwise (fun a b => a < b) := by
  have hne : t.sortedKeys.Nodup := t.sortedKeys_perm.nodup_iff.mpr h
  refine (t.sortedKeys_ascending.and hne).imp fun hab => String.not_le.mp fun hba => ?_
  exact hab.2 (String.le_antisymm hab.1 hba)

/-- The listing does not depend on the order of the keys in the table. -/
theorem sortedKeys_eq_of_perm {t u : Table α} (h : t.keys.Perm u.keys) :
    t.sortedKeys = u.sortedKeys := by
  have hperm : t.sortedKeys.Perm u.sortedKeys :=
    (t.sortedKeys_perm.trans h).trans u.sortedKeys_perm.symm
  refine hperm.eq_of_pairwise ?_ t.sortedKeys_ascending u.sortedKeys_ascending
  exact fun a b _ _ hab hba => String.le_antisymm hab hba

/-- The listing depends on which keys there are, and not on their order in the table. -/
theorem sortedKeys_eq_of_mem_iff {t u : Table α} (ht : t.keys.Nodup) (hu : u.keys.Nodup)
    (h : ∀ key, key ∈ t.keys ↔ key ∈ u.keys) : t.sortedKeys = u.sortedKeys :=
  sortedKeys_eq_of_perm ((List.perm_ext_iff_of_nodup ht hu).mpr h)

end Table

end InterfaceCheck
