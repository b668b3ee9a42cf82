import InterfaceCheck.Proofs.Declaration
import InterfaceCheck.Proofs.Table
/-!
# Configurations written as maps

A configuration can be written as a plain map: its members as a map of their own, and its metadata
as it is. The entries may come in any order and among any others (`Config.WrittenIn`). Reading such
a map gives the configuration back, so a declaration from the map is the declaration from the
configuration (`Config.reading_undoes_writing`).

What a map binds is what a lookup finds, since a map has each key once. So a configuration that has
no metadata and one whose metadata is null are written, and read, differently.
-/

namespace InterfaceCheck.Config

/-! ## Writing -/

/-- The keys of a map that count for a configuration. -/
def keys : List String := ["members", "events", "properties"]

/-- `c.WrittenIn entries`: a map with these entries says what `c` says. It binds the key of the
members, and the other two keys as far as `c` has metadata. -/
structure WrittenIn (c : Config) (entries : Table Value) : Prop where
  keysOnce : entries.keys.Nodup
  members : ("members", .map c.members) ∈ entries.entries
  events : ∀ v, ("events", v) ∈ entries.entries ↔ c.events = some v
  properties : ∀ v, ("properties", v) ∈ entries.entries ↔ c.properties = some v

/-- The bindings that write a configuration. -/
def bindings (c : Config) : List (String × Value) :=
  ("members", .map c.members) ::
    (c.events.toList.map (("events", ·)) ++ c.properties.toList.map (("properties", ·)))

theorem mem_keys_of_bindings {c : Config} {b : String × Value} (h : b ∈ c.bindings) :
    b.1 ∈ keys := by
  simp only [bindings, List.mem_cons, List.mem_append, List.mem_map] at h
  rcases h with rfl | ⟨_, _, rfl⟩ | ⟨_, _, rfl⟩ <;> simp [keys]

theorem nodup_bindings (c : Config) : (c.bindings.map (·.1)).Nodup := by
  unfold bindings
  cases c.events <;> cases c.properties <;> simp

/-- Bindings of other keys may stand among those that write a configuration, in any order. -/
theorem writtenIn_of_perm {c : Config} {l others : List (String × Value)}
    (hnodup : (others.map (·.1)).Nodup) (hothers : ∀ b ∈ others, b.1 ∉ keys)
    (hperm : l.Perm (c.bindings ++ others)) : c.WrittenIn ⟨l⟩ := by
  have hmem : ∀ b : String × Value, b.1 ∈ keys → (b ∈ l ↔ b ∈ c.bindings) := by
    intro b hb
    rw [hperm.mem_iff, List.mem_append]
    exact or_iff_left fun h => hothers b h hb
  refine ⟨?_, (hmem _ (by simp [keys])).mpr List.mem_cons_self, fun v => ?_, fun v => ?_⟩
  · refine ((hperm.map (·.1)).nodup_iff).mpr ?_
    rw [List.map_append, List.nodup_append]
    refine ⟨c.nodup_bindings, hnodup, ?_⟩
    -- no key is both one of the three and another
    rintro key hkey key' hkey' rfl
    obtain ⟨b, hb, rfl⟩ := List.mem_map.mp hkey
    obtain ⟨b', hb', heq⟩ := List.mem_map.mp hkey'
    exact hothers b' hb' (heq ▸ mem_keys_of_bindings hb)
  · rw [hmem _ (by simp [keys])]
    simp [bindings]
  · rw [hmem _ (by simp [keys])]
    simp [bindings]

/-! ## Reading -/

theorem ofValue_of_not_map {v : Value} (h : ∀ entries, v ≠ .map entries) : ofValue v = {} := by
  cases v with
  | map entries => exact absurd rfl (h entries)
  | _ => rfl

section
variable {entries : Table Value} (hkeys : entries.keys.Nodup)
include hkeys

/-- The members are those of the map that is bound to their key. -/
theorem members_ofValue {members : Table Value} (h : ("members", .map members) ∈ entries.entries) :
    (ofValue (.map entries)).members = members := by
  have hget : entries.get? "members" = some (.map members) := (Table.mem_entries_iff hkeys).mp h
  show ((entries.get? "members").bind (·.entries?)).getD .empty = members
  rw [hget]
  rfl

/-- Whatever else is bound to their key, and if nothing is, there are no members. -/
theorem members_ofValue_of_not_map
    (h : ∀ members, ("members", .map members) ∉ entries.entries) :
    (ofValue (.map entries)).members = .empty := by
  show ((entries.get? "members").bind (·.entries?)).getD .empty = .empty
  cases hget : entries.get? "members" with
  | none => rfl
  | some v =>
    cases v with
    | map members => exact absurd ((Table.mem_entries_iff hkeys).mpr hget) (h members)
    | _ => rfl

/-- Metadata about events is carried over as it is bound, and none is made up. -/
theorem events_ofValue_iff {v : Value} :
    (ofValue (.map entries)).events = some v ↔ ("events", v) ∈ entries.entries :=
  (Table.mem_entries_iff (e := ("events", v)) hkeys).symm

theorem properties_ofValue_iff {v : Value} :
    (ofValue (.map entries)).properties = some v ↔ ("properties", v) ∈ entries.entries :=
  (Table.mem_entries_iff (e := ("properties", v)) hkeys).symm

end

/-- Reading a map in which a configuration is written gives that configuration. -/
theorem WrittenIn.ofValue_eq {c : Config} {entries : Table Value} (h : c.WrittenIn entries) :
    ofValue (.map entries) = c := by
  have hmembers := members_ofValue h.keysOnce h.members
  have hevents : (ofValue (.map entries)).events = c.events := by
    refine Option.ext fun v => ?_
    rw [events_ofValue_iff h.keysOnce, h.events]
  have hproperties : (ofValue (.map entries)).properties = c.properties := by
    refine Option.ext fun v => ?_
    rw [properties_ofValue_iff h.keysOnce, h.properties]
  cases c
  cases hread : ofValue (.map entries)
  simp_all

/-- **Reading undoes writing.**

1. A map in which a configuration is written, whatever else the map binds and in whatever order,
   reads as that configuration; and to declare from the map is to declare from the configuration,
   in the answer, in the registry afterwards and in what is reported.
2. A value that is no plain map reads as the configuration without anything.
3. A plain map that binds no plain map to the key of the members reads as a configuration without
   members, and still with the metadata that it binds. -/
theorem reading_undoes_writing :
    (∀ (c : Config) (entries : Table Value), c.WrittenIn entries →
      ofValue (.map entries) = c ∧
      ∀ (r : Registry) (s : Settings) (name : String),
        r.declareValue s name (.map entries) = r.declare s name c) ∧
    (∀ v : Value, (∀ entries, v ≠ .map entries) → ofValue v = {}) ∧
    ∀ entries : Table Value, entries.keys.Nodup →
      (∀ members, ("members", .map members) ∉ entries.entries) →
      (ofValue (.map entries)).members = .empty ∧
      (∀ v, (ofValue (.map entries)).events = some v ↔ ("events", v) ∈ entries.entries) ∧
      ∀ v, (ofValue (.map entries)).properties = some v ↔ ("properties", v) ∈ entries.entries := by
  refine ⟨fun c entries h => ⟨h.ofValue_eq, fun r s name => ?_⟩, fun v => ofValue_of_not_map,
    fun entries hkeys hmembers => ⟨members_ofValue_of_not_map hkeys hmembers,
      fun v => events_ofValue_iff hkeys, fun v => properties_ofValue_iff hkeys⟩⟩
  rw [Registry.declareValue_eq_declare (fun _ => rfl), h.ofValue_eq]

/-- Metadata that is null stays apart from metadata that there is none of, in a map that binds
another key too and the members last; an instance under the key of the members is no map. -/
theorem reading_undoes_writing_null :
    let c : Config := { members := ⟨[("area", .function ⟨0, false⟩)]⟩, events := some .null }
    let written : Value := .map ⟨[("author", .string "me"), ("events", .null),
      ("members", .map ⟨[("area", .function ⟨0, false⟩)]⟩)]⟩
    let disc : Class Value := .bare "geo.Disc"
    ofValue written = c ∧
      (Registry.empty.declareValue (.standard true) "geo shape" written =
        Registry.empty.declare (.standard true) "geo shape" c) ∧
      ofValue (.inst ⟨disc, ⟨[("events", .null)]⟩⟩) = {} ∧
      (ofValue (.map ⟨[("members", .inst ⟨disc, .empty⟩), ("events", .undefined)]⟩)).events =
        some .undefined := by
  intro c written disc
  obtain ⟨hwritten, hother, hcarried⟩ := reading_undoes_writing
  have hc : c.WrittenIn ⟨[("author", .string "me"), ("events", .null),
      ("members", .map ⟨[("area", .function ⟨0, false⟩)]⟩)]⟩ := by
    have hperm : [("author", .string "me"), ("events", .null), ("members", .map c.members)].Perm
        (c.bindings ++ [("author", .string "me")]) := (List.reverse_perm _).symm
    exact writtenIn_of_perm (by simp) (by simp [keys]) hperm
  obtain ⟨hread, hdeclared⟩ := hwritten c _ hc
  refine ⟨hread, hdeclared .empty (.standard true) "geo shape", hother _ (fun entries => nofun), ?_⟩
  exact ((hcarried _ (by simp [Table.keys]) (by simp)).2.1 .undefined).mpr (by simp)

end InterfaceCheck.Config
