import InterfaceCheck.Config
import InterfaceCheck.Proofs.Building
import InterfaceCheck.Proofs.Parts
/-!
# Tables as they are built

Configurations, classes, instances and plain maps take their bindings one after the other, and all
four keep them in tables. A table that was filled in this way records what was inserted
(`Table.Records`): each key once, in the order of the first insertions, bound to the value of the
last one.

For an interface the order of its members is the order of the checks. So a member that is required
once more is checked where it came first, against the sample that came last, and of all violations
the one whose key came first is reported.

- `Table.records_ofList`: a table made by insertions records them;
- `Table.entries_insert_of_mem`: an insertion under a known key changes the value where it stands;
- `Table.Records.first_iff`: the first binding of a kind, said of the insertions;
- `builders_record`: what follows for the four builders and for checks.
-/

namespace InterfaceCheck

universe u

namespace Table

variable {α : Type u}

/-! ## One insertion -/

/-- A known key keeps its place, and only its value is another one. -/
theorem entries_insert_of_mem {t : Table α} {key : String} (h : key ∈ t.keys) (value : α) :
    ∃ before old after, t.entries = before ++ (key, old) :: after ∧
      (t.insert key value).entries = before ++ (key, value) :: after := by
  obtain ⟨entries⟩ := t
  show ∃ before old after, entries = before ++ (key, old) :: after ∧
    put key value entries = before ++ (key, value) :: after
  replace h : key ∈ entries.map (·.1) := h
  induction entries with
  | nil => cases h
  | cons e rest ih =>
    obtain ⟨k, v⟩ := e
    by_cases hk : k = key
    · subst hk
      exact ⟨[], v, rest, rfl, if_pos rfl⟩
    · have hrest : key ∈ rest.map (·.1) := (List.mem_cons.mp h).resolve_left (Ne.symm hk)
      obtain ⟨before, old, after, hentries, hput⟩ := ih hrest
      refine ⟨(k, v) :: before, old, after, congrArg _ hentries, ?_⟩
      rw [put, if_neg hk, hput]
      rfl

/-! ## The order of the keys -/

/-- The place of the first insertion under a key. -/
def place (insertions : List (String × α)) (key : String) : Nat :=
  (insertions.map (·.1)).idxOf key

/-- What is inserted later leaves the place of a key. -/
theorem place_append_of_mem {earlier later : List (String × α)} {key : String}
    (h : key ∈ earlier.map (·.1)) : place (earlier ++ later) key = place earlier key := by
  unfold place
  rw [List.map_append, List.idxOf_append, if_pos h]

/-- A key that is new has its place behind all earlier ones. -/
theorem length_le_place {earlier later : List (String × α)} {key : String}
    (h : key ∉ earlier.map (·.1)) : earlier.length ≤ place (earlier ++ later) key := by
  unfold place
  rw [List.map_append, List.idxOf_append, if_neg h, List.length_map]
  exact Nat.le_add_left _ _

theorem place_lt_length {insertions : List (String × α)} {key : String}
    (h : key ∈ insertions.map (·.1)) : place insertions key < insertions.length := by
  have hlt := List.idxOf_lt_length_of_mem h
  rwa [List.length_map] at hlt

/-- Insertions into a table that lists its keys in order leave it such a table. -/
theorem order_insertAll :
    ∀ {later earlier : List (String × α)} {t : Table α},
      (∀ key, key ∈ t.keys ↔ key ∈ earlier.map (·.1)) →
      t.keys.Pairwise (fun a b => place earlier a < place earlier b) →
      (t.insertAll later).keys.Pairwise
        (fun a b => place (earlier ++ later) a < place (earlier ++ later) b)
  | [], earlier, t, _, horder => by
    rw [List.append_nil]
    exact horder
  | b :: later, earlier, t, hkeys, horder => by
    have hassoc : earlier ++ b :: later = (earlier ++ [b]) ++ later := by simp
    rw [insertAll_cons, hassoc]
    -- the places of the earlier keys stay, and a new key comes behind them
    have hplace : ∀ key ∈ t.keys, place (earlier ++ [b]) key = place earlier key :=
      fun key hkey => place_append_of_mem ((hkeys key).mp hkey)
    have horder' : t.keys.Pairwise
        (fun a c => place (earlier ++ [b]) a < place (earlier ++ [b]) c) :=
      horder.imp_of_mem fun {a c} ha hc hlt => by rwa [hplace a ha, hplace c hc]
    refine order_insertAll (fun key => ?_) ?_
    · rw [mem_keys_insert, hkeys, List.map_append, List.mem_append, or_comm]
      exact or_congr_right List.mem_singleton.symm
    · by_cases hb : b.1 ∈ t.keys
      · rw [keys_insert_of_mem t b.2 hb]
        exact horder'
      · rw [keys_insert_of_not_mem t b.2 hb]
        refine List.pairwise_append.mpr ⟨horder', List.pairwise_singleton _ _, ?_⟩
        intro key hkey key' hkey'
        obtain rfl := List.mem_singleton.mp hkey'
        rw [hplace key hkey]
        exact Nat.lt_of_lt_of_le (place_lt_length ((hkeys key).mp hkey))
          (length_le_place fun h => hb ((hkeys b.1).mpr h))

/-! ## Records of insertions -/

/-- `t.Records insertions`: the table is what the insertions come to. -/
structure Records (t : Table α) (insertions : List (String × α)) : Prop where
  keys : ∀ key, key ∈ t.keys ↔ key ∈ insertions.map (·.1)
  once : t.keys.Nodup
  /-- The keys stand in the order of their first insertions. -/
  order : t.keys.Pairwise (fun a b => place insertions a < place insertions b)
  /-- Each key is bound to the value of its last insertion. -/
  bound : ∀ key value, (key, value) ∈ t.entries ↔ Last insertions key value
  /-- What a lookup finds is what is listed. -/
  lookup : ∀ key value, t.get? key = some value ↔ (key, value) ∈ t.entries

/-- **A table that was filled by insertions records them.** -/
theorem records_ofList (insertions : List (String × α)) : (ofList insertions).Records insertions :=
  have honce := nodup_keys_ofList insertions
  have hlookup : ∀ key value, (ofList insertions).get? key = some value ↔
      (key, value) ∈ (ofList insertions).entries :=
    fun key value => (mem_entries_iff (e := (key, value)) honce).symm
  { keys := fun _ => mem_keys_ofList
    once := honce
    order := @order_insertAll α insertions [] empty (fun _ => Iff.rfl) .nil
    bound := fun key value => (hlookup key value).symm.trans get?_ofList_eq_some_iff
    lookup := hlookup }

variable {t : Table α} {insertions : List (String × α)}

/-- In a table that records insertions, those entries stand before another whose keys were inserted
before its key. -/
theorem Records.mem_before_iff (h : t.Records insertions) {before after : List (String × α)}
    {e other : String × α} (hentries : t.entries = before ++ e :: after)
    (hother : other ∈ t.entries) :
    other ∈ before ↔ place insertions other.1 < place insertions e.1 := by
  have horder := h.order
  rw [Table.keys, hentries, List.map_append, List.map_cons, List.pairwise_append,
    List.pairwise_cons] at horder
  obtain ⟨-, ⟨hafter, -⟩, hbefore⟩ := horder
  constructor
  · intro hmem
    exact hbefore other.1 (List.mem_map_of_mem hmem) e.1 List.mem_cons_self
  · intro hlt
    rw [hentries] at hother
    rcases List.mem_append.mp hother with hmem | hmem
    · exact hmem
    · -- the entry itself and those behind it have later places
      rcases List.mem_cons.mp hmem with rfl | hmem
      · exact absurd hlt (Nat.lt_irrefl _)
      · exact absurd hlt (Nat.lt_asymm (hafter other.1 (List.mem_map_of_mem hmem)))

/-- An entry with a property before it: the key was bound last to the value, and the last bindings
of all keys that were inserted before have the property. -/
theorem Records.first_iff (h : t.Records insertions) {P : String × α → Prop} {e : String × α} :
    (∃ before after, t.entries = before ++ e :: after ∧ ∀ other ∈ before, P other) ↔
      Last insertions e.1 e.2 ∧ ∀ other value, Last insertions other value →
        place insertions other < place insertions e.1 → P (other, value) := by
  rw [← h.bound]
  constructor
  · rintro ⟨before, after, hentries, hbefore⟩
    refine ⟨by rw [hentries]; simp, fun other value hlast hlt => hbefore _ ?_⟩
    exact (h.mem_before_iff hentries ((h.bound other value).mpr hlast)).mpr hlt
  · rintro ⟨hmem, hbefore⟩
    obtain ⟨before, after, hentries⟩ := List.append_of_mem hmem
    refine ⟨before, after, hentries, fun other hother => ?_⟩
    have hlisted : other ∈ t.entries := by
      rw [hentries]
      exact List.mem_append_left _ hother
    exact hbefore other.1 other.2 ((h.bound _ _).mp hlisted)
      ((h.mem_before_iff hentries hlisted).mp hother)

end Table

/-! ## The builders -/

/-- The configuration with more members, required one after the other. -/
def Config.requiring (c : Config) (members : List (String × Value)) : Config :=
  members.foldl (fun c m => c.member m.1 m.2) c

theorem Config.members_requiring :
    ∀ (members : List (String × Value)) (c : Config),
      (c.requiring members).members = c.members.insertAll members
  | [], _ => rfl
  | m :: members, c => members_requiring members (c.member m.1 m.2)

/-- The instance with more fields, set one after the other. -/
def Instance.withFields (i : Instance Value) (fields : List (String × Value)) : Instance Value :=
  fields.foldl (fun i f => i.withField f.1 f.2) i

/-- A class is checked against the requirements that an interface records, in the order in which
they came first. -/
theorem Descriptor.checkClass_of_records {d : Descriptor Value}
    {insertions : List (String × Value)} (h : d.members.Records insertions) (c : Class Value) :
    ((d.checkClass c).answer = .ok () ↔
      ∀ key sample, Table.Last insertions key sample → d.Meets c (key, sample)) ∧
    ∀ v, (d.checkClass c).answer = .error v ↔
      ∃ key sample, Table.Last insertions key sample ∧ d.Violates c (key, sample) v ∧
        ∀ other sample', Table.Last insertions other sample' →
          Table.place insertions other < Table.place insertions key →
          d.Meets c (other, sample') := by
  constructor
  · rw [checkClass_eq_ok_iff]
    constructor
    · exact fun hmeets key sample hlast => hmeets _ ((h.bound key sample).mpr hlast)
    · exact fun hmeets r hr => hmeets r.1 r.2 ((h.bound r.1 r.2).mp hr)
  · intro v
    rw [checkClass_eq_error_iff]
    constructor
    · rintro ⟨before, ⟨key, sample⟩, after, hentries, hbefore, hviolates⟩
      obtain ⟨hlast, hfirst⟩ := h.first_iff.mp ⟨before, after, hentries, hbefore⟩
      exact ⟨key, sample, hlast, hviolates, hfirst⟩
    · rintro ⟨key, sample, hlast, hviolates, hfirst⟩
      obtain ⟨before, after, hentries, hbefore⟩ :=
        h.first_iff (P := d.Meets c) (e := (key, sample)) |>.mpr ⟨hlast, hfirst⟩
      exact ⟨before, (key, sample), after, hentries, hbefore, hviolates⟩

/-- **What is built records what was inserted**, each key once, in the order of the first insertions
and with the values of the last ones, and lookups agree with it:

1. a class has the members that its steps define, whatever other steps come in between;
2. an instance has the fields that were set;
3. a plain map has the entries that it was made of;
4. a configuration has the members that were required.

For the interface that is declared from such a configuration, a member that is required once more
changes its sample where it stands, and leaves the place and the number of the members. A check
passes iff the last sample of every member is met, and else it reports the violation of the member
that came first among all that are violated. -/
theorem builders_record :
    (∀ (name : String) (steps : List (ClassStep Value)),
      (Class.build name steps).members.Records (steps.filterMap ClassStep.binding?) ∧
      ∀ key value, Table.Last (steps.filterMap ClassStep.binding?) key value →
        (Class.build name steps).member? key = some value) ∧
    (∀ (c : Class Value) (fields : List (String × Value)),
      ((Instance.of c).withFields fields).fields.Records fields ∧
      ∀ key value, ((Instance.of c).withFields fields).field? key = some value ↔
        Table.Last fields key value) ∧
    (∀ (vars : Table Value) (entries : List (String × Expr)) (bindings : List (String × Value)),
      Expr.evalFields? vars entries = some bindings →
      ∃ t, (Expr.map entries).eval? vars = some (.map t) ∧ t.Records bindings ∧
        ∀ key value, (Value.map t).get? key = some value ↔ Table.Last bindings key value) ∧
    ∀ (events properties : Option Value) (members : List (String × Value)),
      let config := Config.requiring ⟨.empty, events, properties⟩ members
      config.members.Records members ∧
      (∀ key ∈ config.members.keys, ∀ sample, ∃ before old after,
        config.members.entries = before ++ (key, old) :: after ∧
        (config.member key sample).members.entries = before ++ (key, sample) :: after) ∧
      ∀ (name : String) (strictArity : Bool) (target : Value) (c : Class Value),
        target.HasClass c →
        let d := config.descriptor name strictArity
        let answer := (checkImplements target (.ofInterface d)).answer
        (answer = .ok () ↔
          ∀ key sample, Table.Last members key sample → d.Meets c (key, sample)) ∧
        ∀ v, answer = .error v ↔
          ∃ key sample, Table.Last members key sample ∧ d.Violates c (key, sample) v ∧
            ∀ other sample', Table.Last members other sample' →
              Table.place members other < Table.place members key →
              d.Meets c (other, sample') := by
  refine ⟨fun name steps => ?_, fun c fields => ?_, fun vars entries bindings hbindings => ?_,
    fun events properties members => ?_⟩
  · have hmembers : (Class.build name steps).members =
        .ofList (steps.filterMap ClassStep.binding?) := by rw [Class.build_eq]
    refine ⟨hmembers ▸ Table.records_ofList _, fun key value hlast => ?_⟩
    refine Class.member?_of_own ?_
    rw [hmembers]
    exact Table.get?_ofList_eq_some_iff.mpr hlast
  · have hfields : ((Instance.of c).withFields fields).fields = .ofList fields :=
      Expr.fields_foldl_withField fields (.of c)
    refine ⟨hfields ▸ Table.records_ofList fields, fun key value => ?_⟩
    unfold Instance.field?
    rw [hfields]
    exact Table.get?_ofList_eq_some_iff
  · refine ⟨.ofList bindings, ?_, Table.records_ofList bindings,
      fun key value => Table.get?_ofList_eq_some_iff⟩
    rw [Expr.eval?, hbindings]
    rfl
  · intro config
    have hrecords : config.members.Records members :=
      Config.members_requiring members ⟨.empty, events, properties⟩ ▸ Table.records_ofList members
    refine ⟨hrecords, fun key hkey sample => Table.entries_insert_of_mem hkey sample, ?_⟩
    intro name strictArity target c hc d
    have hcheck : checkImplements target (.ofInterface d) = d.checkClass c := by
      simp [checkImplements, Value.class?_eq_some_iff.mpr hc]
    rw [hcheck]
    exact Descriptor.checkClass_of_records (d := d) hrecords c

/-- The area is required twice, and the label in between. A class that fits the first sample of the
area and lacks the label is reported for the area, with the arity of its second sample. -/
theorem builders_record_required_twice :
    let members : List (String × Value) := [("area", .function ⟨0, false⟩),
      ("label", .string ""), ("area", .function ⟨1, false⟩)]
    let shape := (Config.requiring ⟨.empty, none, none⟩ members).descriptor "geo.Shape" true
    let disc : Class Value := .build "geo.Disc" [.member "area" (.function ⟨0, false⟩)]
    (Value.inst (.of disc)).HasClass disc ∧
      (checkImplements (.inst (.of disc)) (.ofInterface shape)).answer =
        .error (.arityMismatch "geo.Disc" "geo.Shape" "area" 1 0) ∧
      "area" ∈ shape.members.keys ∧
      (∃ before old after, shape.members.entries = before ++ ("area", old) :: after) ∧
      ∃ t, (Expr.map [("b", .null), ("a", .null), ("b", .bool true)]).eval? .empty =
        some (.map t) ∧ (Value.map t).get? "b" = some (.bool true) := by
  intro members shape disc
  obtain ⟨hclass, -, hmap, hconfig⟩ := builders_record
  obtain ⟨-, hagain, hcheck⟩ := hconfig none none members
  have harea : Table.Last members "area" (.function ⟨1, false⟩) :=
    ⟨members.dropLast, [], rfl, nofun⟩
  have hfinds : disc.Finds "area" (.function ⟨0, false⟩) :=
    Class.member?_eq_some_iff.mp ((hclass "geo.Disc" _).2 _ _ ⟨[], [], rfl, nofun⟩)
  have hrefused : ¬ Signature.Admits ⟨1, false⟩ ⟨0, false⟩ := by decide
  have hmisfit : Value.Misfit true (.function ⟨1, false⟩) (.function ⟨0, false⟩) (.arity 1 0) :=
    .arity (by rfl) rfl rfl rfl hrefused
  have hkey : "area" ∈ shape.members.keys := by decide
  obtain ⟨before, old, after, hentries, -⟩ := hagain "area" hkey .null
  obtain ⟨t, ht, -, hget⟩ := hmap .empty [("b", .null), ("a", .null), ("b", .bool true)]
    [("b", .null), ("a", .null), ("b", .bool true)] rfl
  refine ⟨.inst _, ?_, hkey, ⟨before, old, after, hentries⟩, t, ht,
    (hget _ _).mpr ⟨[("b", .null), ("a", .null)], [], rfl, nofun⟩⟩
  refine ((hcheck "geo.Shape" true (.inst (.of disc)) disc (.inst _)).2 _).mpr
    ⟨"area", _, harea, .arity hfinds hmisfit, fun other sample _ hlt => ?_⟩
  -- no member comes before the first one
  exact absurd hlt (Nat.not_lt_zero _)

end InterfaceCheck
