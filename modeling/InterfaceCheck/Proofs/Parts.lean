import InterfaceCheck.Proofs.Lookup
import InterfaceCheck.Proofs.Table
import InterfaceCheck.Session.Expr
/-!
# The parts of a value

What stands inside a value, at any depth: the items of an array, the entries of a map, the members
of a class along its lineage (those that a nearer class hides included), the class and the fields
of an instance, and the samples and metadata of an interface.

A property holds *throughout* a value (`Value.Throughout`) if it holds of the value and of all that
stands inside it. Taking a part out of a value keeps such a property, and building a value keeps it
if it holds of all that can be built, which is no interface and repeats no key
(`Expr.eval?_throughout`). A value is *genuine* with respect to a set of known interfaces
(`Value.Genuine`) if every interface in it is known.
-/

namespace InterfaceCheck

universe u

/-! ## Members along the lineage -/

namespace Class

variable {α : Type u}

/-- `c.Carries v`: a class of the lineage defines a member with the value `v`. -/
def Carries (c : Class α) (v : α) : Prop := ∃ a ∈ c.lineage, v ∈ a.members.values

theorem carries_iff {c : Class α} {v : α} :
    c.Carries v ↔ v ∈ c.members.values ∨ ∃ p, c.parent = some p ∧ p.Carries v := by
  unfold Carries
  cases hp : c.parent with
  | none => simp [lineage_of_root hp]
  | some p => simp [lineage_of_parent hp]

theorem carries_of_member? {c : Class α} {key : String} {v : α} (h : c.member? key = some v) :
    c.Carries v := by
  obtain ⟨nearer, a, farther, hl, -, ha⟩ := member?_eq_some_iff.mp h
  exact ⟨a, by simp [hl], Table.mem_values_of_get? ha⟩

/-- A step in building a class adds no values but its own: those of the member it defines, or those
of the parent it sets. -/
theorem carries_apply {c : Class α} {step : ClassStep α} {v : α} (h : (c.apply step).Carries v) :
    c.Carries v ∨ (∃ key, step = .member key v) ∨ ∃ p, step = .extending p ∧ p.Carries v := by
  rw [carries_iff] at h
  cases step with
  | constructor signature => exact .inl (carries_iff.mpr h)
  | extending parent =>
    rcases h with h | ⟨p, hp, h⟩
    · exact .inl (carries_iff.mpr (.inl h))
    · exact .inr (.inr ⟨p, by rw [Option.some.inj hp], h⟩)
  | member key value =>
    rcases h with h | h
    · rcases Table.mem_values_insert h with rfl | h
      · exact .inr (.inl ⟨key, rfl⟩)
      · exact .inl (carries_iff.mpr (.inl h))
    · exact .inl (carries_iff.mpr (.inr h))

theorem carries_foldl {v : α} :
    ∀ {steps : List (ClassStep α)} {c : Class α}, (steps.foldl apply c).Carries v →
      c.Carries v ∨ (∃ key, ClassStep.member key v ∈ steps) ∨
        ∃ p, ClassStep.extending p ∈ steps ∧ p.Carries v
  | [], _, h => .inl h
  | step :: steps, c, h => by
    rw [List.foldl_cons] at h
    rcases carries_foldl h with hc | ⟨key, hk⟩ | ⟨p, hp, hv⟩
    · rcases carries_apply hc with hc | ⟨key, rfl⟩ | ⟨p, rfl, hv⟩
      · exact .inl hc
      · exact .inr (.inl ⟨key, List.mem_cons_self⟩)
      · exact .inr (.inr ⟨p, List.mem_cons_self, hv⟩)
    · exact .inr (.inl ⟨key, List.mem_cons_of_mem _ hk⟩)
    · exact .inr (.inr ⟨p, List.mem_cons_of_mem _ hp, hv⟩)

/-- What a built class carries was defined by a step or comes from a parent that a step set. -/
theorem carries_build {name : String} {steps : List (ClassStep α)} {v : α}
    (h : (build name steps).Carries v) :
    (∃ key, ClassStep.member key v ∈ steps) ∨
      ∃ p, ClassStep.extending p ∈ steps ∧ p.Carries v := by
  refine (carries_foldl h).resolve_left ?_
  rintro ⟨a, ha, hv⟩
  obtain rfl : a = bare name := by simpa [lineage_of_root, bare] using ha
  exact List.not_mem_nil hv

end Class

namespace Value

/-! ## Parts -/

/-- `PartOf w v`: `w` stands directly inside `v`. -/
inductive PartOf : Value → Value → Prop where
  | item {items : List Value} {w : Value} : w ∈ items → PartOf w (.array items)
  | entry {entries : Table Value} {w : Value} : w ∈ entries.values → PartOf w (.map entries)
  | member {c : Class Value} {w : Value} : c.Carries w → PartOf w (.cls c)
  | cls (i : Instance Value) : PartOf (.cls i.cls) (.inst i)
  | field {i : Instance Value} {w : Value} : w ∈ i.fields.values → PartOf w (.inst i)
  | sample {d : Descriptor Value} {w : Value} : w ∈ d.members.values → PartOf w (.ofInterface d)
  | events {d : Descriptor Value} {w : Value} : d.events = some w → PartOf w (.ofInterface d)
  | properties {d : Descriptor Value} {w : Value} :
      d.properties = some w → PartOf w (.ofInterface d)

/-- `Within w v`: `w` is `v` or stands inside it at some depth. -/
inductive Within : Value → Value → Prop where
  | refl (v : Value) : Within v v
  | step {w u v : Value} : Within w u → PartOf u v → Within w v

/-- What a selector picks is a part. -/
theorem partOf_of_select? {v w : Value} {selector : Selector} (h : v.select? selector = some w) :
    PartOf w v := by
  unfold select? at h
  split at h
  · exact .item (List.mem_of_getElem? h)
  · exact .entry (Table.mem_values_of_get? h)
  · exact .member (Class.carries_of_member? h)
  · cases h; exact .cls _
  · exact .field (Table.mem_values_of_get? h)
  · exact .sample (Table.mem_values_of_get? h)
  · exact .events h
  · exact .properties h
  · cases h

theorem entries?_eq_some_iff {v : Value} {entries : Table Value} :
    v.entries? = some entries ↔ v = .map entries := by
  constructor
  · intro h
    cases v with
    | map entries' => rw [Option.some.inj h]
    | _ => cases h
  · rintro rfl
    rfl

/-- What a map has under a key is a part. -/
theorem partOf_of_get? {v w : Value} {key : String} (h : v.get? key = some w) : PartOf w v := by
  obtain ⟨entries, hentries, hw⟩ := Option.bind_eq_some_iff.mp h
  rw [entries?_eq_some_iff.mp hentries]
  exact .entry (Table.mem_values_of_get? hw)

/-! ## Properties of all parts -/

/-- `P` holds of the value and of all that stands inside it. -/
def Throughout (P : Value → Prop) (v : Value) : Prop := ∀ w, Within w v → P w

/-- `P` holds of every value that is no interface and, if it is a map, has each key once. -/
def HoldsOfBuilt (P : Value → Prop) : Prop :=
  ∀ v : Value, v.interface? = none → (∀ entries, v = .map entries → entries.keys.Nodup) → P v

variable {P : Value → Prop}

/-- A property holds throughout a value iff it holds of the value and throughout its parts. -/
theorem throughout_iff {v : Value} :
    Throughout P v ↔ P v ∧ ∀ u, PartOf u v → Throughout P u := by
  constructor
  · intro h
    exact ⟨h v (.refl v), fun u hu w hw => h w (.step hw hu)⟩
  · rintro ⟨hself, hparts⟩ w hw
    cases hw with
    | refl => exact hself
    | step hw hu => exact hparts _ hu w hw

theorem Throughout.part {v w : Value} (h : Throughout P v) (hw : PartOf w v) : Throughout P w :=
  (throughout_iff.mp h).2 w hw

theorem Throughout.within {v w : Value} (h : Throughout P v) (hw : Within w v) :
    Throughout P w := by
  induction hw with
  | refl => exact h
  | step _ hu ih => exact ih (h.part hu)

theorem throughout_array (hP : HoldsOfBuilt P) {items : List Value}
    (h : ∀ w ∈ items, Throughout P w) : Throughout P (.array items) := by
  refine throughout_iff.mpr ⟨hP _ rfl (fun _ he => (nomatch he)), fun w hw => ?_⟩
  cases hw with
  | item hw => exact h w hw

theorem throughout_map (hP : HoldsOfBuilt P) {entries : Table Value}
    (hkeys : entries.keys.Nodup) (h : ∀ w ∈ entries.values, Throughout P w) :
    Throughout P (.map entries) := by
  refine throughout_iff.mpr ⟨hP _ rfl (fun _ he => by cases he; exact hkeys), fun w hw => ?_⟩
  cases hw with
  | entry hw => exact h w hw

theorem throughout_cls (hP : HoldsOfBuilt P) {c : Class Value}
    (h : ∀ w, c.Carries w → Throughout P w) : Throughout P (.cls c) := by
  refine throughout_iff.mpr ⟨hP _ rfl (fun _ he => (nomatch he)), fun w hw => ?_⟩
  cases hw with
  | member hw => exact h w hw

theorem throughout_inst (hP : HoldsOfBuilt P) {i : Instance Value}
    (hc : Throughout P (.cls i.cls)) (hf : ∀ w ∈ i.fields.values, Throughout P w) :
    Throughout P (.inst i) := by
  refine throughout_iff.mpr ⟨hP _ rfl (fun _ he => (nomatch he)), fun w hw => ?_⟩
  cases hw with
  | cls => exact hc
  | field hw => exact hf w hw

theorem throughout_ofInterface {d : Descriptor Value} (hd : P (.ofInterface d))
    (hm : ∀ w ∈ d.members.values, Throughout P w) (he : ∀ w, d.events = some w → Throughout P w)
    (hp : ∀ w, d.properties = some w → Throughout P w) : Throughout P (.ofInterface d) := by
  refine throughout_iff.mpr ⟨hd, fun w hw => ?_⟩
  cases hw with
  | sample hw => exact hm w hw
  | events hw => exact he w hw
  | properties hw => exact hp w hw

/-! ## Genuine values -/

/-- Every interface in the value, at any depth, is known. -/
def Genuine (known : Descriptor Value → Prop) (v : Value) : Prop :=
  ∀ w d, Within w v → w.interface? = some d → known d

/-- The value is a known interface, if it is an interface at all. -/
def Known (known : Descriptor Value → Prop) (v : Value) : Prop :=
  ∀ d, v.interface? = some d → known d

theorem genuine_iff_throughout {known : Descriptor Value → Prop} {v : Value} :
    Genuine known v ↔ Throughout (Known known) v :=
  ⟨fun h w hw d hd => h w d hw hd, fun h w d hw hd => h w hw d hd⟩

/-- What is no interface need not be known. -/
theorem known_holdsOfBuilt (known : Descriptor Value → Prop) : HoldsOfBuilt (Known known) := by
  intro v hv _ d hd
  rw [hv] at hd
  cases hd

end Value

/-! ## Building values -/

namespace Expr

open Value

variable {P : Value → Prop} {vars : Table Value}

/-- A property holds throughout the class that a class expression builds if it does throughout its
members and its parent. -/
theorem throughout_build (hP : HoldsOfBuilt P) {name : String} {ctor : Signature}
    {members : List (String × Value)} {parent : Option (Class Value)}
    (hm : ∀ w ∈ members.map (·.2), Throughout P w)
    (hp : ∀ p, parent = some p → Throughout P (.cls p)) :
    Throughout P (.cls (Class.build name (classSteps ctor members parent))) := by
  refine throughout_cls hP fun w hw => ?_
  rcases Class.carries_build hw with ⟨key, h⟩ | ⟨p, hs, h⟩
  · have hmem : (key, w) ∈ members := by simpa [classSteps] using h
    exact hm w (List.mem_map_of_mem hmem)
  · have hparent : parent = some p := by simpa [classSteps] using hs
    exact (hp p hparent).part (.member h)

/-- Setting fields one after the other inserts them into the table of fields. -/
theorem fields_foldl_withField :
    ∀ (fields : List (String × Value)) (i : Instance Value),
      (fields.foldl (fun i f => i.withField f.1 f.2) i).fields = i.fields.insertAll fields
  | [], _ => rfl
  | f :: fields, i => fields_foldl_withField fields (i.withField f.1 f.2)

theorem cls_foldl_withField :
    ∀ (fields : List (String × Value)) (i : Instance Value),
      (fields.foldl (fun i f => i.withField f.1 f.2) i).cls = i.cls
  | [], _ => rfl
  | f :: fields, i => cls_foldl_withField fields (i.withField f.1 f.2)

mutual

/-- **An expression makes no interface and no map that repeats a key**: what holds throughout the
variables and of all that is built holds throughout its value. -/
theorem eval?_throughout (hP : HoldsOfBuilt P) (hvars : ∀ w ∈ vars.values, Throughout P w) :
    ∀ {e : Expr} {v : Value}, e.eval? vars = some v → Throughout P v
  | .undefined, _, h | .null, _, h | .bool _, _, h | .number _, _, h | .string _, _, h
  | .function _, _, h | .foreign _, _, h => by
    cases h
    exact throughout_iff.mpr ⟨hP _ rfl (fun _ he => (nomatch he)), fun w hw => (nomatch hw)⟩
  | .array items, _, h => by
    obtain ⟨vs, hvs, rfl⟩ := Option.map_eq_some_iff.mp h
    exact throughout_array hP (evalAll?_throughout hP hvars hvs)
  | .map entries, _, h => by
    obtain ⟨fields, hf, rfl⟩ := Option.map_eq_some_iff.mp h
    exact throughout_map hP (Table.nodup_keys_ofList fields)
      fun w hw => evalFields?_throughout hP hvars hf w (Table.mem_values_ofList hw)
  | .cls name ctor members none, _, h => by
    obtain ⟨fields, hf, rfl⟩ := Option.map_eq_some_iff.mp h
    exact throughout_build hP (evalFields?_throughout hP hvars hf) fun p hp => (nomatch hp)
  | .cls name ctor members (some parent), _, h => by
    obtain ⟨fields, hf, h⟩ := Option.bind_eq_some_iff.mp h
    obtain ⟨pv, hpv, h⟩ := Option.bind_eq_some_iff.mp h
    have hp := eval?_throughout hP hvars hpv
    -- only a class can be a parent
    split at h
    · cases h
      refine throughout_build hP (evalFields?_throughout hP hvars hf) fun p heq => ?_
      cases heq
      exact hp
    · cases h
  | .inst maker fields, _, h => by
    obtain ⟨cv, hcv, h⟩ := Option.bind_eq_some_iff.mp h
    have hc := eval?_throughout hP hvars hcv
    -- and only a class can make an instance
    split at h
    · obtain ⟨fs, hfs, rfl⟩ := Option.map_eq_some_iff.mp h
      refine throughout_inst hP ?_ fun w hw => ?_
      · rw [cls_foldl_withField]
        exact hc
      · rw [fields_foldl_withField] at hw
        exact evalFields?_throughout hP hvars hfs w (Table.mem_values_ofList hw)
    · cases h
  | .var name, _, h => hvars _ (Table.mem_values_of_get? h)
  | .part whole selector, _, h => by
    obtain ⟨wv, hwv, h⟩ := Option.bind_eq_some_iff.mp h
    exact (eval?_throughout hP hvars hwv).part (partOf_of_select? h)

theorem evalAll?_throughout (hP : HoldsOfBuilt P) (hvars : ∀ w ∈ vars.values, Throughout P w) :
    ∀ {es : List Expr} {vs : List Value}, evalAll? vars es = some vs →
      ∀ w ∈ vs, Throughout P w
  | [], _, h => by
    cases h
    exact fun w hw => (nomatch hw)
  | e :: rest, _, h => by
    obtain ⟨v, hv, h⟩ := Option.bind_eq_some_iff.mp h
    obtain ⟨vs, hvs, rfl⟩ := Option.map_eq_some_iff.mp h
    intro w hw
    rcases List.mem_cons.mp hw with rfl | hw
    · exact eval?_throughout hP hvars hv
    · exact evalAll?_throughout hP hvars hvs w hw

theorem evalFields?_throughout (hP : HoldsOfBuilt P)
    (hvars : ∀ w ∈ vars.values, Throughout P w) :
    ∀ {es : List (String × Expr)} {fs : List (String × Value)}, evalFields? vars es = some fs →
      ∀ w ∈ fs.map (·.2), Throughout P w
  | [], _, h => by
    cases h
    exact fun w hw => (nomatch hw)
  | (key, e) :: rest, _, h => by
    obtain ⟨v, hv, h⟩ := Option.bind_eq_some_iff.mp h
    obtain ⟨fs, hfs, rfl⟩ := Option.map_eq_some_iff.mp h
    intro w hw
    rcases List.mem_cons.mp hw with rfl | hw
    · exact eval?_throughout hP hvars hv
    · exact evalFields?_throughout hP hvars hfs w hw

end

end Expr

end InterfaceCheck
