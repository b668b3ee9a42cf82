import InterfaceCheck.Proofs.Conformance
import Mathlib.Data.List.Forall2
/-!
# Checks are shallow

A check looks at values from outside only. The *shape* of a value (`Value.shape`) is all that a
comparison sees of it: its kind, whether it is an array, and the signature if it can be called. Two
interfaces *ask alike* and two classes *offer alike* if they differ at most in what shapes do not
show, and then a check cannot tell them apart.

- `mismatch?_eq_of_shape`, `shortfall?_eq_of_shape`: one comparison and one requirement;
- `checkClass_eq_of_alike`: a whole check, with what it reports;
- `checkImplements_shallow`: the same for all targets, with the things that never matter.
-/

namespace InterfaceCheck

/-! ## Shapes -/

/-- What a check sees of a value. -/
structure Shape where
  kind : Kind
  isArray : Bool
  /-- The signature, if the value can be called. -/
  signature? : Option Signature
deriving DecidableEq, Repr

namespace Value

def shape (v : Value) : Shape := ⟨v.kind, v.isArray, v.signature?⟩

/-- A comparison depends on the shapes of the two values, and so does what it finds. -/
theorem mismatch?_eq_of_shape {sample sample' member member' : Value}
    (hs : sample.shape = sample'.shape) (hm : member.shape = member'.shape) (strict : Bool) :
    sample.mismatch? strict member = sample'.mismatch? strict member' := by
  obtain ⟨hkind, harray, hsignature⟩ := Shape.mk.inj hs
  obtain ⟨hkind', harray', hsignature'⟩ := Shape.mk.inj hm
  unfold mismatch?
  rw [hkind, hkind', harray, harray', hsignature, hsignature']

end Value

/-! ## Alike interfaces and classes -/

/-- The same key is required, with samples of one shape. -/
def SameRequirement (r r' : String × Value) : Prop := r.1 = r'.1 ∧ r.2.shape = r'.2.shape

/-- Two interfaces of one name and strictness that require the same keys in the same order, with
samples of the same shapes. -/
structure Descriptor.AsksAlike (d d' : Descriptor Value) : Prop where
  name : d.name = d'.name
  strictArity : d.strictArity = d'.strictArity
  members : List.Forall₂ SameRequirement d.members.entries d'.members.entries

/-- Two classes of one name that under each of the keys both find nothing or find members of one
shape. -/
structure Class.OffersAlike (keys : List String) (c c' : Class Value) : Prop where
  name : c.name = c'.name
  members : ∀ key ∈ keys, (c.member? key).map Value.shape = (c'.member? key).map Value.shape

theorem Descriptor.AsksAlike.refl (d : Descriptor Value) : d.AsksAlike d where
  name := rfl
  strictArity := rfl
  members := List.forall₂_same.mpr fun _ _ => ⟨rfl, rfl⟩

theorem Class.OffersAlike.refl (keys : List String) (c : Class Value) : c.OffersAlike keys c where
  name := rfl
  members _ _ := rfl

/-! ## Checks of what is alike -/

/-- A search over two lists that are related item by item stops at the same place. -/
theorem findSome?_eq_of_forall₂ {α β γ : Type} {R : α → β → Prop} {f : α → Option γ}
    {g : β → Option γ} {l : List α} {l' : List β} (h : List.Forall₂ R l l')
    (hfg : ∀ a ∈ l, ∀ b, R a b → f a = g b) : l.findSome? f = l'.findSome? g := by
  induction h with
  | nil => rfl
  | @cons a b l l' hab _ ih =>
    have ih := ih fun a' ha' => hfg a' (List.mem_cons_of_mem a ha')
    rw [List.findSome?_cons, List.findSome?_cons, hfg a (by simp) b hab, ih]

namespace Descriptor

variable {d d' : Descriptor Value} {c c' : Class Value}

/-- How a class falls short of a requirement depends on shapes, and so does the violation. -/
theorem shortfall?_eq_of_shape (hname : d.name = d'.name)
    (hstrict : d.strictArity = d'.strictArity) (hclass : c.name = c'.name)
    {r r' : String × Value} (hr : SameRequirement r r')
    (hfound : (c.member? r.1).map Value.shape = (c'.member? r.1).map Value.shape) :
    d.shortfall? c r = d'.shortfall? c' r' := by
  obtain ⟨key, sample⟩ := r
  obtain ⟨key', sample'⟩ := r'
  obtain ⟨hkey, hsample⟩ := hr
  obtain rfl : key = key' := hkey
  unfold shortfall?
  simp only at hfound hsample ⊢
  cases hm : c.member? key with
  | none =>
    cases hm' : c'.member? key with
    | none => rw [hname, hclass]
    | some member' => rw [hm, hm'] at hfound; cases hfound
  | some member =>
    cases hm' : c'.member? key with
    | none => rw [hm, hm'] at hfound; cases hfound
    | some member' =>
      rw [hm, hm'] at hfound
      have hmember : member.shape = member'.shape := Option.some.inj hfound
      simp only
      rw [Value.mismatch?_eq_of_shape hsample hmember, hname, hstrict, hclass]

/-- The checks of classes that offer alike against interfaces that ask alike come to the same, and
report the same. -/
theorem checkClass_eq_of_alike (hd : d.AsksAlike d') (hc : c.OffersAlike d.members.keys c') :
    d.checkClass c = d'.checkClass c' := by
  have hviolation : d.violation? c = d'.violation? c' :=
    findSome?_eq_of_forall₂ hd.members fun r hr r' hrr' =>
      shortfall?_eq_of_shape hd.name hd.strictArity hc.name hrr'
        (hc.members r.1 (List.mem_map_of_mem hr))
  unfold checkClass
  rw [hviolation, hd.name, hc.name]

end Descriptor

/-- A target with a class is checked through it. -/
theorem checkImplements_of_hasClass {target : Value} {c : Class Value} (h : target.HasClass c)
    (d : Descriptor Value) : checkImplements target (.ofInterface d) = d.checkClass c := by
  rw [checkImplements_ofInterface, Descriptor.check, Value.class?_eq_some_iff.mpr h]

/-! ## What never matters -/

/-- Of an instance the own fields do not count. -/
theorem checkImplements_fields (c : Class Value) (fields : Table Value) (interface : Value) :
    checkImplements (.inst ⟨c, fields⟩) interface = checkImplements (.cls c) interface := rfl

/-- The metadata of an interface does not count. -/
theorem Descriptor.asksAlike_metadata (d : Descriptor Value) (events properties : Option Value) :
    ({ d with events := events, properties := properties } : Descriptor Value).AsksAlike d :=
  ⟨rfl, rfl, (AsksAlike.refl d).members⟩

/-- Samples of one shape may stand for each other. -/
theorem Descriptor.asksAlike_insert (d : Descriptor Value) (key : String) {v w : Value}
    (h : v.shape = w.shape) :
    ({ d with members := d.members.insert key v } : Descriptor Value).AsksAlike
      { d with members := d.members.insert key w } where
  name := rfl
  strictArity := rfl
  members := by
    show List.Forall₂ _ (Table.put key v d.members.entries) (Table.put key w d.members.entries)
    induction d.members.entries with
    | nil => exact .cons ⟨rfl, h⟩ .nil
    | cons e rest ih =>
      unfold Table.put
      by_cases hk : e.1 = key
      · rw [if_pos hk, if_pos hk]
        exact .cons ⟨rfl, h⟩ (List.forall₂_same.mpr fun _ _ => ⟨rfl, rfl⟩)
      · rw [if_neg hk, if_neg hk]
        exact .cons ⟨rfl, rfl⟩ ih

namespace Class

theorem member?_apply_self (c : Class Value) (key : String) (v : Value) :
    (c.apply (.member key v)).member? key = some v :=
  member?_of_own (Table.get?_insert_self c.members key v)

theorem member?_apply_of_ne (c : Class Value) {key other : String} (h : other ≠ key) (v : Value) :
    (c.apply (.member key v)).member? other = c.member? other := by
  rw [member?_eq, member?_eq c]
  show ((c.members.insert key v).get? other).or _ = _
  rw [Table.get?_insert_of_ne c.members h v]
  rfl

/-- A member under a key that is not required does not count. -/
theorem offersAlike_unrequired (c : Class Value) {keys : List String} {key : String}
    (h : key ∉ keys) (v : Value) : (c.apply (.member key v)).OffersAlike keys c where
  name := rfl
  members other ho := by
    have hne : other ≠ key := fun heq => h (heq ▸ ho)
    rw [member?_apply_of_ne c hne]

/-- Members of one shape may stand for each other. -/
theorem offersAlike_member (c : Class Value) (keys : List String) (key : String) {v w : Value}
    (h : v.shape = w.shape) :
    (c.apply (.member key v)).OffersAlike keys (c.apply (.member key w)) where
  name := rfl
  members other _ := by
    by_cases ho : other = key
    · subst ho
      rw [member?_apply_self, member?_apply_self, Option.map_some, Option.map_some, h]
    · rw [member?_apply_of_ne c ho, member?_apply_of_ne c ho]

/-- The class with its own members moved up into a new parent between it and its ancestors. -/
def raised (c : Class Value) (name : String) (ctor : Signature) : Class Value :=
  { c with parent := some { c with name := name, ctor := ctor }, members := .empty }

/-- How far up the chain a member sits does not count. -/
theorem offersAlike_raised (c : Class Value) (keys : List String) (name : String)
    (ctor : Signature) : (c.raised name ctor).OffersAlike keys c where
  name := rfl
  members key _ := by
    have hparent : (c.raised name ctor).member? key =
        (({ c with name := name, ctor := ctor } : Class Value).member? key) :=
      member?_of_not_own rfl
    rw [hparent, member?_eq, member?_eq c]

end Class

/-- **Checks are shallow.** Targets whose classes offer alike are checked alike against interfaces
that ask alike, with the same answer to the last detail and the same report. So none of these ever
matters: the fields of an instance; events and properties of an interface; members that are not
required; which of several values of one shape is the sample or the member, and so the value of a
scalar, the items of an array and the entries of a map; and how far up the chain a member sits. -/
theorem checkImplements_shallow :
    (∀ (target target' : Value) (c c' : Class Value) (d d' : Descriptor Value),
      target.HasClass c → target'.HasClass c' → d.AsksAlike d' →
        c.OffersAlike d.members.keys c' →
          checkImplements target (.ofInterface d) = checkImplements target' (.ofInterface d')) ∧
    (∀ (c : Class Value) (fields : Table Value) (interface : Value),
      checkImplements (.inst ⟨c, fields⟩) interface = checkImplements (.cls c) interface) ∧
    (∀ (c : Class Value) (d : Descriptor Value),
      (∀ events properties,
        checkImplements (.cls c)
            (.ofInterface { d with events := events, properties := properties })
          = checkImplements (.cls c) (.ofInterface d)) ∧
      (∀ key v, key ∉ d.members.keys →
        checkImplements (.cls (c.apply (.member key v))) (.ofInterface d) =
          checkImplements (.cls c) (.ofInterface d)) ∧
      (∀ key v w, v.shape = w.shape →
        checkImplements (.cls (c.apply (.member key v))) (.ofInterface d) =
          checkImplements (.cls (c.apply (.member key w))) (.ofInterface d) ∧
        checkImplements (.cls c) (.ofInterface { d with members := d.members.insert key v }) =
          checkImplements (.cls c) (.ofInterface { d with members := d.members.insert key w })) ∧
      ∀ name ctor, checkImplements (.cls (c.raised name ctor)) (.ofInterface d) =
        checkImplements (.cls c) (.ofInterface d)) ∧
    (∀ a b, (Value.bool a).shape = (Value.bool b).shape) ∧
    (∀ x y, (Value.number x).shape = (Value.number y).shape) ∧
    (∀ s t, (Value.string s).shape = (Value.string t).shape) ∧
    (∀ items items', (Value.array items).shape = (Value.array items').shape) ∧
    ∀ entries entries', (Value.map entries).shape = (Value.map entries').shape := by
  have hgeneral : ∀ (target target' : Value) (c c' : Class Value) (d d' : Descriptor Value),
      target.HasClass c → target'.HasClass c' → d.AsksAlike d' →
        c.OffersAlike d.members.keys c' →
          checkImplements target (.ofInterface d) = checkImplements target' (.ofInterface d') := by
    intro target target' c c' d d' hc hc' hd hoffers
    rw [checkImplements_of_hasClass hc, checkImplements_of_hasClass hc']
    exact Descriptor.checkClass_eq_of_alike hd hoffers
  refine ⟨hgeneral, checkImplements_fields, fun c d => ⟨fun events properties => ?_,
    fun key v hkey => ?_, fun key v w hvw => ⟨?_, ?_⟩, fun name ctor => ?_⟩,
    fun _ _ => rfl, fun _ _ => rfl, fun _ _ => rfl, fun _ _ => rfl, fun _ _ => rfl⟩
  · exact hgeneral _ _ c c _ _ (.cls c) (.cls c) (d.asksAlike_metadata events properties)
      (.refl _ c)
  · exact hgeneral _ _ _ _ _ _ (.cls _) (.cls c) (.refl d) (c.offersAlike_unrequired hkey v)
  · exact hgeneral _ _ _ _ _ _ (.cls _) (.cls _) (.refl d) (c.offersAlike_member _ key hvw)
  · exact hgeneral _ _ _ _ _ _ (.cls c) (.cls c) (d.asksAlike_insert key hvw) (.refl _ c)
  · exact hgeneral _ _ _ _ _ _ (.cls _) (.cls c) (.refl d) (c.offersAlike_raised _ name ctor)

/-- An instance whose class inherits two of the members, and a class of the same name that has a
class where the other has a function, are refused in the same words by two interfaces with other
samples. A further member, and another text under `label`, would not change that. -/
theorem checkImplements_shallow_panels :
    let base : Class Value := ⟨"app.Base", ⟨0, false⟩, none,
      .ofList [("label", .string "Panel"), ("close", .function ⟨1, false⟩)]⟩
    let panel : Class Value := ⟨"app.Panel", ⟨0, false⟩, some base, .ofList [("options", .null)]⟩
    let flat : Class Value := ⟨"app.Panel", ⟨2, true⟩, none,
      .ofList [("close", .cls ⟨"app.Close", ⟨1, false⟩, none, .empty⟩), ("label", .string ""),
        ("options", .map .empty)]⟩
    let d : Descriptor Value := ⟨"app.Widget", .ofList [("options", .map .empty),
      ("label", .string "sample"), ("close", .function ⟨0, false⟩)], some .null, none, true⟩
    let d' : Descriptor Value := ⟨"app.Widget", .ofList [("options", .null),
      ("label", .string ""), ("close", .function ⟨0, false⟩)], none, none, true⟩
    checkImplements (.inst ⟨panel, .ofList [("close", .null)]⟩) (.ofInterface d) =
        checkImplements (.cls flat) (.ofInterface d') ∧
      (checkImplements (.cls flat) (.ofInterface d')).answer =
        .error (.arityMismatch "app.Panel" "app.Widget" "close" 0 1) ∧
      checkImplements (.cls (flat.apply (.member "extra" .null))) (.ofInterface d') =
        checkImplements (.cls flat) (.ofInterface d') ∧
      checkImplements (.cls (flat.apply (.member "label" (.string "a")))) (.ofInterface d') =
        checkImplements (.cls (flat.apply (.member "label" (.string "b")))) (.ofInterface d') := by
  intro base panel flat d d'
  have hasks : d.AsksAlike d' :=
    ⟨rfl, rfl, .cons ⟨rfl, rfl⟩ (.cons ⟨rfl, rfl⟩ (.cons ⟨rfl, rfl⟩ .nil))⟩
  have hoffers : panel.OffersAlike d.members.keys flat := by
    refine ⟨rfl, fun key hkey => ?_⟩
    have hkeys : key = "options" ∨ key = "label" ∨ key = "close" := by
      simpa [d, Table.keys, Table.ofList, Table.insertAll, Table.insert, Table.put,
        Table.empty] using hkey
    rcases hkeys with rfl | rfl | rfl <;> rfl
  obtain ⟨hgeneral, -, hparts, -⟩ := checkImplements_shallow
  refine ⟨hgeneral _ _ panel flat d d' (.inst _) (.cls flat) hasks hoffers, rfl,
    (hparts flat d').2.1 "extra" .null (by decide), ((hparts flat d').2.2.1 "label" _ _ rfl).1⟩

end InterfaceCheck
