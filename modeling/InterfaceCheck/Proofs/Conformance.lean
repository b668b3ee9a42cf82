import InterfaceCheck.Conformance
import InterfaceCheck.Proofs.Lookup
/-!
# What a check answers

The check of `Conformance.lean` computes; this file says what the answer means. A member *fits* a
sample (`Value.Fits`) by three comparisons, none of which looks inside a value, and a class *meets*
a requirement (`Descriptor.Meets`) if what it finds under the key fits the sample.
`Descriptor.Violates` lists the four ways to miss a requirement, each with the violation that
reports it.

- `mismatch?_eq_none_iff`, `mismatch?_eq_some_iff`: the comparison of one member is complete, and
  of several differences the kind comes before the arity and before the array.
- `shortfall?_eq_none_iff`, `shortfall?_eq_some_iff`: the same for one requirement.
- `checkImplements_answer`: the whole check. Targets that have no class come first, then values
  that carry no interface, and then the first requirement in declaration order that is missed.
-/

namespace InterfaceCheck

/-! ## Reports

A comparison reports what is wrong, or nothing. Where being right excludes every fault and the
faults exclude each other, a report that is sound is also complete. -/

/-- A report is sound if nothing is reported only of what is right, and a fault only where it is. -/
inductive SoundReport {ε : Type} (Right : Prop) (Wrong : ε → Prop) : Option ε → Prop where
  | right : Right → SoundReport Right Wrong none
  | wrong {e : ε} : Wrong e → SoundReport Right Wrong (some e)

namespace SoundReport

variable {ε : Type} {Right : Prop} {Wrong : ε → Prop} {report : Option ε}

theorem eq_none_iff (h : SoundReport Right Wrong report) (excludes : ∀ e, Right → ¬ Wrong e) :
    report = none ↔ Right := by
  cases h with
  | right hr => exact iff_of_true rfl hr
  | wrong hw => exact iff_of_false (Option.some_ne_none _) fun hr => excludes _ hr hw

theorem eq_some_iff (h : SoundReport Right Wrong report) (excludes : ∀ e, Right → ¬ Wrong e)
    (unique : ∀ e e', Wrong e → Wrong e' → e = e') {e : ε} : report = some e ↔ Wrong e := by
  cases h with
  | right hr => exact iff_of_false (Option.some_ne_none e).symm (excludes e hr)
  | wrong hw =>
    constructor
    · intro h
      exact Option.some.inj h ▸ hw
    · intro he
      rw [unique _ e hw he]

end SoundReport

/-! ## One member against one sample -/

/-- `wanted.Admits found`: a callable declared as `found` may be called as one declared as
`wanted`. The counts are equal, or a rest parameter takes up what `found` does not name. -/
def Signature.Admits (wanted found : Signature) : Prop :=
  found.arity = wanted.arity ∨ found.rest = true ∧ found.arity ≤ wanted.arity

instance (wanted found : Signature) : Decidable (wanted.Admits found) :=
  inferInstanceAs (Decidable (_ ∨ _))

theorem Signature.accepts_iff {wanted found : Signature} :
    wanted.accepts found = true ↔ wanted.Admits found := by
  unfold accepts Admits
  cases found.rest with
  | false => simp
  | true =>
    simp only [if_true, decide_eq_true_eq, true_and]
    omega

namespace Value

/-- Both of two values of one kind are callable, or neither is. -/
theorem signature?_eq_none_of_kind {v w : Value} (h : v.kind = w.kind)
    (hv : v.signature? = none) : w.signature? = none := by
  cases v <;> cases w <;> simp_all [kind, signature?]

/-- Callables are no arrays. -/
theorem isArray_of_signature? {v : Value} {s : Signature} (h : v.signature? = some s) :
    v.isArray = false := by
  cases v <;> simp_all [signature?, isArray]

/-- `sample.Fits strict member`: the member may stand where the sample is required. -/
structure Fits (strict : Bool) (sample member : Value) : Prop where
  kind : sample.kind = member.kind
  arity : ∀ wanted found, strict = true → sample.signature? = some wanted →
    member.signature? = some found → wanted.Admits found
  array : sample.isArray = true → member.isArray = true

/-- The ways in which a member fails to fit a sample, with what is reported of each. A difference
in kind hides the other two, which exclude each other. -/
inductive Misfit (strict : Bool) (sample member : Value) : Mismatch → Prop where
  | kind : sample.kind ≠ member.kind → Misfit strict sample member (.shape (.kind sample.kind))
  | arity {wanted found : Signature} : sample.kind = member.kind → strict = true →
      sample.signature? = some wanted → member.signature? = some found → ¬ wanted.Admits found →
      Misfit strict sample member (.arity wanted.arity found.arity)
  | array : sample.kind = member.kind → sample.isArray = true → member.isArray = false →
      Misfit strict sample member (.shape .array)

/-- Every value may stand where it is the sample itself. -/
theorem Fits.refl (strict : Bool) (v : Value) : Fits strict v v where
  kind := rfl
  arity wanted found _ hw hf := by
    rw [hw] at hf
    cases hf
    exact .inl rfl
  array h := h

/-- What fits does not misfit. -/
theorem Fits.not_misfit {strict : Bool} {sample member : Value} {m : Mismatch}
    (h : Fits strict sample member) : ¬ Misfit strict sample member m := by
  intro hm
  cases hm with
  | kind hk => exact hk h.kind
  | arity _ hs hw hf hn => exact hn (h.arity _ _ hs hw hf)
  | array _ ha hb =>
    rw [h.array ha] at hb
    cases hb

/-- A member misfits in one way only. -/
theorem Misfit.unique {strict : Bool} {sample member : Value} {m m' : Mismatch}
    (h : Misfit strict sample member m) (h' : Misfit strict sample member m') : m = m' := by
  cases h with
  | kind hk =>
    cases h' with
    | kind _ => rfl
    | arity hk' _ _ _ _ => exact absurd hk' hk
    | array hk' _ _ => exact absurd hk' hk
  | arity hk _ hw hf _ =>
    cases h' with
    | kind hk' => exact absurd hk hk'
    | arity _ _ hw' hf' _ =>
      rw [hw] at hw'
      rw [hf] at hf'
      cases hw'
      cases hf'
      rfl
    | array _ ha _ => rw [isArray_of_signature? hw] at ha; cases ha
  | array hk ha _ =>
    cases h' with
    | kind hk' => exact absurd hk hk'
    | arity _ _ hw _ _ => rw [isArray_of_signature? hw] at ha; cases ha
    | array _ _ _ => rfl

/-- A comparison without a result means that the member fits; a result is the one that the
member deserves. -/
theorem mismatch?_sound (strict : Bool) (sample member : Value) :
    SoundReport (Fits strict sample member) (Misfit strict sample member)
      (sample.mismatch? strict member) := by
  unfold mismatch?
  by_cases hk : sample.kind = member.kind
  · rw [if_neg (not_not_intro hk)]
    cases hs : sample.signature? with
    | none =>
      -- no arity to compare, so only the array is left
      simp only
      cases ha : sample.isArray with
      | false => exact .right ⟨hk, by simp [hs], by simp [ha]⟩
      | true =>
        cases hb : member.isArray with
        | false => exact .wrong (.array hk ha hb)
        | true => exact .right ⟨hk, by simp [hs], fun _ => hb⟩
    | some wanted =>
      have hna : ¬ sample.isArray = true := by simp [isArray_of_signature? hs]
      cases hf : member.signature? with
      | none => rw [signature?_eq_none_of_kind hk.symm hf] at hs; cases hs
      | some found =>
        simp only
        by_cases hm : strict = true ∧ ¬ wanted.Admits found
        · rw [if_pos (by simpa [← Signature.accepts_iff] using hm)]
          exact .wrong (.arity hk hm.1 hs hf hm.2)
        · rw [if_neg (by simpa [← Signature.accepts_iff] using hm)]
          refine .right ⟨hk, fun w f hst hw hf' => ?_, fun h => absurd h hna⟩
          obtain rfl : wanted = w := by rw [hs] at hw; exact Option.some.inj hw
          obtain rfl : found = f := by rw [hf] at hf'; exact Option.some.inj hf'
          exact Decidable.not_not.mp fun hn => hm ⟨hst, hn⟩
  · rw [if_pos hk]
    exact .wrong (.kind hk)

theorem mismatch?_eq_none_iff {strict : Bool} {sample member : Value} :
    sample.mismatch? strict member = none ↔ Fits strict sample member :=
  (mismatch?_sound strict sample member).eq_none_iff fun _ => Fits.not_misfit

theorem mismatch?_eq_some_iff {strict : Bool} {sample member : Value} {m : Mismatch} :
    sample.mismatch? strict member = some m ↔ Misfit strict sample member m :=
  (mismatch?_sound strict sample member).eq_some_iff (fun _ => Fits.not_misfit)
    fun _ _ => Misfit.unique

end Value

/-! ## One requirement -/

namespace Class

/-- A class finds at most one value under a key: the search has one answer. -/
theorem Finds.unique {c : Class Value} {key : String} {v w : Value} (hv : c.Finds key v)
    (hw : c.Finds key w) : v = w := by
  rw [← member?_eq_some_iff] at hv hw
  exact Option.some.inj (hv.symm.trans hw)

/-- What a class finds, it does not miss. -/
theorem Finds.not_missing {c : Class Value} {key : String} {v : Value} (h : c.Finds key v) :
    ¬ ∀ a ∈ c.lineage, a.members.get? key = none := by
  rw [← member?_eq_none_iff, member?_eq_some_iff.mpr h]
  exact Option.some_ne_none v

end Class

namespace Descriptor

/-- `d.Meets c requirement`: what the class finds under the key fits the sample. -/
def Meets (d : Descriptor Value) (c : Class Value) (requirement : String × Value) : Prop :=
  ∃ member, c.Finds requirement.1 member ∧ requirement.2.Fits d.strictArity member

/-- The ways in which a class misses a requirement, with the violation that reports each. Every
violation carries the class's own name, wherever in the lineage the member was found. -/
inductive Violates (d : Descriptor Value) (c : Class Value) (requirement : String × Value) :
    Violation → Prop where
  | missing : (∀ a ∈ c.lineage, a.members.get? requirement.1 = none) →
      Violates d c requirement (.missingMember c.name d.name requirement.1)
  | shape {member : Value} {expected : Expected} : c.Finds requirement.1 member →
      requirement.2.Misfit d.strictArity member (.shape expected) →
      Violates d c requirement (.kindMismatch c.name d.name requirement.1 expected)
  | arity {member : Value} {expected found : Nat} : c.Finds requirement.1 member →
      requirement.2.Misfit d.strictArity member (.arity expected found) →
      Violates d c requirement (.arityMismatch c.name d.name requirement.1 expected found)

variable {d : Descriptor Value} {c : Class Value} {requirement : String × Value}

theorem meets_iff :
    d.Meets c requirement ↔
      ∃ member, c.member? requirement.1 = some member ∧
        requirement.2.Fits d.strictArity member := by
  simp only [Meets, Class.member?_eq_some_iff]

theorem Meets.not_violates {v : Violation} (h : d.Meets c requirement) :
    ¬ d.Violates c requirement v := by
  obtain ⟨member, hfinds, hfits⟩ := h
  intro hv
  cases hv with
  | missing hm => exact hfinds.not_missing hm
  | shape hf hm => exact (hfinds.unique hf ▸ hfits).not_misfit hm
  | arity hf hm => exact (hfinds.unique hf ▸ hfits).not_misfit hm

/-- A requirement without a shortfall is met; a shortfall is the one that the class deserves. -/
theorem shortfall?_sound (d : Descriptor Value) (c : Class Value) (requirement : String × Value) :
    SoundReport (d.Meets c requirement) (d.Violates c requirement)
      (d.shortfall? c requirement) := by
  unfold shortfall?
  cases hm : c.member? requirement.1 with
  | none => exact .wrong (.missing (Class.member?_eq_none_iff.mp hm))
  | some member =>
    have hfinds := Class.member?_eq_some_iff.mp hm
    simp only
    cases hx : requirement.2.mismatch? d.strictArity member with
    | none => exact .right ⟨member, hfinds, Value.mismatch?_eq_none_iff.mp hx⟩
    | some m =>
      have hmis := Value.mismatch?_eq_some_iff.mp hx
      cases m with
      | shape expected => exact .wrong (.shape hfinds hmis)
      | arity expected found => exact .wrong (.arity hfinds hmis)

/-- A class misses a requirement in one way only. -/
theorem Violates.unique {v w : Violation} (hv : d.Violates c requirement v)
    (hw : d.Violates c requirement w) : v = w := by
  cases hv with
  | missing hm =>
    cases hw with
    | missing _ => rfl
    | shape hf _ => exact absurd hm hf.not_missing
    | arity hf _ => exact absurd hm hf.not_missing
  | shape hf hm =>
    cases hw with
    | missing hm' => exact absurd hm' hf.not_missing
    | shape hf' hm' => cases (hf.unique hf' ▸ hm).unique hm'; rfl
    | arity hf' hm' => cases (hf.unique hf' ▸ hm).unique hm'
  | arity hf hm =>
    cases hw with
    | missing hm' => exact absurd hm' hf.not_missing
    | shape hf' hm' => cases (hf.unique hf' ▸ hm).unique hm'
    | arity hf' hm' => cases (hf.unique hf' ▸ hm).unique hm'; rfl

theorem shortfall?_eq_none_iff : d.shortfall? c requirement = none ↔ d.Meets c requirement :=
  (shortfall?_sound d c requirement).eq_none_iff fun _ => Meets.not_violates

theorem shortfall?_eq_some_iff {v : Violation} :
    d.shortfall? c requirement = some v ↔ d.Violates c requirement v :=
  (shortfall?_sound d c requirement).eq_some_iff (fun _ => Meets.not_violates)
    fun _ _ => Violates.unique

/-! ## All requirements in order -/

/-- The first requirement that is missed decides: all before it are met. -/
theorem violation?_eq_some_iff {v : Violation} :
    d.violation? c = some v ↔
      ∃ before requirement after, d.members.entries = before ++ requirement :: after ∧
        (∀ r ∈ before, d.Meets c r) ∧ d.Violates c requirement v := by
  unfold violation?
  rw [List.findSome?_eq_some_iff]
  simp only [shortfall?_eq_none_iff, shortfall?_eq_some_iff]
  constructor
  · rintro ⟨before, r, after, hl, hr, hb⟩
    exact ⟨before, r, after, hl, hb, hr⟩
  · rintro ⟨before, r, after, hl, hb, hr⟩
    exact ⟨before, r, after, hl, hr, hb⟩

theorem violation?_eq_none_iff : d.violation? c = none ↔ ∀ r ∈ d.members.entries, d.Meets c r := by
  unfold violation?
  rw [List.findSome?_eq_none_iff]
  simp only [shortfall?_eq_none_iff]

/-- The answer of a check of a class is its violation, if there is one. -/
theorem checkClass_answer (d : Descriptor Value) (c : Class Value) :
    (d.checkClass c).answer = match d.violation? c with
      | none => .ok ()
      | some v => .error v := by
  unfold checkClass
  cases d.violation? c <;> rfl

theorem checkClass_eq_ok_iff :
    (d.checkClass c).answer = .ok () ↔ ∀ r ∈ d.members.entries, d.Meets c r := by
  rw [checkClass_answer, ← violation?_eq_none_iff]
  cases d.violation? c <;> simp

theorem checkClass_eq_error_iff {v : Violation} :
    (d.checkClass c).answer = .error v ↔
      ∃ before requirement after, d.members.entries = before ++ requirement :: after ∧
        (∀ r ∈ before, d.Meets c r) ∧ d.Violates c requirement v := by
  rw [checkClass_answer, ← violation?_eq_some_iff]
  cases d.violation? c <;> simp

end Descriptor

/-! ## The check -/

/-- `v.HasClass c`: a check of `v` looks at `c`. Only classes and instances have a class. -/
inductive Value.HasClass : Value → Class Value → Prop where
  | cls (c : Class Value) : HasClass (.cls c) c
  | inst (i : Instance Value) : HasClass (.inst i) i.cls

theorem Value.class?_eq_some_iff {v : Value} {c : Class Value} :
    v.class? = some c ↔ v.HasClass c := by
  constructor
  · intro h
    cases v <;> simp only [class?, Option.some.injEq, reduceCtorEq] at h
    case cls => subst h; exact .cls _
    case inst => subst h; exact .inst _
  · rintro (_ | _) <;> rfl

/-- `c.Implements d`: the class passes the check against the interface. -/
def Class.Implements (c : Class Value) (d : Descriptor Value) : Prop :=
  (checkImplements (.cls c) (.ofInterface d)).answer = .ok ()

theorem Class.implements_iff {c : Class Value} {d : Descriptor Value} :
    c.Implements d ↔ ∀ r ∈ d.members.entries, d.Meets c r :=
  Descriptor.checkClass_eq_ok_iff

/-- **What a check answers**, for every target and every value in the place of the interface. A
target without a class is refused whatever the interface is; then a value that carries no
interface is; and then the answer is about the first requirement, in declaration order, that the
class of the target misses. -/
theorem checkImplements_answer (target interface : Value) :
    ((∀ c, ¬ target.HasClass c) →
      (checkImplements target interface).answer = .error (.invalidTarget target.display)) ∧
    ∀ c, target.HasClass c →
      ((∀ d, interface ≠ .ofInterface d) →
        (checkImplements target interface).answer =
          .error (.invalidInterface interface.display)) ∧
      ∀ d, interface = .ofInterface d →
        ((checkImplements target interface).answer = .ok () ↔
          ∀ r ∈ d.members.entries, d.Meets c r) ∧
        ∀ v, (checkImplements target interface).answer = .error v ↔
          ∃ before requirement after, d.members.entries = before ++ requirement :: after ∧
            (∀ r ∈ before, d.Meets c r) ∧ d.Violates c requirement v := by
  refine ⟨fun hno => ?_, fun c hc => ⟨fun hno => ?_, fun d hd => ?_⟩⟩
  · have hnone : target.class? = none :=
      Option.eq_none_iff_forall_ne_some.mpr fun c h => hno c (Value.class?_eq_some_iff.mp h)
    simp [checkImplements, hnone]
  · have hnone : interface.interface? = none :=
      Option.eq_none_iff_forall_ne_some.mpr fun d h =>
        hno d (Value.interface?_eq_some_iff.mp h)
    simp [checkImplements, Value.class?_eq_some_iff.mpr hc, hnone]
  · have hchecks : checkImplements target interface = d.checkClass c := by
      simp [checkImplements, Value.class?_eq_some_iff.mpr hc, hd]
    rw [hchecks]
    exact ⟨Descriptor.checkClass_eq_ok_iff, fun v => Descriptor.checkClass_eq_error_iff⟩

/-- An inherited method that asks for one argument too many is reported under the name of the class
that inherits it. -/
theorem checkImplements_answer_inherited :
    let round : Class Value :=
      ⟨"Round", ⟨0, false⟩, none, .ofList [("area", .function ⟨1, false⟩)]⟩
    let disc : Class Value := ⟨"Disc", ⟨0, false⟩, some round, .empty⟩
    let shape : Descriptor Value :=
      ⟨"geo.Shape", .ofList [("area", .function ⟨0, false⟩)], none, none, true⟩
    (checkImplements (.inst (.of disc)) (.ofInterface shape)).answer =
      .error (.arityMismatch "Disc" "geo.Shape" "area" 0 1) := by
  intro round disc shape
  have hfinds : disc.Finds "area" (.function ⟨1, false⟩) :=
    ⟨[disc], round, [], rfl, by simp [disc, Table.empty, Table.get?], rfl⟩
  have hrefused : ¬ Signature.Admits ⟨0, false⟩ ⟨1, false⟩ := by decide
  have hmisfit : Value.Misfit true (.function ⟨0, false⟩) (.function ⟨1, false⟩) (.arity 0 1) :=
    .arity (by rfl) rfl rfl rfl hrefused
  have h := ((checkImplements_answer (.inst (.of disc)) (.ofInterface shape)).2 disc (.inst _)).2
    shape rfl
  exact (h.2 _).mpr ⟨[], ("area", .function ⟨0, false⟩), [], rfl, nofun,
    .arity hfinds hmisfit⟩

end InterfaceCheck
