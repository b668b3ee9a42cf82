import InterfaceCheck.Proofs.Conformance
import InterfaceCheck.Proofs.Table
/-!
# Checks compose along substitution

A member that fits a sample may serve as a sample itself, and what fits it then should fit the first
sample. It does, but for one gap: a rest parameter lets a member declare fewer parameters than its
sample, and a member without one that copies the smaller count takes too few arguments.

- `Signature.Admits.trans_iff`: admission of signatures composes exactly outside the gap;
- `Value.Fits.trans_iff`: so does the comparison of values, which otherwise composes part by part;
- `implements_of_sampledFrom_iff`: the same for a class that is checked against the members of
  another one;
- `fitting_composes`: all of it, with the mismatch that the gap leads to.
-/

namespace InterfaceCheck

/-! ## Signatures -/

namespace Signature

/-- `wanted.Gap middle found`: `middle` declares fewer parameters than wanted and makes up for it by
a rest parameter, which `found` lacks. -/
structure Gap (wanted middle found : Signature) : Prop where
  rest : middle.rest = true
  noRest : found.rest = false
  short : middle.arity < wanted.arity

variable {wanted middle found : Signature}

/-- In a gap the last signature is not admitted: without a rest parameter it has the count of the
middle one, which is too small. -/
theorem Gap.not_admits (hgap : wanted.Gap middle found) (h : middle.Admits found) :
    ¬ wanted.Admits found := by
  obtain ⟨_, hno, hshort⟩ := hgap
  have hcount : found.arity = middle.arity := by
    rcases h with heq | ⟨hrest, _⟩
    · exact heq
    · rw [hno] at hrest
      cases hrest
  rintro (heq | ⟨hrest, _⟩)
  · omega
  · rw [hno] at hrest
    cases hrest

/-- **Admission composes exactly outside the gap.** -/
theorem Admits.trans_iff (h : wanted.Admits middle) (h' : middle.Admits found) :
    wanted.Admits found ↔ ¬ wanted.Gap middle found := by
  constructor
  · intro hadmits hgap
    exact hgap.not_admits h' hadmits
  · intro hgap
    have hle : middle.arity ≤ wanted.arity := by
      rcases h with heq | ⟨_, hle⟩ <;> omega
    rcases h' with heq | ⟨hrest, hle'⟩
    · -- `found` has the count of `middle`; if that is too small, both need a rest parameter
      by_cases hshort : middle.arity < wanted.arity
      · have hmiddle : middle.rest = true := by
          rcases h with h | ⟨hrest, _⟩
          · omega
          · exact hrest
        have hfound : found.rest = true := by
          cases hno : found.rest with
          | true => rfl
          | false => exact absurd ⟨hmiddle, hno, hshort⟩ hgap
        exact .inr ⟨hfound, by omega⟩
      · exact .inl (by omega)
    · exact .inr ⟨hrest, by omega⟩

end Signature

/-! ## Values -/

namespace Value

/-- `Gap strict a b c`: arities are compared, and the signatures of the three have a gap. -/
def Gap (strict : Bool) (a b c : Value) : Prop :=
  strict = true ∧ ∃ wanted middle found, a.signature? = some wanted ∧
    b.signature? = some middle ∧ c.signature? = some found ∧ wanted.Gap middle found

variable {strict : Bool} {a b c : Value}

/-- What fits a callable is callable. -/
theorem Fits.exists_signature (h : Fits strict a b) {wanted : Signature}
    (ha : a.signature? = some wanted) : ∃ middle, b.signature? = some middle := by
  cases hb : b.signature? with
  | none =>
    rw [signature?_eq_none_of_kind h.kind.symm hb] at ha
    cases ha
  | some middle => exact ⟨middle, rfl⟩

/-- **Fitting composes exactly outside the gap.** -/
theorem Fits.trans_iff (hab : Fits strict a b) (hbc : Fits strict b c) :
    Fits strict a c ↔ ¬ Gap strict a b c := by
  constructor
  · rintro hac ⟨hstrict, wanted, middle, found, ha, hb, hc, hgap⟩
    have hmiddle : middle.Admits found := hbc.arity _ _ hstrict hb hc
    exact hgap.not_admits hmiddle (hac.arity _ _ hstrict ha hc)
  · intro hgap
    refine ⟨hab.kind.trans hbc.kind, ?_, fun h => hbc.array (hab.array h)⟩
    intro wanted found hstrict ha hc
    obtain ⟨middle, hb⟩ := hab.exists_signature ha
    have hwanted : wanted.Admits middle := hab.arity _ _ hstrict ha hb
    have hmiddle : middle.Admits found := hbc.arity _ _ hstrict hb hc
    exact (hwanted.trans_iff hmiddle).mpr fun h =>
      hgap ⟨hstrict, wanted, middle, found, ha, hb, hc, h⟩

/-- In the gap the comparison finds the arities of the first and the last, and nothing else. -/
theorem mismatch?_of_gap (hab : Fits strict a b) (hbc : Fits strict b c)
    {wanted middle found : Signature} (hstrict : strict = true) (ha : a.signature? = some wanted)
    (hb : b.signature? = some middle) (hc : c.signature? = some found)
    (hgap : wanted.Gap middle found) :
    a.mismatch? strict c = some (.arity wanted.arity found.arity) := by
  have hmiddle : middle.Admits found := hbc.arity _ _ hstrict hb hc
  exact mismatch?_eq_some_iff.mpr
    (.arity (hab.kind.trans hbc.kind) hstrict ha hc (hgap.not_admits hmiddle))

end Value

/-! ## Classes -/

/-- `e.SampledFrom b d`: whatever `d` requires, `e` requires with the member of `b` for a sample,
and with the same strictness. -/
structure Descriptor.SampledFrom (e : Descriptor Value) (b : Class Value) (d : Descriptor Value) :
    Prop where
  strictArity : e.strictArity = d.strictArity
  samples : ∀ key ∈ d.members.keys, e.members.get? key = b.member? key

namespace Descriptor

variable {d e : Descriptor Value} {b c : Class Value}

/-- Under each required key the member of the first class fits the sample, and the member of the
second class fits it. -/
theorem SampledFrom.exists_fits (he : e.SampledFrom b d) (hb : b.Implements d)
    (hc : c.Implements e) {r : String × Value} (hr : r ∈ d.members.entries) :
    ∃ middle found, b.member? r.1 = some middle ∧ c.member? r.1 = some found ∧
      r.2.Fits d.strictArity middle ∧ middle.Fits d.strictArity found := by
  obtain ⟨middle, hmiddle, hfits⟩ := meets_iff.mp (Class.implements_iff.mp hb r hr)
  -- the member is a sample of the second interface
  have hsample : (r.1, middle) ∈ e.members.entries :=
    Table.mem_entries_of_get? ((he.samples r.1 (List.mem_map_of_mem hr)).trans hmiddle)
  obtain ⟨found, hfound, hfits'⟩ := meets_iff.mp (Class.implements_iff.mp hc _ hsample)
  rw [he.strictArity] at hfits'
  exact ⟨middle, found, hmiddle, hfound, hfits, hfits'⟩

/-- **Conformance composes exactly where no required key has a gap.** -/
theorem implements_of_sampledFrom_iff (he : e.SampledFrom b d) (hb : b.Implements d)
    (hc : c.Implements e) :
    c.Implements d ↔ ∀ r ∈ d.members.entries, ∀ middle found, b.member? r.1 = some middle →
      c.member? r.1 = some found → ¬ Value.Gap d.strictArity r.2 middle found := by
  rw [Class.implements_iff]
  refine forall₂_congr fun r hr => ?_
  obtain ⟨middle, found, hmiddle, hfound, hfits, hfits'⟩ := he.exists_fits hb hc hr
  rw [meets_iff, hmiddle, hfound]
  simp [hfits.trans_iff hfits']

end Descriptor

/-- **Fitting composes.** For one choice of strictness:

1. every value fits itself;
2. if `b` fits `a` and `c` fits `b`, then `c` fits `a` unless there is a gap, and with a gap the two
   arities are found to differ;
3. if one class implements an interface, and another class the interface that has the members of the
   first for samples, then the other implements the interface as well, provided that arities are not
   compared or that no required member of the first class has a rest parameter. -/
theorem fitting_composes :
    (∀ strict v, Value.mismatch? strict v v = none) ∧
    (∀ strict (a b c : Value), a.mismatch? strict b = none → b.mismatch? strict c = none →
      (a.mismatch? strict c = none ↔ ¬ Value.Gap strict a b c) ∧
      ∀ wanted middle found, strict = true → a.signature? = some wanted →
        b.signature? = some middle → c.signature? = some found → wanted.Gap middle found →
          a.mismatch? strict c = some (.arity wanted.arity found.arity)) ∧
    ∀ (d e : Descriptor Value) (b c : Class Value), e.SampledFrom b d → b.Implements d →
      c.Implements e →
      (d.strictArity = false ∨ ∀ key ∈ d.members.keys, ∀ member signature,
        b.member? key = some member → member.signature? = some signature →
          signature.rest = false) →
      c.Implements d := by
  refine ⟨?_, ?_, ?_⟩
  · intro strict v
    exact Value.mismatch?_eq_none_iff.mpr (.refl strict v)
  · intro strict a b c hab hbc
    have hab := Value.mismatch?_eq_none_iff.mp hab
    have hbc := Value.mismatch?_eq_none_iff.mp hbc
    refine ⟨Value.mismatch?_eq_none_iff.trans (hab.trans_iff hbc), ?_⟩
    intro wanted middle found hstrict ha hb hc hgap
    exact Value.mismatch?_of_gap hab hbc hstrict ha hb hc hgap
  · intro d e b c he hb hc hproviso
    refine (Descriptor.implements_of_sampledFrom_iff he hb hc).mpr ?_
    rintro r hr middle found hmiddle - ⟨hstrict, _, signature, _, _, hsignature, _, hgap⟩
    rcases hproviso with hlenient | hfixed
    · rw [hlenient] at hstrict
      cases hstrict
    · have hrest := hfixed r.1 (List.mem_map_of_mem hr) middle signature hmiddle hsignature
      rw [hgap.rest] at hrest
      cases hrest

/-- A pipe that can stand for a file can stand for what the file is checked against. With a method
that takes any number of arguments it need not be so: a tap that declares the one parameter of a log
takes less than a writer has to. -/
theorem fitting_composes_pipe :
    let writer : Descriptor Value := ⟨"io.Writer",
      .ofList [("write", .function ⟨2, false⟩), ("buffer", .array [])], none, none, true⟩
    let file : Class Value := ⟨"io.File", ⟨0, false⟩, none,
      .ofList [("buffer", .array [.null]), ("write", .function ⟨2, false⟩)]⟩
    let fileLike : Descriptor Value := ⟨"io.FileLike",
      .ofList [("buffer", .array [.null]), ("write", .function ⟨2, false⟩)], none, none, true⟩
    let pipe : Class Value := ⟨"io.Pipe", ⟨0, false⟩, some file,
      .ofList [("write", .function ⟨1, true⟩)]⟩
    let log : Value := .function ⟨1, true⟩
    let tap : Value := .function ⟨1, false⟩
    file.Implements writer ∧ pipe.Implements fileLike ∧ pipe.Implements writer ∧
      (Value.function ⟨2, false⟩).mismatch? true log = none ∧ log.mismatch? true tap = none ∧
      (Value.function ⟨2, false⟩).mismatch? true tap = some (.arity 2 1) := by
  intro writer file fileLike pipe log tap
  obtain ⟨-, hcompose, hlift⟩ := fitting_composes
  have hkeys : ∀ key ∈ writer.members.keys, key = "write" ∨ key = "buffer" := by
    intro key hkey
    have hkey : key ∈ ["write", "buffer"] := hkey
    simpa using hkey
  refine ⟨rfl, rfl, hlift writer fileLike file pipe ⟨rfl, ?_⟩ rfl rfl (.inr ?_), rfl, rfl, ?_⟩
  · intro key hkey
    rcases hkeys key hkey with rfl | rfl <;> rfl
  · intro key hkey member signature hmember hsignature
    rcases hkeys key hkey with rfl | rfl <;> cases hmember <;> cases hsignature
    rfl
  · exact (hcompose true _ log tap rfl rfl).2 ⟨2, false⟩ ⟨1, true⟩ ⟨1, false⟩ rfl rfl rfl rfl
      ⟨rfl, rfl, by decide⟩

end InterfaceCheck
