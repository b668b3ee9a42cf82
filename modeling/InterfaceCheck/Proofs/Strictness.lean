import InterfaceCheck.Proofs.Conformance
/-!
# Strict and lenient checks

An interface compares arities or it does not. A lenient check is a strict one that passes over
differences in arity, and over nothing else: one comparison at a time (`mismatch?_lenient`), one
requirement at a time (`shortfall?_lenient`), and so for the whole search, which goes on behind the
requirement at which the strict one stops (`findSome?_filter`).

`strict_and_lenient` says what the two checks of one target can answer.
-/

namespace InterfaceCheck

/-! ## Passing over arities -/

/-- Whether the members differ in kind, or in being an array. -/
def Mismatch.isShape : Mismatch → Bool
  | .shape _ => true
  | .arity _ _ => false

/-- Whether callables differ in arity. -/
def Violation.isArity : Violation → Bool
  | .arityMismatch _ _ _ _ _ => true
  | _ => false

theorem Violation.isArity_iff {v : Violation} :
    v.isArity = true ↔
      ∃ cls interface key expected found, v = .arityMismatch cls interface key expected found := by
  constructor
  · intro h
    cases v with
    | arityMismatch cls interface key expected found => exact ⟨_, _, _, _, _, rfl⟩
    | _ => cases h
  · rintro ⟨_, _, _, _, _, rfl⟩
    rfl

/-- Without strictness a comparison finds what it finds with it, arities apart. -/
theorem Value.mismatch?_lenient (sample member : Value) :
    sample.mismatch? false member = (sample.mismatch? true member).filter Mismatch.isShape := by
  unfold mismatch?
  by_cases hkind : sample.kind = member.kind
  · rw [if_neg (not_not_intro hkind), if_neg (not_not_intro hkind)]
    cases sample.signature? with
    | none =>
      simp only
      split <;> rfl
    | some wanted =>
      cases member.signature? with
      | none =>
        simp only
        split <;> rfl
      | some found =>
        simp only [Bool.false_and, Bool.true_and, Bool.false_eq_true, if_false]
        split <;> rfl
  · rw [if_pos hkind, if_pos hkind]
    rfl

namespace Descriptor

/-- The interface with arities compared, or not. -/
def withStrictness (d : Descriptor Value) (strict : Bool) : Descriptor Value :=
  { d with strictArity := strict }

/-- The same for one requirement. -/
theorem shortfall?_lenient (d : Descriptor Value) (c : Class Value) (r : String × Value) :
    (d.withStrictness false).shortfall? c r =
      ((d.withStrictness true).shortfall? c r).filter (!·.isArity) := by
  unfold shortfall?
  cases c.member? r.1 with
  | none => rfl
  | some member =>
    show (r.2.mismatch? false member).map _ = ((r.2.mismatch? true member).map _).filter _
    rw [Value.mismatch?_lenient]
    cases r.2.mismatch? true member with
    | none => rfl
    | some m => cases m <;> rfl

end Descriptor

/-! ## Passing over in a search -/

/-- What a search finds, and what it finds when some of the finds are passed over: the same, if the
first find is not passed over, and otherwise what is found behind it. -/
theorem findSome?_filter {α β : Type} (f : α → Option β) (keep : β → Bool) (l : List α) :
    l.findSome? (fun a => (f a).filter keep) = l.findSome? f ∨
      ∃ before a after b, l = before ++ a :: after ∧ f a = some b ∧ keep b = false ∧
        l.findSome? f = some b ∧
        l.findSome? (fun a => (f a).filter keep) =
          after.findSome? (fun a => (f a).filter keep) := by
  induction l with
  | nil => exact .inl rfl
  | cons a l ih =>
    simp only [List.findSome?_cons]
    cases hf : f a with
    | none =>
      rcases ih with ih | ⟨before, a', after, b, rfl, hb, hkeep, hfirst, hsecond⟩
      · exact .inl ih
      · exact .inr ⟨a :: before, a', after, b, rfl, hb, hkeep, hfirst, hsecond⟩
    | some b =>
      cases hkeep : keep b with
      | true =>
        refine .inl ?_
        rw [Option.filter_some, if_pos hkeep]
      | false =>
        refine .inr ⟨[], a, l, b, rfl, hf, hkeep, rfl, ?_⟩
        rw [Option.filter_some, if_neg (by simp [hkeep])]

/-! ## Two checks of one target -/

/-- `t.Precedes a b`: the table lists `b` somewhere behind `a`. -/
def Table.Precedes {α : Type} (t : Table α) (a b : String) : Prop :=
  ∃ before between after, t.keys = before ++ a :: between ++ b :: after

namespace Descriptor

variable {d : Descriptor Value} {c : Class Value}

/-- What is found fault with leniently, among the requirements from some place on: a key of one of
them, and not its arity. -/
theorem exists_of_lenient {requirements : List (String × Value)} {v : Violation}
    (h : requirements.findSome?
      (fun r => ((d.withStrictness true).shortfall? c r).filter (!·.isArity)) = some v) :
    v.isArity = false ∧ ∃ r ∈ requirements, v = .missingMember c.name d.name r.1 ∨
      ∃ expected, v = .kindMismatch c.name d.name r.1 expected := by
  obtain ⟨r, hr, hv⟩ := List.exists_of_findSome?_eq_some h
  obtain ⟨hshortfall, hkept⟩ := Option.filter_eq_some_iff.mp hv
  have hnot : v.isArity = false := by simpa using hkept
  refine ⟨hnot, r, hr, ?_⟩
  cases shortfall?_eq_some_iff.mp hshortfall with
  | missing _ => exact .inl rfl
  | shape _ _ => exact .inr ⟨_, rfl⟩
  | arity _ _ => cases hnot

/-- The lenient search of a class against the strict one. -/
theorem violation?_lenient (d : Descriptor Value) (c : Class Value) :
    (d.withStrictness false).violation? c =
      d.members.entries.findSome?
        (fun r => ((d.withStrictness true).shortfall? c r).filter (!·.isArity)) := by
  show d.members.entries.findSome? ((d.withStrictness false).shortfall? c) = _
  rw [funext (shortfall?_lenient d c)]

/-- What a lenient check of a class finds is never an arity. -/
theorem isArity_of_lenient {v : Violation} (h : (d.withStrictness false).violation? c = some v) :
    v.isArity = false := by
  rw [violation?_lenient] at h
  exact (exists_of_lenient h).1

/-- The strict check finds what the lenient one finds, or it stops at an arity and the lenient one
goes on behind that requirement. -/
theorem violation?_strict (d : Descriptor Value) (c : Class Value) :
    (d.withStrictness false).violation? c = (d.withStrictness true).violation? c ∨
      ∃ before r after v, d.members.entries = before ++ r :: after ∧
        (d.withStrictness true).violation? c = some v ∧
        (∃ expected found, v = .arityMismatch c.name d.name r.1 expected found) ∧
        (d.withStrictness false).violation? c =
          after.findSome?
            (fun r => ((d.withStrictness true).shortfall? c r).filter (!·.isArity)) := by
  rw [violation?_lenient]
  rcases findSome?_filter ((d.withStrictness true).shortfall? c) (!·.isArity) d.members.entries
    with h | ⟨before, r, after, v, hl, hv, hkeep, hstrict, hlenient⟩
  · exact .inl h
  · have harity : v.isArity = true := by simpa using hkeep
    refine .inr ⟨before, r, after, v, hl, hstrict, ?_, hlenient⟩
    cases shortfall?_eq_some_iff.mp hv with
    | missing _ => cases harity
    | shape _ _ => cases harity
    | arity _ _ => exact ⟨_, _, rfl⟩

/-- Where the strict check finds no fault with an arity, the lenient one finds the same. -/
theorem violation?_lenient_eq (h : ∀ v, (d.withStrictness true).violation? c = some v →
    v.isArity = false) :
    (d.withStrictness false).violation? c = (d.withStrictness true).violation? c := by
  rcases violation?_strict d c with heq | ⟨_, _, _, _, _, hstrict, ⟨_, _, rfl⟩, _⟩
  · exact heq
  · -- the strict check stops at an arity
    cases h _ hstrict

/-- Where the strict check stops at the arity under a key, the lenient one finds nothing, or the
absence or the kind of a member under a later key. -/
theorem violation?_of_arity {cls interface key : String} {expected found : Nat}
    (h : (d.withStrictness true).violation? c =
      some (.arityMismatch cls interface key expected found)) :
    (d.withStrictness false).violation? c = none ∨ ∃ later, d.members.Precedes key later ∧
      ((d.withStrictness false).violation? c = some (.missingMember cls interface later) ∨
        ∃ shape, (d.withStrictness false).violation? c =
          some (.kindMismatch cls interface later shape)) := by
  rcases violation?_strict d c with
    heq | ⟨before, r, after, v, hentries, hstrict, ⟨_, _, rfl⟩, hlenient⟩
  · cases isArity_of_lenient (heq.trans h)
  · rw [h] at hstrict
    cases hstrict
    rw [hlenient]
    cases hl : after.findSome?
        (fun r => ((d.withStrictness true).shortfall? c r).filter (!·.isArity)) with
    | none => exact .inl rfl
    | some w =>
      obtain ⟨-, r', hr', hw⟩ := exists_of_lenient hl
      obtain ⟨between, rest, rfl⟩ := List.append_of_mem hr'
      refine .inr ⟨r'.1, ⟨before.map (·.1), between.map (·.1), rest.map (·.1), ?_⟩, ?_⟩
      · simp [Table.keys, hentries]
      · rcases hw with rfl | ⟨shape, rfl⟩
        · exact .inl rfl
        · exact .inr ⟨shape, rfl⟩

/-- The answer of a check is an error iff the search finds a violation, and that is the error. -/
theorem checkClass_answer_eq_error {v : Violation} :
    (d.checkClass c).answer = .error v ↔ d.violation? c = some v := by
  rw [checkClass_answer]
  cases d.violation? c <;> simp

theorem checkClass_answer_eq_ok : (d.checkClass c).answer = .ok () ↔ d.violation? c = none := by
  rw [checkClass_answer]
  cases d.violation? c <;> simp

/-- A class whose strict check is not about an arity is answered the same leniently. -/
theorem checkClass_lenient_eq (h : ∀ cls interface key expected found,
    ((d.withStrictness true).checkClass c).answer ≠
      .error (.arityMismatch cls interface key expected found)) :
    ((d.withStrictness false).checkClass c).answer =
      ((d.withStrictness true).checkClass c).answer := by
  rw [checkClass_answer, checkClass_answer, violation?_lenient_eq fun v hv => ?_]
  refine Bool.eq_false_iff.mpr fun harity => ?_
  obtain ⟨cls, interface, key, expected, found, rfl⟩ := Violation.isArity_iff.mp harity
  exact h _ _ _ _ _ (checkClass_answer_eq_error.mpr hv)

end Descriptor

/-- Without a class a target is refused, whatever is asked of it. -/
theorem checkImplements_of_no_class {target : Value} (h : target.class? = none)
    (interface : Value) :
    (checkImplements target interface).answer = .error (.invalidTarget target.display) := by
  unfold checkImplements
  rw [h]

/-- **Strict and lenient checks.** Of two interfaces that differ in strictness only, and any target:

1. the lenient answer is never about an arity;
2. unless the strict answer is about an arity, the two answers are the same;
3. if the strict answer is about the arity under a key, the lenient one is success, or about the
   absence or the kind of a member under a key that is declared later, with the same parties.

So what passes strictly passes leniently. -/
theorem strict_and_lenient (target : Value) (d : Descriptor Value) :
    let strict := (checkImplements target (.ofInterface (d.withStrictness true))).answer
    let lenient := (checkImplements target (.ofInterface (d.withStrictness false))).answer
    (∀ cls interface key expected found,
      lenient ≠ .error (.arityMismatch cls interface key expected found)) ∧
    ((∀ cls interface key expected found,
      strict ≠ .error (.arityMismatch cls interface key expected found)) → lenient = strict) ∧
    (∀ cls interface key expected found,
      strict = .error (.arityMismatch cls interface key expected found) →
        lenient = .ok () ∨ ∃ later, d.members.Precedes key later ∧
          (lenient = .error (.missingMember cls interface later) ∨
            ∃ shape, lenient = .error (.kindMismatch cls interface later shape))) ∧
    (strict = .ok () → lenient = .ok ()) := by
  intro strict lenient
  cases htarget : target.class? with
  | none =>
    have hstrict : strict = .error (.invalidTarget target.display) :=
      checkImplements_of_no_class htarget _
    have hlenient : lenient = .error (.invalidTarget target.display) :=
      checkImplements_of_no_class htarget _
    rw [hstrict, hlenient]
    exact ⟨nofun, fun _ => rfl, nofun, nofun⟩
  | some c =>
    have hchecked : ∀ d : Descriptor Value,
        (checkImplements target (.ofInterface d)).answer = (d.checkClass c).answer := by
      intro d
      rw [checkImplements_ofInterface, Descriptor.check, htarget]
    have hstrict : strict = ((d.withStrictness true).checkClass c).answer := hchecked _
    have hlenient : lenient = ((d.withStrictness false).checkClass c).answer := hchecked _
    rw [hstrict, hlenient]
    refine ⟨fun cls interface key expected found h => ?_, Descriptor.checkClass_lenient_eq,
      fun cls interface key expected found h => ?_, fun hok => ?_⟩
    · cases Descriptor.isArity_of_lenient (Descriptor.checkClass_answer_eq_error.mp h)
    · simp only [Descriptor.checkClass_answer_eq_error, Descriptor.checkClass_answer_eq_ok] at h ⊢
      exact Descriptor.violation?_of_arity h
    · rw [Descriptor.checkClass_lenient_eq (by simp [hok]), hok]

/-- A file that reads with one argument too few and cannot be closed is refused for the first
strictly, and for the second leniently; one that passes strictly passes. -/
theorem strict_and_lenient_files :
    let stream : Descriptor Value := ⟨"io.Stream",
      .ofList [("read", .function ⟨2, false⟩), ("close", .function ⟨0, false⟩)], none, none, true⟩
    let file : Value := .cls ⟨"io.File", ⟨0, false⟩, none,
      .ofList [("read", .function ⟨1, false⟩)]⟩
    let log : Value := .cls ⟨"io.Log", ⟨0, false⟩, none,
      .ofList [("close", .function ⟨0, false⟩), ("read", .function ⟨1, true⟩)]⟩
    (checkImplements file (.ofInterface (stream.withStrictness true))).answer =
        .error (.arityMismatch "io.File" "io.Stream" "read" 2 1) ∧
      (∃ later, stream.members.Precedes "read" later ∧
        (checkImplements file (.ofInterface (stream.withStrictness false))).answer =
          .error (.missingMember "io.File" "io.Stream" later)) ∧
      (checkImplements log (.ofInterface (stream.withStrictness false))).answer = .ok () := by
  intro stream file log
  have hstrict : (checkImplements file (.ofInterface (stream.withStrictness true))).answer =
      .error (.arityMismatch "io.File" "io.Stream" "read" 2 1) := rfl
  have hlenient : (checkImplements file (.ofInterface (stream.withStrictness false))).answer =
      .error (.missingMember "io.File" "io.Stream" "close") := rfl
  refine ⟨hstrict, ?_, (strict_and_lenient log stream).2.2.2 rfl⟩
  rcases (strict_and_lenient file stream).2.2.1 _ _ _ _ _ hstrict with
    hok | ⟨later, hlater, hmissing | ⟨shape, hkind⟩⟩
  · rw [hlenient] at hok
    cases hok
  · exact ⟨later, hlater, hmissing⟩
  · rw [hlenient] at hkind
    cases hkind

end InterfaceCheck
