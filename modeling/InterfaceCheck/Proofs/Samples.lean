import InterfaceCheck.Proofs.Strictness
/-!
# Classes that have the samples for members

An interface shows by samples what it requires, and a class that has these samples for members
implements it, however it came by them and whatever else it has. Taking some of the required members
away, from the class and all its ancestors, makes the check report one as missing: the one that the
interface declares first.

- `member?_without`: a lookup where keys have been taken away from the whole chain;
- `meets_of_sample`, `checkClass_of_missing`: a requirement that is met by its sample, and the first
  one under whose key there is nothing;
- `samples_conform`: the check of a class with the samples, and of what is left of it.
-/

namespace InterfaceCheck

universe u

/-! ## Taking members away -/

/-- The table without some of its keys. -/
def Table.without {α : Type u} (t : Table α) (removed : List String) : Table α :=
  ⟨t.entries.filter fun e => decide (e.1 ∉ removed)⟩

theorem Table.get?_without {α : Type u} (t : Table α) (removed : List String) (key : String) :
    (t.without removed).get? key = if key ∈ removed then none else t.get? key := by
  unfold without get?
  induction t.entries with
  | nil => simp
  | cons e l ih =>
    obtain ⟨k, v⟩ := e
    by_cases hk : k ∈ removed
    · -- the entry goes, and it was no use for a key that stays
      rw [List.filter_cons_of_neg (by simpa using hk), ih, List.lookup_cons]
      by_cases hkey : key ∈ removed
      · rw [if_pos hkey, if_pos hkey]
      · have hne : (key == k) = false := by
          simpa using fun heq : key = k => hkey (heq ▸ hk)
        rw [if_neg hkey, if_neg hkey, hne]
    · rw [List.filter_cons_of_pos (by simpa using hk), List.lookup_cons, List.lookup_cons, ih]
      cases hkey : key == k with
      | false => rfl
      | true =>
        have hstays : key ∉ removed := by
          rw [beq_iff_eq.mp hkey]
          exact hk
        rw [if_neg hstays, if_neg hstays]

namespace Class

variable {α : Type u}

/-- The class with some keys taken away from it and from all of its ancestors. -/
def without : Class α → List String → Class α
  | ⟨name, ctor, none, members⟩, removed => ⟨name, ctor, none, members.without removed⟩
  | ⟨name, ctor, some parent, members⟩, removed =>
    ⟨name, ctor, some (parent.without removed), members.without removed⟩
termination_by structural c => c

@[simp] theorem name_without (c : Class α) (removed : List String) :
    (c.without removed).name = c.name := by
  obtain ⟨name, ctor, parent, members⟩ := c
  cases parent <;> rfl

/-- What has been taken away is not found any more, and all else is found as before. -/
theorem member?_without (removed : List String) (key : String) :
    ∀ c : Class α,
      (c.without removed).member? key = if key ∈ removed then none else c.member? key
  | ⟨_, _, none, members⟩ => by
    rw [without, member?, member?, Table.get?_without]
  | ⟨_, _, some parent, members⟩ => by
    rw [without, member?, member?, Table.get?_without, member?_without removed key parent]
    split <;> rfl
termination_by structural c => c

end Class

/-! ## Met and missing requirements -/

namespace Descriptor

variable {d : Descriptor Value} {c : Class Value}

/-- The sample itself meets a requirement. -/
theorem meets_of_sample {r : String × Value} (h : c.member? r.1 = some r.2) : d.Meets c r :=
  meets_iff.mpr ⟨r.2, h, .refl d.strictArity r.2⟩

/-- Behind requirements that are met, one under whose key there is nothing is reported. -/
theorem checkClass_of_missing {before after : List (String × Value)} {r : String × Value}
    (hentries : d.members.entries = before ++ r :: after) (hbefore : ∀ q ∈ before, d.Meets c q)
    (hmissing : c.member? r.1 = none) :
    (d.checkClass c).answer = .error (.missingMember c.name d.name r.1) :=
  checkClass_eq_error_iff.mpr ⟨before, r, after, hentries, hbefore,
    .missing (Class.member?_eq_none_iff.mp hmissing)⟩

end Descriptor

/-- **Samples conform.** Of a class whose lookup gives the sample of the interface under each
required key, by a strict check and by a lenient one:

1. the class passes;
2. if keys are taken away from the whole chain, and one of them is required, then of those required
   the first in the order of declaration is reported as missing. -/
theorem samples_conform {d : Descriptor Value} {c : Class Value}
    (h : ∀ r ∈ d.members.entries, c.member? r.1 = some r.2) (strict : Bool) :
    (checkImplements (.cls c) (.ofInterface (d.withStrictness strict))).answer = .ok () ∧
    ∀ removed : List String, (∃ key ∈ removed, key ∈ d.members.keys) →
      ∃ before key after, d.members.keys = before ++ key :: after ∧
        (∀ k ∈ before, k ∉ removed) ∧ key ∈ removed ∧
        (checkImplements (.cls (c.without removed))
          (.ofInterface (d.withStrictness strict))).answer =
            .error (.missingMember c.name d.name key) := by
  constructor
  · exact Class.implements_iff.mpr fun r hr => Descriptor.meets_of_sample (h r hr)
  · rintro removed ⟨key, hremoved, hkey⟩
    obtain ⟨r₀, hr₀, rfl⟩ := List.mem_map.mp hkey
    -- the first requirement whose key is gone
    have hsome : (d.members.entries.find? fun r => decide (r.1 ∈ removed)).isSome :=
      List.find?_isSome.mpr ⟨r₀, hr₀, by simpa using hremoved⟩
    obtain ⟨r, hfirst⟩ := Option.isSome_iff_exists.mp hsome
    obtain ⟨hgone, before, after, hentries, hkept⟩ := List.find?_eq_some_iff_append.mp hfirst
    have hgone : r.1 ∈ removed := by simpa using hgone
    have hkept : ∀ q ∈ before, q.1 ∉ removed := by simpa using hkept
    refine ⟨before.map (·.1), r.1, after.map (·.1), ?_, ?_, hgone, ?_⟩
    · simp [Table.keys, hentries]
    · intro k hk
      obtain ⟨q, hq, rfl⟩ := List.mem_map.mp hk
      exact hkept q hq
    · rw [← Class.name_without c removed]
      refine Descriptor.checkClass_of_missing hentries (fun q hq => ?_) ?_
      · refine Descriptor.meets_of_sample ?_
        rw [Class.member?_without, if_neg (hkept q hq)]
        exact h q (by rw [hentries]; exact List.mem_append_left _ hq)
      · rw [Class.member?_without, if_pos hgone]

/-- A file inherits one of the samples of a stream, hides another member of its parent by a sample,
and has one more member. Without what it writes to and without buffers it lacks, in the order of the
stream, first the former. -/
theorem samples_conform_file :
    let stream : Descriptor Value := ⟨"io.Stream", .ofList [("read", .function ⟨1, true⟩),
      ("sink", .cls (.bare "io.Sink")), ("buffers", .array [.array []])], none, none, true⟩
    let base : Class Value := ⟨"io.Base", ⟨0, false⟩, none,
      .ofList [("buffers", .array [.array []]), ("read", .null)]⟩
    let file : Class Value := ⟨"io.File", ⟨0, false⟩, some base,
      .ofList [("sink", .cls (.bare "io.Sink")), ("seek", .function ⟨1, false⟩),
        ("read", .function ⟨1, true⟩)]⟩
    let removed := ["buffers", "sink"]
    (checkImplements (.cls file) (.ofInterface (stream.withStrictness false))).answer = .ok () ∧
      (checkImplements (.cls (file.without removed))
        (.ofInterface (stream.withStrictness true))).answer =
          .error (.missingMember "io.File" "io.Stream" "sink") ∧
      ∃ before after, stream.members.keys = before ++ "sink" :: after ∧
        ∀ k ∈ before, k ∉ removed := by
  intro stream base file removed
  have hsamples : ∀ r ∈ stream.members.entries, file.member? r.1 = some r.2 := by
    have hentries : stream.members.entries = [("read", .function ⟨1, true⟩),
        ("sink", .cls (.bare "io.Sink")), ("buffers", .array [.array []])] := rfl
    rw [hentries]
    intro r hr
    simp only [List.mem_cons, List.not_mem_nil, or_false] at hr
    rcases hr with rfl | rfl | rfl <;> rfl
  have hanswer : (checkImplements (.cls (file.without removed))
      (.ofInterface (stream.withStrictness true))).answer =
        .error (.missingMember "io.File" "io.Stream" "sink") := rfl
  obtain ⟨before, key, after, hkeys, hbefore, -, hmissing⟩ :=
    (samples_conform hsamples true).2 removed ⟨"sink", by decide, by decide⟩
  rw [hanswer] at hmissing
  injection hmissing with hmissing
  injection hmissing with _ _ hkey
  subst hkey
  exact ⟨(samples_conform hsamples false).1, hanswer, before, after, hkeys, hbefore⟩

end InterfaceCheck
