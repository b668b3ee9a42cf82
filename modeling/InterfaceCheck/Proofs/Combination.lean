import InterfaceCheck.Proofs.Strictness
import InterfaceCheck.Proofs.Table
/-!
# Interfaces combine member by member

A check goes through the required members one by one, and each is judged without regard to the
others. So the check of two tables of members, one behind the other, is the check of the first and
then of the second; and while the order of the members decides which violation is reported, it does
not decide whether there is one.

- `violation?_withMembers`: members are judged in the same way in whatever table they stand;
- `violation?_followedBy`: the search through two tables, one behind the other;
- `implements_withMembers_iff`, `implements_followedBy_iff`: passing has nothing to do with order;
- `interfaces_combine`: what follows for checks.
-/

namespace InterfaceCheck

universe u

/-! ## Tables one behind the other -/

namespace Table

variable {α : Type u} {first second : Table α}

/-- The table that goes on with the bindings of another one. -/
def followedBy (first second : Table α) : Table α := first.insertAll second.entries

/-- Where the two share no key, the bindings of the one stand behind those of the other. -/
theorem entries_followedBy (hsecond : second.keys.Nodup)
    (hdisjoint : ∀ key ∈ first.keys, key ∉ second.keys) :
    (first.followedBy second).entries = first.entries ++ second.entries := by
  refine entries_insertAll_of_fresh hsecond fun b hb hmem => ?_
  exact hdisjoint b.1 hmem (List.mem_map_of_mem hb)

/-- Where they share a key, the second table decides. -/
theorem get?_followedBy (hsecond : second.keys.Nodup) (key : String) :
    (first.followedBy second).get? key = (second.get? key).or (first.get? key) := by
  by_cases hkey : key ∈ second.keys
  · obtain ⟨value, hlast⟩ := exists_last hkey
    have hget : (first.followedBy second).get? key = some value := get?_insertAll_of_last hlast
    have hget' : second.get? key = some value :=
      (mem_entries_iff hsecond (e := (key, value))).mp hlast.mem
    rw [hget, hget', Option.some_or]
  · have hget : (first.followedBy second).get? key = first.get? key :=
      get?_insertAll_of_not_mem hkey
    rw [hget, get?_eq_none_iff.mpr hkey, Option.none_or]

theorem mem_followedBy (hfirst : first.keys.Nodup) (hsecond : second.keys.Nodup)
    {e : String × α} :
    e ∈ (first.followedBy second).entries ↔
      e ∈ second.entries ∨ e ∈ first.entries ∧ e.1 ∉ second.keys := by
  have hboth : (first.followedBy second).keys.Nodup := nodup_keys_insertAll hfirst second.entries
  rw [mem_entries_iff hboth, mem_entries_iff hfirst, mem_entries_iff hsecond,
    get?_followedBy hsecond, Option.or_eq_some_iff, get?_eq_none_iff, and_comm (a := e.1 ∉ _)]

end Table

/-! ## Interfaces with other members -/

namespace Descriptor

/-- The interface with other members. -/
def withMembers (d : Descriptor Value) (members : Table Value) : Descriptor Value :=
  { d with members := members }

variable {d e : Descriptor Value} {c : Class Value}

/-- Each member is judged by itself, in whatever table it stands. -/
theorem violation?_withMembers (members : Table Value) :
    (d.withMembers members).violation? c = members.entries.findSome? (d.shortfall? c) := rfl

/-- The search goes on to the second table if it finds nothing in the first. -/
theorem violation?_followedBy {first second : Table Value} (hsecond : second.keys.Nodup)
    (hdisjoint : ∀ key ∈ first.keys, key ∉ second.keys) :
    (d.withMembers (first.followedBy second)).violation? c =
      ((d.withMembers first).violation? c).or ((d.withMembers second).violation? c) := by
  simp only [violation?_withMembers, Table.entries_followedBy hsecond hdisjoint,
    List.findSome?_append]

theorem implements_withMembers_iff {members : Table Value} :
    c.Implements (d.withMembers members) ↔ ∀ r ∈ members.entries, d.Meets c r :=
  Class.implements_iff

/-- A class passes two tables of members, the second one behind the first, iff it passes the second
and what the second leaves of the first. -/
theorem implements_followedBy_iff {first second : Table Value} (hfirst : first.keys.Nodup)
    (hsecond : second.keys.Nodup) :
    c.Implements (d.withMembers (first.followedBy second)) ↔
      (∀ r ∈ second.entries, d.Meets c r) ∧
        ∀ r ∈ first.entries, r.1 ∉ second.keys → d.Meets c r := by
  rw [implements_withMembers_iff]
  simp only [Table.mem_followedBy hfirst hsecond]
  constructor
  · intro h
    exact ⟨fun r hr => h r (.inl hr), fun r hr hkey => h r (.inr ⟨hr, hkey⟩)⟩
  · rintro ⟨hmet, hleft⟩ r (hr | ⟨hr, hkey⟩)
    · exact hmet r hr
    · exact hleft r hr hkey

/-- Of an interface, only the strictness has a say in whether a requirement is met. -/
theorem meets_congr (h : e.strictArity = d.strictArity) {r : String × Value} :
    e.Meets c r ↔ d.Meets c r := by
  unfold Meets
  rw [h]

/-- A class passes two interfaces that do not contradict each other iff it passes them combined. -/
theorem implements_and_iff (hstrict : e.strictArity = d.strictArity) (hd : d.members.keys.Nodup)
    (he : e.members.keys.Nodup)
    (hagree : ∀ key v w, d.members.get? key = some v → e.members.get? key = some w → v = w) :
    c.Implements d ∧ c.Implements e ↔
      c.Implements (d.withMembers (d.members.followedBy e.members)) := by
  rw [implements_followedBy_iff hd he, Class.implements_iff, Class.implements_iff]
  simp only [meets_congr hstrict]
  constructor
  · rintro ⟨hmet, hmet'⟩
    exact ⟨hmet', fun r hr _ => hmet r hr⟩
  · rintro ⟨hmet', hleft⟩
    refine ⟨fun r hr => ?_, hmet'⟩
    cases hget : e.members.get? r.1 with
    | none => exact hleft r hr (Table.get?_eq_none_iff.mp hget)
    | some w =>
      -- both interfaces ask for the same under the key
      have hsame : r.2 = w := hagree r.1 r.2 w ((Table.mem_entries_iff hd).mp hr) hget
      exact hmet' r ((Table.mem_entries_iff he).mpr (hsame ▸ hget))

/-- A class that passes an interface passes it with some of the members left out. -/
theorem implements_of_subset {members : Table Value} (hsub : members.entries ⊆ d.members.entries)
    (h : c.Implements d) : c.Implements (d.withMembers members) := by
  refine implements_withMembers_iff.mpr fun r hr => ?_
  exact Class.implements_iff.mp h r (hsub hr)

/-- A class passes an interface in any order of the members. -/
theorem implements_iff_of_perm {members : Table Value}
    (hperm : members.entries.Perm d.members.entries) :
    c.Implements (d.withMembers members) ↔ c.Implements d := by
  refine ⟨fun h => ?_, implements_of_subset hperm.subset⟩
  refine Class.implements_iff.mpr fun r hr => ?_
  exact implements_withMembers_iff.mp h r (hperm.symm.subset hr)

/-- A violation that an interface reports is what one of its members violates on its own. -/
theorem exists_alone_of_violation {members : Table Value} {v : Violation}
    (h : (d.withMembers members).violation? c = some v) :
    ∃ r ∈ members.entries, (d.withMembers (.ofList [r])).violation? c = some v := by
  rw [violation?_withMembers] at h
  obtain ⟨r, hr, hv⟩ := List.exists_of_findSome?_eq_some h
  refine ⟨r, hr, ?_⟩
  show [r].findSome? (d.shortfall? c) = some v
  rw [List.findSome?_cons, hv]

end Descriptor

/-- **Interfaces combine member by member.** For a class and an interface:

1. the check of two tables of members that share no key, one behind the other, has the error of the
   first table's check if that fails, and else the answer of the second one's;
2. whether the class passes does not depend on the order of the members;
3. a class that passes also passes with some of the members left out;
4. it passes this and another interface of the same strictness, with the same samples under keys
   that both require, iff it passes the two combined;
5. an error that comes up in another order of the members is one that a member of the interface
   violates on its own. -/
theorem interfaces_combine (c : Class Value) (d : Descriptor Value) :
    (∀ first second : Table Value, second.keys.Nodup → (∀ key ∈ first.keys, key ∉ second.keys) →
      (∀ v, (checkImplements (.cls c) (.ofInterface (d.withMembers first))).answer = .error v →
        (checkImplements (.cls c) (.ofInterface (d.withMembers (first.followedBy second)))).answer =
          .error v) ∧
      ((checkImplements (.cls c) (.ofInterface (d.withMembers first))).answer = .ok () →
        (checkImplements (.cls c) (.ofInterface (d.withMembers (first.followedBy second)))).answer =
          (checkImplements (.cls c) (.ofInterface (d.withMembers second))).answer)) ∧
    (∀ members : Table Value, members.entries.Perm d.members.entries →
      (c.Implements (d.withMembers members) ↔ c.Implements d)) ∧
    (∀ members : Table Value, members.entries ⊆ d.members.entries → c.Implements d →
      c.Implements (d.withMembers members)) ∧
    (∀ e : Descriptor Value, e.strictArity = d.strictArity → d.members.keys.Nodup →
      e.members.keys.Nodup →
      (∀ key v w, d.members.get? key = some v → e.members.get? key = some w → v = w) →
      (c.Implements d ∧ c.Implements e ↔
        c.Implements (d.withMembers (d.members.followedBy e.members)))) ∧
    ∀ members : Table Value, members.entries.Perm d.members.entries → ∀ v,
      (checkImplements (.cls c) (.ofInterface (d.withMembers members))).answer = .error v →
        ∃ r ∈ d.members.entries,
          (checkImplements (.cls c) (.ofInterface (d.withMembers (.ofList [r])))).answer =
            .error v := by
  have hchecked : ∀ e : Descriptor Value,
      checkImplements (.cls c) (.ofInterface e) = e.checkClass c := fun _ => rfl
  refine ⟨?_, fun _ => Descriptor.implements_iff_of_perm, fun _ => Descriptor.implements_of_subset,
    fun _ => Descriptor.implements_and_iff, ?_⟩
  · intro first second hsecond hdisjoint
    have hsearch := Descriptor.violation?_followedBy (d := d) (c := c) hsecond hdisjoint
    simp only [hchecked]
    constructor
    · intro v hv
      rw [Descriptor.checkClass_answer_eq_error] at hv ⊢
      rw [hsearch, hv, Option.some_or]
    · intro hok
      rw [Descriptor.checkClass_answer_eq_ok] at hok
      rw [Descriptor.checkClass_answer, hsearch, hok, Option.none_or,
        Descriptor.checkClass_answer]
  · intro members hperm v hv
    simp only [hchecked, Descriptor.checkClass_answer_eq_error] at hv ⊢
    obtain ⟨r, hr, halone⟩ := Descriptor.exists_alone_of_violation hv
    exact ⟨r, hperm.subset hr, halone⟩

/-- A file whose `read` is no function and that cannot be closed is refused for `read`, and with the
members turned round for `close`, which it also violates alone. A socket passes a reader, and a
duplex that asks for the same under `read`, and so both combined. -/
theorem interfaces_combine_streams :
    let read : Value := .function ⟨1, false⟩
    let close : Value := .function ⟨0, false⟩
    let reads : Table Value := .ofList [("read", read)]
    let closes : Table Value := .ofList [("close", close)]
    let stream : Descriptor Value :=
      ⟨"io.Stream", .ofList [("read", read), ("close", close)], none, none, true⟩
    let turned : Table Value := .ofList [("close", close), ("read", read)]
    let duplex : Descriptor Value :=
      ⟨"io.Duplex", .ofList [("write", read), ("read", read)], none, none, true⟩
    let file : Class Value := ⟨"io.File", ⟨0, false⟩, none, .ofList [("read", .null)]⟩
    let socket : Class Value := ⟨"io.Socket", ⟨0, false⟩, none,
      .ofList [("write", read), ("close", close), ("read", read)]⟩
    (checkImplements (.cls file)
        (.ofInterface (stream.withMembers (reads.followedBy closes)))).answer =
          .error (.kindMismatch "io.File" "io.Stream" "read" (.kind .function)) ∧
      (checkImplements (.cls socket)
        (.ofInterface (stream.withMembers (reads.followedBy closes)))).answer =
          (checkImplements (.cls socket) (.ofInterface (stream.withMembers closes))).answer ∧
      (∃ r ∈ stream.members.entries,
        (checkImplements (.cls file) (.ofInterface (stream.withMembers (.ofList [r])))).answer =
          .error (.missingMember "io.File" "io.Stream" "close")) ∧
      socket.Implements (stream.withMembers turned) ∧
      socket.Implements (stream.withMembers reads) ∧
      socket.Implements
        (stream.withMembers (stream.members.followedBy duplex.members)) := by
  intro read close reads closes stream turned duplex file socket
  have hperm : turned.entries.Perm stream.members.entries := List.Perm.swap ..
  have hsub : reads.entries ⊆ stream.members.entries := List.cons_subset_cons _ (List.nil_subset _)
  obtain ⟨hfollowed, -, -, -, halone⟩ := interfaces_combine file stream
  obtain ⟨hfollowed', horder, hsome, hboth, -⟩ := interfaces_combine socket stream
  refine ⟨(hfollowed reads closes (Table.nodup_keys_ofList _) (by decide)).1 _ rfl,
    (hfollowed' reads closes (Table.nodup_keys_ofList _) (by decide)).2 rfl,
    halone turned hperm _ rfl, (horder turned hperm).mpr rfl, hsome reads hsub rfl,
    (hboth duplex rfl (Table.nodup_keys_ofList _) (Table.nodup_keys_ofList _) ?_).mp ⟨rfl, rfl⟩⟩
  intro key v w hv hw
  have hv : (key, v) ∈ [("read", read), ("close", close)] := Table.mem_entries_of_get? hv
  have hw : (key, w) ∈ [("write", read), ("read", read)] := Table.mem_entries_of_get? hw
  simp only [List.mem_cons, List.not_mem_nil, or_false, Prod.mk.injEq] at hv hw
  rcases hv with ⟨rfl, rfl⟩ | ⟨rfl, rfl⟩
  · rcases hw with ⟨-, rfl⟩ | ⟨-, rfl⟩ <;> rfl
  · -- `read` is the one key that both have
    rcases hw with ⟨hkey, -⟩ | ⟨hkey, -⟩ <;> exact absurd hkey (by decide)

end InterfaceCheck
