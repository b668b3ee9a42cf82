import Mathlib.Computability.Language
/-!
# Patterns

A pattern is searched for in a text. It is put together from character classes, repetitions and the
two anchors, and `Matches` gives each of them its standard meaning: a pattern matches a part of a
text in its place, with what stands before and after that part, since the anchors look at the place.

A pattern that recognizes a language (`Recognizes`) matches the words of the language wherever they
stand, so anchors have no part in it.

- `Recognizes.oneOf`, `Recognizes.seq`, `Recognizes.star`: what recognizes a language, by its shape.
- `occursIn_anchored_iff`: between the two anchors a pattern occurs in the words of its language and
  in no other text.
-/

namespace InterfaceCheck

open scoped Computability

/-- A pattern to search texts for. -/
inductive Pattern where
  /-- One character out of the ranges, whose ends belong to them. -/
  | oneOf (ranges : List (Char × Char))
  /-- The start of the text. -/
  | start
  /-- The end of the text. A line end before it is not passed over. -/
  | finish
  /-- One pattern and then the other. -/
  | seq (first second : Pattern)
  /-- The pattern any number of times, possibly none. -/
  | star (p : Pattern)

/-! ## Ranges of characters -/

/-- The two bounds of a range, tested one after the other. -/
theorem inRange_iff {a b c : Char} :
    (decide (a.val ≤ c.val) && decide (c.val ≤ b.val)) = true ↔ a ≤ c ∧ c ≤ b := by
  rw [Bool.and_eq_true, decide_eq_true_iff, decide_eq_true_iff]
  exact Iff.rfl

theorem le_and_le_iff {a c : Char} : a ≤ c ∧ c ≤ a ↔ c = a := by
  constructor
  · intro h
    exact Char.le_antisymm h.2 h.1
  · rintro rfl
    exact ⟨Char.le_refl _, Char.le_refl _⟩

namespace Pattern

/-- The character lies in one of the ranges. -/
def InRanges (ranges : List (Char × Char)) (c : Char) : Prop :=
  ∃ range ∈ ranges, range.1 ≤ c ∧ c ≤ range.2

/-- A range with one character in it. -/
theorem inRanges_self {a c : Char} : InRanges [(a, a)] c ↔ c = a := by
  simp [InRanges, le_and_le_iff]

/-! ## Matching -/

/-- `Matches p before matched after`: where a text reads `before ++ matched ++ after`, the pattern
matches its middle part. -/
inductive Matches : Pattern → List Char → List Char → List Char → Prop where
  | oneOf {ranges : List (Char × Char)} {c : Char} {before after : List Char} :
      InRanges ranges c → Matches (.oneOf ranges) before [c] after
  | start {after : List Char} : Matches .start [] [] after
  | finish {before : List Char} : Matches .finish before [] []
  | seq {p q : Pattern} {before m n after : List Char} :
      Matches p before m (n ++ after) → Matches q (before ++ m) n after →
      Matches (.seq p q) before (m ++ n) after
  | none {p : Pattern} {before after : List Char} : Matches (.star p) before [] after
  | more {p : Pattern} {before m n after : List Char} :
      Matches p before m (n ++ after) → Matches (.star p) (before ++ m) n after →
      Matches (.star p) before (m ++ n) after

/-- The pattern matches some part of the text. -/
def OccursIn (p : Pattern) (text : List Char) : Prop :=
  ∃ before matched after, text = before ++ matched ++ after ∧ p.Matches before matched after

/-! ## Languages of patterns -/

/-- The pattern matches the words of the language, in every place. -/
def Recognizes (p : Pattern) (l : Language Char) : Prop :=
  ∀ before matched after, p.Matches before matched after ↔ matched ∈ l

/-- The words of one character out of the ranges. -/
def letters (ranges : List (Char × Char)) : Language Char :=
  {word | ∃ c, InRanges ranges c ∧ word = [c]}

theorem mem_letters {ranges : List (Char × Char)} {word : List Char} :
    word ∈ letters ranges ↔ ∃ c, InRanges ranges c ∧ word = [c] := Iff.rfl

/-- Repeating one character at a time gives the words of such characters. -/
theorem mem_kstar_letters {ranges : List (Char × Char)} {word : List Char} :
    word ∈ (letters ranges)∗ ↔ ∀ c ∈ word, InRanges ranges c := by
  rw [Language.mem_kstar]
  constructor
  · rintro ⟨parts, rfl, hparts⟩ c hc
    obtain ⟨part, hpart, hc⟩ := List.mem_flatten.mp hc
    obtain ⟨d, hd, rfl⟩ := mem_letters.mp (hparts part hpart)
    rw [List.mem_singleton.mp hc]
    exact hd
  · intro h
    have hparts : (word.map fun c => [c]).flatten = word := by
      rw [← List.flatMap_def, List.flatMap_singleton']
    refine ⟨word.map fun c => [c], hparts.symm, fun part hpart => ?_⟩
    obtain ⟨c, hc, rfl⟩ := List.mem_map.mp hpart
    exact mem_letters.mpr ⟨c, h c hc, rfl⟩

theorem Recognizes.oneOf (ranges : List (Char × Char)) :
    (Pattern.oneOf ranges).Recognizes (letters ranges) := by
  intro before matched after
  rw [mem_letters]
  constructor
  · rintro ⟨hc⟩
    exact ⟨_, hc, rfl⟩
  · rintro ⟨c, hc, rfl⟩
    exact .oneOf hc

theorem Recognizes.seq {p q : Pattern} {l m : Language Char} (hp : p.Recognizes l)
    (hq : q.Recognizes m) : (p.seq q).Recognizes (l * m) := by
  intro before matched after
  rw [Language.mem_mul]
  constructor
  · rintro (_ | _ | _ | ⟨h₁, h₂⟩)
    exact ⟨_, (hp _ _ _).mp h₁, _, (hq _ _ _).mp h₂, rfl⟩
  · rintro ⟨a, ha, b, hb, rfl⟩
    exact .seq ((hp _ _ _).mpr ha) ((hq _ _ _).mpr hb)

/-- Matches of a repetition are matches put one after the other. -/
theorem Recognizes.star {p : Pattern} {l : Language Char} (hp : p.Recognizes l) :
    p.star.Recognizes l∗ := by
  intro before matched after
  rw [Language.mem_kstar]
  constructor
  · intro h
    generalize hq : p.star = q at h
    induction h with
    | oneOf | start | finish | seq => cases hq
    | none => exact ⟨[], rfl, nofun⟩
    | more h _ _ ih =>
      cases hq
      obtain ⟨parts, rfl, hparts⟩ := ih rfl
      refine ⟨_ :: parts, List.flatten_cons.symm, fun part hpart => ?_⟩
      rcases List.mem_cons.mp hpart with rfl | hpart
      · exact (hp _ _ _).mp h
      · exact hparts part hpart
  · rintro ⟨parts, rfl, hparts⟩
    induction parts generalizing before with
    | nil => exact .none
    | cons part parts ih =>
      rw [List.flatten_cons]
      exact .more ((hp _ _ _).mpr (hparts part (by simp)))
        (ih _ fun w hw => hparts w (List.mem_cons_of_mem part hw))

/-- **Anchors on both sides.** Such a pattern occurs in a text iff the whole text is a word of the
language between the anchors. -/
theorem occursIn_anchored_iff {p : Pattern} {l : Language Char} (hp : p.Recognizes l)
    (text : List Char) : (Pattern.start.seq (p.seq .finish)).OccursIn text ↔ text ∈ l := by
  constructor
  · rintro ⟨before, matched, after, rfl, h⟩
    cases h with
    | seq hstart h =>
      cases h with
      | seq h hfinish =>
        -- the anchors leave nothing before the match and nothing after it
        cases hstart
        cases hfinish
        simpa using (hp _ _ _).mp h
  · intro h
    refine ⟨[], [] ++ (text ++ []), [], by simp, ?_⟩
    exact .seq .start (.seq ((hp _ _ _).mpr h) .finish)

end Pattern

end InterfaceCheck
