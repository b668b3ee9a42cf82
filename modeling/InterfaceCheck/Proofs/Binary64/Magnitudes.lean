import InterfaceCheck.Binary64
import Mathlib.Algebra.Order.Ring.Nat
import Mathlib.Order.Monotone.Basic
import Mathlib.Tactic.Ring
/-!
# Magnitudes by their words

The word of a magnitude counts the magnitudes from zero up: `unitsOf` gives the units of `2^-1074`
that the word stands for, and it ascends strictly (`unitsOf_strictMono`). A word splits into a scale
and a significand, `scale · 2^52 + significand`, and stands for `significand · 2^scale` units
(`unitsOf_eq`). The split may give the significand `2^53` as well, which is the least one of the
next scale.

The infinite word stands for `2^1024`, which is where the magnitudes of the greatest scale would go
on.
-/

namespace InterfaceCheck.Binary64

/-- The units that a word stands for. -/
def unitsOf (word : Nat) : Nat :=
  (word - (word / 2 ^ 52 - 1) * 2 ^ 52) * 2 ^ (word / 2 ^ 52 - 1)

theorem infiniteWord_eq : infiniteWord = 2047 * 2 ^ 52 := rfl

/-! ## Scales and significands -/

theorem unitsOf_eq {scale m : Nat} (hm : m ≤ 2 ^ 53) (h : scale = 0 ∨ 2 ^ 52 ≤ m) :
    unitsOf (scale * 2 ^ 52 + m) = m * 2 ^ scale := by
  unfold unitsOf
  rcases Nat.lt_or_eq_of_le hm with hlt | rfl
  · have hscale : (scale * 2 ^ 52 + m) / 2 ^ 52 - 1 = scale := by omega
    rw [hscale, Nat.add_sub_cancel_left]
  · -- the significand `2^53` belongs to the next scale
    have hscale : (scale * 2 ^ 52 + 2 ^ 53) / 2 ^ 52 - 1 = scale + 1 := by omega
    have hm : scale * 2 ^ 52 + 2 ^ 53 - (scale + 1) * 2 ^ 52 = 2 ^ 52 := by omega
    rw [hscale, hm]
    ring

/-- Every word has a scale and a significand. -/
theorem exists_scale (word : Nat) :
    ∃ scale m, word = scale * 2 ^ 52 + m ∧ m < 2 ^ 53 ∧ (scale = 0 ∨ 2 ^ 52 ≤ m) :=
  ⟨word / 2 ^ 52 - 1, word - (word / 2 ^ 52 - 1) * 2 ^ 52, by omega, by omega, by omega⟩

/-! ## The order of the words -/

/-- From a magnitude to the next it is one unit in the last place. -/
theorem unitsOf_succ {scale m : Nat} (hm : m < 2 ^ 53) (h : scale = 0 ∨ 2 ^ 52 ≤ m) :
    unitsOf (scale * 2 ^ 52 + m + 1) = unitsOf (scale * 2 ^ 52 + m) + 2 ^ scale := by
  have hnext : scale = 0 ∨ 2 ^ 52 ≤ m + 1 := h.imp_right Nat.le_succ_of_le
  rw [Nat.add_assoc, unitsOf_eq hm hnext, unitsOf_eq hm.le h, Nat.succ_mul]

theorem unitsOf_strictMono : StrictMono unitsOf := by
  refine strictMono_nat_of_lt_succ fun word => ?_
  obtain ⟨scale, m, rfl, hm, h⟩ := exists_scale word
  rw [unitsOf_succ hm h]
  exact Nat.lt_add_of_pos_right (Nat.two_pow_pos scale)

@[simp] theorem unitsOf_zero : unitsOf 0 = 0 := rfl

/-- The next magnitude is at most twice as large. -/
theorem unitsOf_succ_le {word : Nat} (h : 0 < word) :
    unitsOf (word + 1) ≤ 2 * unitsOf word := by
  obtain ⟨scale, m, rfl, hm, hscale⟩ := exists_scale word
  have hpos : 1 ≤ m := by omega
  have hle : 1 * 2 ^ scale ≤ m * 2 ^ scale := Nat.mul_le_mul_right _ hpos
  rw [unitsOf_succ hm hscale, unitsOf_eq hm.le hscale]
  omega

/-! ## Which magnitudes there are -/

/-- Beside the multiples of a power of two there are only magnitudes too small for its scale. -/
theorem unitsOf_multiple_or_lt (word scale : Nat) :
    (∃ k, unitsOf word = k * 2 ^ scale) ∨ 0 < scale ∧ unitsOf word < 2 ^ 52 * 2 ^ scale := by
  obtain ⟨s, m, rfl, hm, h⟩ := exists_scale word
  rw [unitsOf_eq hm.le h]
  rcases Nat.lt_or_ge s scale with hlt | hge
  · obtain ⟨d, rfl⟩ := Nat.exists_eq_add_of_lt hlt
    refine .inr ⟨by omega, ?_⟩
    calc m * 2 ^ s < 2 ^ 53 * 2 ^ s := Nat.mul_lt_mul_of_pos_right hm (Nat.two_pow_pos s)
      _ = 2 ^ 52 * 2 ^ (s + 1) := by ring
      _ ≤ 2 ^ 52 * 2 ^ (s + d + 1) :=
        Nat.mul_le_mul_left _ (Nat.pow_le_pow_right (by decide) (by omega))
  · obtain ⟨d, rfl⟩ := Nat.exists_eq_add_of_le hge
    exact .inl ⟨m * 2 ^ d, by ring⟩

/-- Up to 53 bits and a power of two within the range make a magnitude. -/
theorem exists_unitsOf_eq {scale m : Nat} (hm : m ≤ 2 ^ 53) (hscale : scale ≤ 2045) :
    ∃ word ≤ infiniteWord, unitsOf word = m * 2 ^ scale := by
  induction scale generalizing m with
  | zero => exact ⟨m, by rw [infiniteWord_eq]; omega, by simpa using unitsOf_eq hm (.inl rfl)⟩
  | succ scale ih =>
    rcases Nat.lt_or_ge m (2 ^ 52) with hlt | hge
    · -- a small significand is taken twice, one scale further down
      obtain ⟨word, hword, hunits⟩ := ih (m := 2 * m) (by omega) (by omega)
      exact ⟨word, hword, by rw [hunits]; ring⟩
    · exact ⟨(scale + 1) * 2 ^ 52 + m, by rw [infiniteWord_eq]; omega, unitsOf_eq hm (.inr hge)⟩

end InterfaceCheck.Binary64
