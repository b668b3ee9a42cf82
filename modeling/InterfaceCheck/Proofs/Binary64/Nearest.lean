import InterfaceCheck.Binary64.Integral
import InterfaceCheck.Proofs.Binary64.Rounding
/-!
# The double nearest to a number

A double is read as an exact rational number (`value`), and `Nearest q x` is the rounding to nearest
of IEEE 754 as a property: no double is nearer to `q` than `x`, and if another one is as near, the
significand of `x` is even. As the standard has it, an infinite double stands in for the `2^1024`
that comes after the largest finite one.

- `nearest_iff`: `Nearest` is rounding the magnitude (`NearestWord`) and keeping the sign;
- `Nearest.value_eq` and `Nearest.mono`: one number has one nearest value, and larger numbers have
  larger ones;
- `nearest_ofInt`: an integer becomes the double nearest to it.
-/

namespace InterfaceCheck.Binary64

/-! ## Doubles as rational numbers -/

/-- The number that a double stands for, without the sign. The infinite ones count as `2^1024`. -/
def magnitude (x : Binary64) : ℚ := x.units / unitsOfOne

/-- The number that a double stands for. -/
def value (x : Binary64) : ℚ := if x.isNegative then -x.magnitude else x.magnitude

theorem zero_lt_unitsOfOne : 0 < unitsOfOne := by
  unfold unitsOfOne
  -- the power is never computed
  generalize 1074 = places
  exact Nat.two_pow_pos places

theorem unitsOfOne_pos : (0 : ℚ) < unitsOfOne :=
  Nat.cast_pos.mpr zero_lt_unitsOfOne

theorem magnitude_eq (x : Binary64) : x.magnitude = unitsOf x.word / unitsOfOne := rfl

theorem magnitude_mul (x : Binary64) : x.magnitude * unitsOfOne = unitsOf x.word :=
  div_mul_cancel₀ _ unitsOfOne_pos.ne'

theorem magnitude_nonneg (x : Binary64) : 0 ≤ x.magnitude :=
  div_nonneg (Nat.cast_nonneg _) unitsOfOne_pos.le

theorem abs_value (x : Binary64) : |x.value| = x.magnitude := by
  unfold value
  split
  · rw [abs_neg, abs_of_nonneg x.magnitude_nonneg]
  · rw [abs_of_nonneg x.magnitude_nonneg]

theorem word_eq_of_magnitude_eq {x y : Binary64} (h : x.magnitude = y.magnitude) :
    x.word = y.word := by
  rw [magnitude_eq, magnitude_eq, div_left_inj' unitsOfOne_pos.ne', Nat.cast_inj] at h
  exact unitsOf_strictMono.injective h

theorem value_eq_zero_iff {x : Binary64} : x.value = 0 ↔ x.word = 0 := by
  rw [← abs_eq_zero, abs_value, magnitude_eq, div_eq_zero_iff, or_iff_left unitsOfOne_pos.ne',
    Nat.cast_eq_zero]
  constructor
  · intro h
    exact unitsOf_strictMono.injective (h.trans unitsOf_zero.symm)
  · intro h
    rw [h, unitsOf_zero]

/-! ## Words and signs -/

theorem isNaN_eq_false {x : Binary64} : x.isNaN = false ↔ x.word ≤ infiniteWord := by
  rw [isNaN, decide_eq_false_iff_not, Nat.not_lt]

theorem lt_of_le_infiniteWord {word : Nat} (h : word ≤ infiniteWord) : word < 2 ^ 63 := by
  rw [infiniteWord_eq] at h
  omega

@[simp] theorem word_ofWord (negative : Bool) {word : Nat} (h : word < 2 ^ 63) :
    (ofWord negative word).word = word := by
  have htwo : Nat.pow 2 63 = 2 ^ 63 := rfl
  cases negative <;>
    simp only [Binary64.word, ofWord, htwo, Bool.false_eq_true, if_true, if_false,
      UInt64.toNat_ofNat'] <;> omega

@[simp] theorem isNegative_ofWord (negative : Bool) {word : Nat} (h : word < 2 ^ 63) :
    (ofWord negative word).isNegative = negative := by
  have htwo : Nat.pow 2 63 = 2 ^ 63 := rfl
  cases negative <;>
    simp only [isNegative, ofWord, htwo, Bool.false_eq_true, if_true, if_false,
      UInt64.toNat_ofNat', decide_eq_true_eq, decide_eq_false_iff_not] <;> omega

theorem magnitude_ofWord (negative : Bool) {word : Nat} (h : word ≤ infiniteWord) :
    (ofWord negative word).magnitude = unitsOf word / unitsOfOne := by
  rw [magnitude_eq, word_ofWord negative (lt_of_le_infiniteWord h)]

theorem isNaN_ofWord (negative : Bool) {word : Nat} (h : word ≤ infiniteWord) :
    (ofWord negative word).isNaN = false := by
  rwa [isNaN_eq_false, word_ofWord negative (lt_of_le_infiniteWord h)]

/-- The double on the other side of zero. -/
theorem exists_value_neg {x : Binary64} (h : x.isNaN = false) :
    ∃ y : Binary64, y.isNaN = false ∧ y.value = -x.value := by
  have hword := isNaN_eq_false.mp h
  refine ⟨ofWord (!x.isNegative) x.word, isNaN_ofWord _ hword, ?_⟩
  rw [value, value, isNegative_ofWord _ (lt_of_le_infiniteWord hword), magnitude_ofWord _ hword,
    ← magnitude_eq]
  cases x.isNegative <;> simp

/-- A double with the sign of a number has a product with it that is not below zero. -/
theorem mul_value_ofWord_nonneg (q : ℚ) {word : Nat} (h : word ≤ infiniteWord) :
    0 ≤ q * (ofWord (decide (q < 0)) word).value := by
  have hmagnitude := (ofWord (decide (q < 0)) word).magnitude_nonneg
  rw [value, isNegative_ofWord _ (lt_of_le_infiniteWord h)]
  rcases lt_or_ge q 0 with hneg | hpos
  · rw [decide_eq_true hneg, if_pos rfl]
    rw [decide_eq_true hneg] at hmagnitude
    exact mul_nonneg_of_nonpos_of_nonpos hneg.le (neg_nonpos.mpr hmagnitude)
  · rw [decide_eq_false hpos.not_gt, if_neg Bool.false_ne_true]
    rw [decide_eq_false hpos.not_gt] at hmagnitude
    exact mul_nonneg hpos hmagnitude

/-- Every word has a double on the same side of zero as a number. -/
theorem exists_double (q : ℚ) {word : Nat} (h : word ≤ infiniteWord) :
    ∃ y : Binary64, y.isNaN = false ∧ y.word = word ∧ 0 ≤ q * y.value :=
  ⟨ofWord (decide (q < 0)) word, isNaN_ofWord _ h, word_ofWord _ (lt_of_le_infiniteWord h),
    mul_value_ofWord_nonneg q h⟩

/-- The significand is even iff the word is. -/
theorem significand_mod_two (x : Binary64) : x.significand % 2 = x.word % 2 := by
  have htwo : Nat.pow 2 52 = 2 ^ 52 := rfl
  rw [significand, scale, htwo]
  omega

/-! ## Kinds of doubles -/

section Kinds

variable {x y : Binary64}

theorem isZero_iff : x.isZero = true ↔ x.word = 0 := decide_eq_true_iff

theorem isInfinite_iff : x.isInfinite = true ↔ x.word = infiniteWord := decide_eq_true_iff

theorem word_lt_of_isFinite (h : x.isFinite = true) : x.word < infiniteWord :=
  of_decide_eq_true h

theorem isNaN_of_isFinite (h : x.isFinite = true) : x.isNaN = false :=
  isNaN_eq_false.mpr (word_lt_of_isFinite h).le

theorem isInfinite_of_isFinite (h : x.isFinite = true) : x.isInfinite = false :=
  decide_eq_false (word_lt_of_isFinite h).ne

/-- A number is finite or infinite. -/
theorem isFinite_or_isInfinite (h : x.isNaN = false) : x.isFinite = true ∨ x.isInfinite = true :=
  (Nat.lt_or_eq_of_le (isNaN_eq_false.mp h)).imp decide_eq_true isInfinite_iff.mpr

theorem magnitude_pos (h : x.word ≠ 0) : 0 < x.magnitude := by
  rw [← abs_value, abs_pos, ne_eq, value_eq_zero_iff]
  exact h

/-- Except for zeros the sign bit says on which side of zero a number lies. -/
theorem isNegative_iff (h : x.word ≠ 0) : x.isNegative = true ↔ x.value < 0 := by
  have hpos := magnitude_pos h
  unfold value
  split
  case isTrue hsign => exact iff_of_true hsign (neg_neg_iff_pos.mpr hpos)
  case isFalse hsign => exact iff_of_false hsign hpos.le.not_gt

/-- The word and the sign bit make up the bits. -/
theorem toNat_bits (x : Binary64) :
    x.bits.toNat = x.word + if x.isNegative = true then 2 ^ 63 else 0 := by
  have htwo : Nat.pow 2 63 = 2 ^ 63 := rfl
  have hlt := x.bits.toNat_lt
  unfold word isNegative
  simp only [htwo, decide_eq_true_iff]
  split <;> omega

theorem eq_of_word_eq (hword : x.word = y.word) (hsign : x.isNegative = y.isNegative) : x = y := by
  have hbits : x.bits = y.bits := by
    rw [← UInt64.toNat_inj, toNat_bits, toNat_bits, hword, hsign]
  cases x
  cases y
  exact congrArg Binary64.mk hbits

/-- Except for zeros one value is one double. -/
theorem eq_of_value_eq (h : x.word ≠ 0) (hvalue : x.value = y.value) : x = y := by
  have hword : x.word = y.word := word_eq_of_magnitude_eq (by rw [← abs_value, hvalue, abs_value])
  refine eq_of_word_eq hword (Bool.eq_iff_iff.mpr ?_)
  rw [isNegative_iff h, isNegative_iff (hword ▸ h), hvalue]

end Kinds

/-! ## Nearest doubles -/

/-- The double is nearest to the number; of two equally near ones its significand is even. -/
structure Nearest (q : ℚ) (x : Binary64) : Prop where
  isNumber : x.isNaN = false
  closest : ∀ y : Binary64, y.isNaN = false → |q - x.value| ≤ |q - y.value|
  even : ∀ y : Binary64, y.isNaN = false → y.value ≠ x.value →
    |q - y.value| = |q - x.value| → x.significand % 2 = 0

/-- The distance of the magnitudes is at most the distance of the numbers. -/
theorem abs_sub_unitsOf_le (q : ℚ) (x : Binary64) :
    |(|q| * unitsOfOne - unitsOf x.word)| ≤ |q - x.value| * unitsOfOne := by
  have hunit := unitsOfOne_pos
  rw [← magnitude_mul, ← sub_mul, abs_mul, abs_of_pos hunit, ← abs_value]
  exact mul_le_mul_of_nonneg_right (abs_abs_sub_abs_le _ _) hunit.le

/-- On one side of zero they are the same. -/
theorem abs_sub_unitsOf_eq {q : ℚ} {x : Binary64} (h : 0 ≤ q * x.value) :
    |(|q| * unitsOfOne - unitsOf x.word)| = |q - x.value| * unitsOfOne := by
  have hunit := unitsOfOne_pos
  rw [← magnitude_mul, ← sub_mul, abs_mul, abs_of_pos hunit, ← abs_value]
  rcases mul_nonneg_iff.mp h with ⟨hq, hx⟩ | ⟨hq, hx⟩
  · rw [abs_of_nonneg hq, abs_of_nonneg hx]
  · rw [abs_of_nonpos hq, abs_of_nonpos hx, neg_sub_neg, abs_sub_comm]

/-- Two doubles of one nearest word and on the same side of zero as the number are equal. -/
theorem value_eq_of_word_eq {q : ℚ} {x y : Binary64} (hword : x.word = y.word)
    (hnearest : NearestWord (|q| * unitsOfOne) x.word) (hx : 0 ≤ q * x.value)
    (hy : 0 ≤ q * y.value) : x.value = y.value := by
  have hmagnitude : |x.value| = |y.value| := by
    rw [abs_value, abs_value, magnitude_eq, magnitude_eq, hword]
  rcases abs_eq_abs.mp hmagnitude with heq | hneg
  · exact heq
  · -- only zero lies on both sides of zero, and it is rounded to zero
    rw [hneg, mul_neg] at hx
    have hzero : q * y.value = 0 := by linarith
    rcases mul_eq_zero.mp hzero with rfl | hy
    · rw [abs_zero, zero_mul] at hnearest
      have hxword := hnearest.eq_zero
      rw [value_eq_zero_iff.mpr hxword, value_eq_zero_iff.mpr (hword ▸ hxword)]
    · rw [hneg, hy, neg_zero]

section NearestIff

variable {q : ℚ} {x : Binary64}

theorem Nearest.mul_value_nonneg (h : Nearest q x) : 0 ≤ q * x.value := by
  obtain ⟨y, hnumber, hy⟩ := exists_value_neg h.isNumber
  have hle := h.closest y hnumber
  rw [hy, ← sq_le_sq] at hle
  linarith

/-- The word of a nearest double is nearest to the magnitude. -/
theorem Nearest.nearestWord (h : Nearest q x) : NearestWord (|q| * unitsOfOne) x.word := by
  have hunit := unitsOfOne_pos
  refine ⟨isNaN_eq_false.mp h.isNumber, fun v hv => ?_, fun v hv hne heq => ?_⟩ <;>
    obtain ⟨y, hnumber, rfl, hsign⟩ := exists_double q hv
  · rw [abs_sub_unitsOf_eq hsign]
    exact (abs_sub_unitsOf_le q x).trans
      (mul_le_mul_of_nonneg_right (h.closest y hnumber) hunit.le)
  · have hle : |q - y.value| ≤ |q - x.value| := by
      refine le_of_mul_le_mul_right ?_ hunit
      rw [← abs_sub_unitsOf_eq hsign, heq]
      exact abs_sub_unitsOf_le q x
    have hvalue : y.value ≠ x.value := by
      intro hvalue
      refine hne (word_eq_of_magnitude_eq ?_)
      rw [← abs_value, ← abs_value, hvalue]
    rw [← significand_mod_two]
    exact h.even y hnumber hvalue (le_antisymm hle (h.closest y hnumber))

/-- A double on the side of the number is nearest if its word is. -/
theorem NearestWord.nearest (hword : NearestWord (|q| * unitsOfOne) x.word)
    (hsign : 0 ≤ q * x.value) : Nearest q x := by
  have hunit := unitsOfOne_pos
  have hdistance := abs_sub_unitsOf_eq hsign
  refine ⟨isNaN_eq_false.mpr hword.le, fun y hy => ?_, fun y hy hne heq => ?_⟩
  · refine le_of_mul_le_mul_right ?_ hunit
    rw [← hdistance]
    exact (hword.closest _ (isNaN_eq_false.mp hy)).trans (abs_sub_unitsOf_le q y)
  · rw [significand_mod_two]
    refine hword.even y.word (isNaN_eq_false.mp hy) (fun hyword => ?_) ?_
    · have hmagnitude : |y.value| = |x.value| := by
        rw [abs_value, abs_value, magnitude_eq, magnitude_eq, hyword]
      rw [← sq_eq_sq_iff_abs_eq_abs] at heq hmagnitude
      exact hne (value_eq_of_word_eq hyword.symm hword hsign (by linarith)).symm
    · refine le_antisymm ?_ (hword.closest _ (isNaN_eq_false.mp hy))
      rw [hdistance, ← heq]
      exact abs_sub_unitsOf_le q y

/-- **Rounding keeps the sign and rounds the magnitude.** -/
theorem nearest_iff :
    Nearest q x ↔ NearestWord (|q| * unitsOfOne) x.word ∧ 0 ≤ q * x.value :=
  ⟨fun h => ⟨h.nearestWord, h.mul_value_nonneg⟩, fun h => h.1.nearest h.2⟩

end NearestIff

namespace Nearest

variable {q r : ℚ} {x y : Binary64}

/-- **One number has one nearest value.** -/
theorem value_eq (hx : Nearest q x) (hy : Nearest q y) : x.value = y.value := by
  obtain ⟨hxword, hxsign⟩ := nearest_iff.mp hx
  obtain ⟨hyword, hysign⟩ := nearest_iff.mp hy
  exact value_eq_of_word_eq (hxword.unique hyword) hxword hxsign hysign

/-- **Larger numbers have larger nearest values.** -/
theorem mono (hle : q ≤ r) (hx : Nearest q x) (hy : Nearest r y) : x.value ≤ y.value := by
  refine le_of_not_gt fun hlt => ?_
  have hxy := (abs_sub_le_iff_of_lt hlt).mp (hx.closest y hy.isNumber)
  have hyx := (abs_sub_le_iff_of_gt hlt).mp (hy.closest x hx.isNumber)
  obtain rfl : q = r := by linarith
  exact hlt.ne (hy.value_eq hx)

end Nearest

/-! ## Integers -/

theorem nearest_eq (num den : Nat) : nearest num den = nearestUnits (num * unitsOfOne) den := by
  unfold nearest unitsOfOne
  generalize 1074 = places
  rfl

/-- The word computed for a quotient is the one nearest to it. -/
theorem nearest_eq_iff {num den word : Nat} (h : 0 < den) :
    nearest num den = word ↔ NearestWord (num / den * unitsOfOne) word := by
  have hnearest := nearestWord_nearestUnits (num * unitsOfOne) h
  rw [← nearest_eq, Nat.cast_mul, mul_div_right_comm] at hnearest
  exact ⟨fun heq => heq ▸ hnearest, hnearest.unique⟩

theorem nearestWord_natAbs (n : Int) :
    NearestWord (|(n : ℚ)| * unitsOfOne) (nearest n.natAbs 1) := by
  have hword := (nearest_eq_iff Nat.one_pos).mp (Eq.refl (nearest n.natAbs 1))
  rwa [Nat.cast_one, div_one, Nat.cast_natAbs, Int.cast_abs] at hword

theorem word_ofInt (n : Int) : (ofInt n).word = nearest n.natAbs 1 :=
  word_ofWord _ (lt_of_le_infiniteWord (nearestWord_natAbs n).le)

/-- **An integer becomes the double nearest to it.** -/
theorem nearest_ofInt (n : Int) : Nearest n (ofInt n) := by
  refine nearest_iff.mpr ⟨?_, ?_⟩
  · rw [word_ofInt]
    exact nearestWord_natAbs n
  · have hsign := mul_value_ofWord_nonneg n (nearestWord_natAbs n).le
    rwa [decide_eq_decide.mpr Int.cast_lt_zero] at hsign

end InterfaceCheck.Binary64
