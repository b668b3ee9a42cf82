import InterfaceCheck.Proofs.Binary64.Shortest
import Mathlib.Data.Nat.Cast.Field
/-!
# Integers among the doubles

Every integer up to `2^53` is a double, and up to there the shortest decimal of an integer is the
integer itself (`shortest_of_integer`). A shorter one would be another integer that is rounded to
the same double. Such integers lie past `2^53`, and the least that ends in a zero already lies past
the next double, which is `2^53 + 2`.

- `exists_word_of_mul_pow`: integers that are doubles;
- `toInt_toInt64`: an integral double below `2^63` is taken to the 64-bit integer that it is.
-/

namespace InterfaceCheck.Binary64

variable {x : Binary64}

/-! ## Integers that are doubles -/

theorem unitsOfOne_eq : unitsOfOne = 2 ^ 1074 := by
  unfold unitsOfOne
  generalize 1074 = places
  rfl

/-- Up to 53 bits and some zeros after them make a double. -/
theorem exists_word_of_mul_pow {m k : Nat} (hm : m ≤ 2 ^ 53) (hk : k ≤ 900) :
    ∃ word ≤ infiniteWord, unitsOf word = m * 2 ^ k * unitsOfOne := by
  rw [unitsOfOne_eq, mul_assoc, ← pow_add]
  exact exists_unitsOf_eq hm (by omega)

/-- What is rounded to a double and is a double itself is that one. -/
theorem magnitude_of_reads {n : Nat} (hexact : ∃ word ≤ infiniteWord, unitsOf word = n * unitsOfOne)
    (h : x.Reads n) : x.magnitude = n := by
  obtain ⟨word, hle, hunits⟩ := hexact
  have hword := nearestWord_unitsOf hle
  rw [hunits, Nat.cast_mul] at hword
  rw [magnitude_eq, ← hword.unique h, hunits, Nat.cast_mul,
    mul_div_cancel_right₀ _ unitsOfOne_pos.ne']

/-- No other integer that ends in a zero is rounded to an integer up to `2^53`. -/
theorem eq_of_reads_integer {n m : Nat} (hn : n ≤ 2 ^ 53) (hmagnitude : x.magnitude = n)
    (hfinite : x.isFinite = true) (hm : m % 10 = 0) (hreads : x.Reads m) : m = n := by
  rcases Nat.lt_or_ge (2 ^ 53) m with hgt | hle
  · -- the double after `2^53` lies between the two
    have hbetween : x.Reads (2 ^ 53 + 2 : Nat) := by
      refine (reads_magnitude hfinite).between x.magnitude_nonneg ?_ (Nat.cast_le.mpr ?_) hreads
      · rw [hmagnitude]
        exact Nat.cast_le.mpr (by omega)
      · show 2 ^ 53 + 2 ≤ m
        omega
    have hexact := exists_word_of_mul_pow (m := 2 ^ 52 + 1) (k := 1) (by decide) (by decide)
    have hnext := magnitude_of_reads hexact hbetween
    rw [hmagnitude, Nat.cast_inj] at hnext
    omega
  · have hexact := exists_word_of_mul_pow (k := 0) hle (by decide)
    rw [pow_zero, mul_one] at hexact
    have hself := magnitude_of_reads hexact hreads
    rw [hmagnitude, Nat.cast_inj] at hself
    exact hself.symm

/-- **The shortest decimal of an integer is the integer.** -/
theorem shortest_of_integer {n : Nat} (hfinite : x.isFinite = true) (hzero : x.word ≠ 0)
    (hmagnitude : x.magnitude = n) (hn : n ≤ 2 ^ 53) :
    0 ≤ x.shortest.exponent ∧ x.shortest.digits * 10 ^ x.shortest.exponent.toNat = n := by
  have hshortest := isShortest_shortest hfinite hzero
  generalize x.shortest = d at hshortest
  have hself := reads_magnitude hfinite
  rw [hmagnitude] at hself
  have hexponent : 0 ≤ d.exponent := by
    refine Int.le_of_not_gt fun hlt => hshortest.coarsest 0 hlt n ?_
    rwa [zpow_zero, mul_one]
  obtain ⟨k, hk⟩ := Int.eq_ofNat_of_zero_le hexponent
  refine ⟨hexponent, ?_⟩
  have hclosest := hshortest.closest
  rw [hk] at hclosest
  have hreads := hclosest.reads
  rw [zpow_natCast] at hreads
  rw [hk, Int.toNat_natCast]
  rcases Nat.eq_zero_or_pos k with rfl | hpos
  · -- on the grid of the integers the double itself is nearest
    have hle := hclosest.closest n (by rwa [Nat.cast_zero, zpow_zero, mul_one])
    rw [hmagnitude, Nat.cast_zero, zpow_zero, mul_one, mul_one, sub_self, abs_zero,
      abs_nonpos_iff, sub_eq_zero, Nat.cast_inj] at hle
    rw [pow_zero, mul_one, hle]
  · refine eq_of_reads_integer hn hmagnitude hfinite ?_ ?_
    · exact Nat.mod_eq_zero_of_dvd (Dvd.dvd.mul_left (dvd_pow_self 10 hpos.ne') _)
    · exact_mod_cast hreads

/-- The text of the shortest decimal of an integer is the numeral. -/
theorem positional_of_integer {n : Nat} (hfinite : x.isFinite = true) (hzero : x.word ≠ 0)
    (hmagnitude : x.magnitude = n) (hn : n ≤ 2 ^ 53) :
    x.shortest.positional = Decimal.numeral n := by
  obtain ⟨hexponent, hvalue⟩ := shortest_of_integer hfinite hzero hmagnitude hn
  have hdigits := (isShortest_shortest hfinite hzero).digits_ne_zero hzero
  rw [Decimal.positional, if_neg hdigits, if_pos hexponent, ← hvalue,
    Decimal.numeral_mul_pow hdigits]

/-! ## Doubles that are integers -/

theorem isIntegral_iff : x.isIntegral = true ↔ x.isFinite = true ∧ unitsOfOne ∣ x.units := by
  rw [isIntegral, Bool.and_eq_true, decide_eq_true_iff, Nat.dvd_iff_mod_eq_zero]

/-- Without a fraction the truncated number is the number. -/
theorem value_eq_truncated (h : unitsOfOne ∣ x.units) : x.value = x.truncated := by
  have hmagnitude : x.magnitude = (x.units / unitsOfOne : Nat) := by
    rw [magnitude, Nat.cast_div h unitsOfOne_pos.ne']
  unfold value truncated
  rw [hmagnitude]
  split
  · rw [Int.cast_neg, Int.cast_natCast]
  · rw [Int.cast_natCast]

/-- An integer has no fraction to take away. -/
theorem truncated_of_integer {n : Int} (h : x.value = n) :
    unitsOfOne ∣ x.units ∧ x.truncated = n := by
  have hunits : x.units = n.natAbs * unitsOfOne := by
    have hmagnitude := x.magnitude_mul
    rw [← abs_value, h, ← Int.cast_abs, ← Nat.cast_natAbs, ← Nat.cast_mul,
      Nat.cast_inj] at hmagnitude
    exact hmagnitude.symm
  have hdvd : unitsOfOne ∣ x.units := Dvd.intro_left _ hunits.symm
  exact ⟨hdvd, by rw [← Int.cast_inj (α := ℚ), ← value_eq_truncated hdvd, h]⟩

theorem natAbs_truncated (x : Binary64) : x.truncated.natAbs = x.units / unitsOfOne := by
  unfold truncated
  split
  · exact (Int.natAbs_neg _).trans (Int.natAbs_natCast _)
  · exact Int.natAbs_natCast _

theorem natAbs_truncated_lt_iff {limit : Nat} :
    x.truncated.natAbs < limit ↔ x.isBelow limit = true := by
  rw [natAbs_truncated, isBelow, decide_eq_true_iff, Nat.div_lt_iff_lt_mul zero_lt_unitsOfOne]

/-- **A double within the range is taken to a 64-bit integer without change.** -/
theorem toInt_toInt64 (hfinite : x.isFinite = true) (h : x.truncated.natAbs < 2 ^ 63) :
    x.toInt64.toInt = x.truncated := by
  have hnumber : x.isNaN = false := isNaN_eq_false.mpr (word_lt_of_isFinite hfinite).le
  rw [toInt64, hnumber, if_neg Bool.false_ne_true]
  refine Int64.toInt_ofIntClamp ?_ ?_
  · show -2 ^ 63 ≤ x.truncated
    omega
  · show x.truncated ≤ 2 ^ 63 - 1
    omega

end InterfaceCheck.Binary64
