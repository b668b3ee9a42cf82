import InterfaceCheck.Binary64.Shortest
import InterfaceCheck.Proofs.Binary64.Nearest
import InterfaceCheck.Proofs.Positional
/-!
# The shortest decimal

`Reads x q` says that `q` is rounded to the magnitude of `x`. The numbers that read back have no
gaps between them (`NearestWord.between`), so a grid of multiples of a power of ten has one of them
iff one of the two neighbours of `x` on the grid reads back.

- `isShortest_shortest`: the decimal found for a double reads back, no coarser grid has a number
  that does, and it is the nearest of those on its own grid (`IsShortest`);
- `IsShortest.digits_lt`: no decimal that reads back has fewer digits;
- `IsShortest.digits_mod_ten`: its last digit is not zero.
-/

namespace InterfaceCheck

namespace Binary64

variable {x : Binary64}

/-- The number is rounded to the magnitude of the double. -/
def Reads (x : Binary64) (q : ℚ) : Prop := NearestWord (q * unitsOfOne) x.word

theorem reads_magnitude (h : x.isFinite = true) : x.Reads x.magnitude := by
  show NearestWord (x.magnitude * unitsOfOne) x.word
  rw [magnitude_mul]
  exact nearestWord_unitsOf (word_lt_of_isFinite h).le

/-- What lies between two numbers that read back reads back too. -/
theorem Reads.between {p q r : ℚ} (hp : 0 ≤ p) (hpq : p ≤ q) (hqr : q ≤ r) (h : x.Reads p)
    (h' : x.Reads r) : x.Reads q := by
  have hunit := unitsOfOne_pos.le
  exact NearestWord.between (mul_nonneg hp hunit) (mul_le_mul_of_nonneg_right hpq hunit)
    (mul_le_mul_of_nonneg_right hqr hunit) h h'

theorem not_reads_zero (h : x.word ≠ 0) : ¬x.Reads 0 := by
  intro hzero
  rw [Reads, zero_mul] at hzero
  exact h hzero.eq_zero

/-- The next magnitude is nearer to what is twice as large as the double. -/
theorem not_reads_of_twice_le {q : ℚ} (hfinite : x.isFinite = true) (hzero : x.word ≠ 0)
    (h : 2 * x.magnitude ≤ q) : ¬x.Reads q := by
  intro hreads
  have hlt := unitsOf_lt (Nat.lt_add_one x.word)
  have hmid := (abs_sub_le_iff_of_gt hlt).mp
    (hreads.closest (x.word + 1) (word_lt_of_isFinite hfinite))
  have hnext : (unitsOf (x.word + 1) : ℚ) ≤ 2 * unitsOf x.word := by
    exact_mod_cast unitsOf_succ_le (Nat.pos_of_ne_zero hzero)
  have hpos := unitsOf_lt (Nat.pos_of_ne_zero hzero)
  have htwice := mul_le_mul_of_nonneg_right h unitsOfOne_pos.le
  rw [mul_assoc, magnitude_mul] at htwice
  rw [unitsOf_zero, Nat.cast_zero] at hpos
  linarith

/-! ## Numbers on a grid -/

theorem ten_zpow_pos (e : ℤ) : (0 : ℚ) < 10 ^ e := zpow_pos (by decide) e

theorem magnitude_eq_decimalUnits (x : Binary64) :
    x.magnitude = x.decimalUnits * 10 ^ (-1074 : ℤ) := by
  rw [magnitude, show (-1074 : ℤ) = -(1074 : Nat) from rfl]
  unfold decimalUnits unitsOfOne
  generalize 1074 = places
  have hten : (10 ^ places : ℚ) = 5 ^ places * 2 ^ places := by rw [← mul_pow]; norm_num
  have hfive : (5 ^ places : ℚ) ≠ 0 := pow_ne_zero _ (by decide)
  simp only [Nat.pow_eq, Nat.cast_mul, Nat.cast_pow, Nat.cast_ofNat, zpow_neg, zpow_natCast, hten]
  rw [mul_inv, mul_assoc, mul_inv_cancel_left₀ hfive, div_eq_mul_inv]

theorem readsBack_iff {power n : Nat} :
    x.readsBack power n = true ↔ x.Reads (n * 10 ^ (power - 1074 : ℤ)) := by
  rw [readsBack, decide_eq_true_eq, show (1074 : ℤ) = (1074 : Nat) from rfl]
  generalize 1074 = places
  have hgrid : ((n * Nat.pow 10 power : Nat) / (Nat.pow 10 places : Nat) : ℚ) =
      n * 10 ^ (power - places : ℤ) := by
    simp only [Nat.pow_eq, Nat.cast_mul, Nat.cast_pow, Nat.cast_ofNat]
    rw [zpow_sub₀ (by decide), zpow_natCast, zpow_natCast, mul_div_assoc]
  have hpos : 0 < Nat.pow 10 places := Nat.pow_pos (by decide)
  rw [nearest_eq_iff hpos, hgrid, Reads]

/-- The double in parts of its grid and the rest. -/
theorem magnitude_eq_grid (x : Binary64) (power : Nat) :
    x.magnitude = (x.decimalUnits / Nat.pow 10 power : Nat) * 10 ^ (power - 1074 : ℤ) +
        (x.decimalUnits % Nat.pow 10 power : Nat) * 10 ^ (-1074 : ℤ) ∧
      (10 ^ (power - 1074 : ℤ) : ℚ) = (Nat.pow 10 power : Nat) * 10 ^ (-1074 : ℤ) := by
  have hgrid : (10 ^ (power - 1074 : ℤ) : ℚ) = (Nat.pow 10 power : Nat) * 10 ^ (-1074 : ℤ) := by
    rw [sub_eq_add_neg, zpow_add₀ (by decide), zpow_natCast, Nat.pow_eq, Nat.cast_pow,
      Nat.cast_ofNat]
  refine ⟨?_, hgrid⟩
  rw [hgrid, magnitude_eq_decimalUnits, ← mul_assoc, ← add_mul, ← Nat.cast_mul, ← Nat.cast_add,
    Nat.div_add_mod']

/-- The double lies between its neighbours on a grid. -/
theorem magnitude_neighbours (x : Binary64) (power : Nat) :
    ((x.decimalUnits / Nat.pow 10 power : Nat) : ℚ) * 10 ^ (power - 1074 : ℤ) ≤ x.magnitude ∧
      x.magnitude < ((x.decimalUnits / Nat.pow 10 power + 1 : Nat) : ℚ) *
        10 ^ (power - 1074 : ℤ) := by
  obtain ⟨hrest, hgrid⟩ := x.magnitude_eq_grid power
  have hunit := ten_zpow_pos (-1074)
  have hlt : (x.decimalUnits % Nat.pow 10 power : Nat) * 10 ^ (-1074 : ℤ) <
      (10 ^ (power - 1074 : ℤ) : ℚ) := by
    rw [hgrid]
    exact mul_lt_mul_of_pos_right (Nat.cast_lt.mpr (Nat.mod_lt _ (Nat.pow_pos (by decide)))) hunit
  rw [hrest, Nat.cast_succ, add_mul, one_mul]
  exact ⟨le_add_of_nonneg_right (mul_nonneg (Nat.cast_nonneg _) hunit.le), by linarith⟩

/-! ## The choice on a grid -/

section Neighbours

variable {passes : Nat → Bool} {units grid n : Nat}

/-- No neighbour is taken if neither passes. -/
theorem neighbour?_eq_none (h : neighbour? passes units grid = none) :
    passes (units / grid) = false ∧ passes (units / grid + 1) = false := by
  unfold neighbour? at h
  cases hlower : passes (units / grid) <;> cases hupper : passes (units / grid + 1) <;>
    simp only [hlower, hupper, reduceCtorEq] at h
  exact ⟨rfl, rfl⟩

/-- The neighbour that is taken passes, and the other one does not or is at least as far away. -/
theorem neighbour?_eq_some (h : neighbour? passes units grid = some n) :
    passes n = true ∧
      (n = units / grid ∧ (passes (units / grid + 1) = true → 2 * (units % grid) < grid) ∨
        n = units / grid + 1 ∧ (passes (units / grid) = true → grid ≤ 2 * (units % grid))) := by
  unfold neighbour? at h
  cases hlower : passes (units / grid) <;> cases hupper : passes (units / grid + 1) <;>
    simp only [hlower, hupper, reduceCtorEq, Option.some.injEq] at h
  case true.true =>
    split at h <;> subst h
    case isTrue hnear => exact ⟨hupper, .inr ⟨rfl, fun _ => hnear⟩⟩
    case isFalse hfar => exact ⟨hlower, .inl ⟨rfl, fun _ => Nat.lt_of_not_le hfar⟩⟩
  case true.false => exact h ▸ ⟨hlower, .inl ⟨rfl, Bool.noConfusion⟩⟩
  case false.true => exact h ▸ ⟨hupper, .inr ⟨rfl, Bool.noConfusion⟩⟩

end Neighbours

/-- The number reads back, and of those on its grid that do it is nearest to the double. -/
structure ClosestOnGrid (x : Binary64) (e : ℤ) (n : Nat) : Prop where
  reads : x.Reads (n * 10 ^ e)
  closest : ∀ k : Nat, x.Reads (k * 10 ^ e) →
    |n * 10 ^ e - x.magnitude| ≤ |k * 10 ^ e - x.magnitude|

section Grid

variable {power n k : Nat}

/-- Past the double on a grid a number reads back only if the neighbour on that side does. -/
theorem readsBack_neighbour (hfinite : x.isFinite = true)
    (h : x.Reads (k * 10 ^ (power - 1074 : ℤ))) :
    (k ≤ x.decimalUnits / Nat.pow 10 power →
        x.readsBack power (x.decimalUnits / Nat.pow 10 power) = true) ∧
      (x.decimalUnits / Nat.pow 10 power < k →
        x.readsBack power (x.decimalUnits / Nat.pow 10 power + 1) = true) := by
  have hten := (ten_zpow_pos (power - 1074)).le
  have hself := reads_magnitude hfinite
  obtain ⟨hlow, hhigh⟩ := x.magnitude_neighbours power
  constructor <;> intro hk <;> rw [readsBack_iff]
  · exact h.between (mul_nonneg (Nat.cast_nonneg k) hten)
      (mul_le_mul_of_nonneg_right (Nat.cast_le.mpr hk) hten) hlow hself
  · exact hself.between x.magnitude_nonneg hhigh.le
      (mul_le_mul_of_nonneg_right (Nat.cast_le.mpr hk) hten) h

/-- A grid on which none is found has no number that reads back. -/
theorem not_reads_of_onGrid? (hfinite : x.isFinite = true) (h : x.onGrid? power = none) (k : Nat) :
    ¬x.Reads (k * 10 ^ (power - 1074 : ℤ)) := by
  intro hk
  obtain ⟨hlower, hupper⟩ := neighbour?_eq_none h
  obtain ⟨hle, hgt⟩ := readsBack_neighbour hfinite hk
  rcases Nat.lt_or_ge (x.decimalUnits / Nat.pow 10 power) k with hk | hk
  · exact Bool.false_ne_true (hupper.symm.trans (hgt hk))
  · exact Bool.false_ne_true (hlower.symm.trans (hle hk))

/-- The number that is found on a grid reads back, and no other one there that does is nearer. -/
theorem closestOnGrid_of_onGrid? (hfinite : x.isFinite = true) (h : x.onGrid? power = some n) :
    x.ClosestOnGrid (power - 1074) n := by
  obtain ⟨hreads, hside⟩ := neighbour?_eq_some h
  refine ⟨readsBack_iff.mp hreads, fun k hk => ?_⟩
  obtain ⟨hle, hgt⟩ := readsBack_neighbour hfinite hk
  obtain ⟨hlow, hhigh⟩ := x.magnitude_neighbours power
  obtain ⟨hrest, hgrid⟩ := x.magnitude_eq_grid power
  have hten := (ten_zpow_pos (power - 1074)).le
  have hunit := (ten_zpow_pos (-1074)).le
  generalize (10 ^ (power - 1074 : ℤ) : ℚ) = step at *
  generalize x.decimalUnits / Nat.pow 10 power = low at *
  -- twice the rest against the step decides which neighbour is nearer
  have hhalf (hnear : 2 * (x.decimalUnits % Nat.pow 10 power) ≤ Nat.pow 10 power) :
      2 * x.magnitude ≤ (2 * low + 1) * step := by
    have hmul := mul_le_mul_of_nonneg_right (Nat.cast_le (α := ℚ).mpr hnear) hunit
    rw [← hgrid, Nat.cast_mul, Nat.cast_ofNat] at hmul
    linarith
  have hhalf' (hfar : Nat.pow 10 power ≤ 2 * (x.decimalUnits % Nat.pow 10 power)) :
      (2 * low + 1) * step ≤ 2 * x.magnitude := by
    have hmul := mul_le_mul_of_nonneg_right (Nat.cast_le (α := ℚ).mpr hfar) hunit
    rw [← hgrid, Nat.cast_mul, Nat.cast_ofNat] at hmul
    linarith
  rw [Nat.cast_succ] at hhigh
  rcases Nat.lt_or_ge low k with hk | hk
  · have hstep := mul_le_mul_of_nonneg_right (Nat.cast_le (α := ℚ).mpr hk) hten
    rw [Nat.cast_succ] at hstep
    rw [abs_of_nonneg (a := k * step - x.magnitude) (by linarith), abs_le]
    obtain ⟨rfl, hnear⟩ | ⟨rfl, -⟩ := hside
    · have hmid := hhalf (hnear (hgt hk)).le
      constructor <;> linarith
    · rw [Nat.cast_succ]
      constructor <;> linarith
  · have hstep := mul_le_mul_of_nonneg_right (Nat.cast_le (α := ℚ).mpr hk) hten
    rw [abs_of_nonpos (a := k * step - x.magnitude) (by linarith), abs_le]
    obtain ⟨rfl, -⟩ | ⟨rfl, hfar⟩ := hside
    · constructor <;> linarith
    · have hmid := hhalf' (hfar (hle hk))
      rw [Nat.cast_succ]
      constructor <;> linarith

end Grid

/-! ## The shortest decimal -/

/-- The decimal lies on the coarsest grid with a number that reads back, and is the nearest of those
there. -/
structure IsShortest (x : Binary64) (d : Decimal) : Prop where
  closest : x.ClosestOnGrid d.exponent d.digits
  coarsest : ∀ e > d.exponent, ∀ n : Nat, ¬x.Reads (n * 10 ^ e)

section Search

variable {onGrid? : Nat → Option Nat} {finest power n : Nat}

theorem searchDown_zero : searchDown onGrid? finest 0 = ⟨finest, -1074⟩ := rfl

theorem searchDown_of_some (h : onGrid? (power + 1) = some n) :
    searchDown onGrid? finest (power + 1) = ⟨n, (power + 1 : Nat) - 1074⟩ := by
  simp only [searchDown, h]

theorem searchDown_of_none (h : onGrid? (power + 1) = none) :
    searchDown onGrid? finest (power + 1) = searchDown onGrid? finest power := by
  simp only [searchDown, h]

end Search

/-- The search down from a grid finds the shortest decimal if no coarser one has any. -/
theorem isShortest_searchDown (hfinite : x.isFinite = true) (power : Nat)
    (h : ∀ coarser > power, ∀ n : Nat, ¬x.Reads (n * 10 ^ (coarser - 1074 : ℤ))) :
    x.IsShortest (searchDown x.onGrid? x.decimalUnits power) := by
  have hcoarser {e : ℤ} (power : Nat) (he : (power - 1074 : ℤ) < e)
      (h : ∀ coarser > power, ∀ n : Nat, ¬x.Reads (n * 10 ^ (coarser - 1074 : ℤ))) (n : Nat) :
      ¬x.Reads (n * 10 ^ e) := by
    have hn := h (e + 1074).toNat (by omega) n
    rwa [show (((e + 1074).toNat : ℤ) - 1074) = e by omega] at hn
  induction power with
  | zero =>
    rw [searchDown_zero]
    refine ⟨⟨?_, fun k _ => ?_⟩, fun e (he : -1074 < e) => hcoarser 0 (by omega) h⟩
    · show x.Reads (x.decimalUnits * 10 ^ (-1074 : ℤ))
      rw [← magnitude_eq_decimalUnits]
      exact reads_magnitude hfinite
    · show |x.decimalUnits * 10 ^ (-1074 : ℤ) - x.magnitude| ≤ |k * 10 ^ (-1074 : ℤ) - x.magnitude|
      rw [← magnitude_eq_decimalUnits, sub_self, abs_zero]
      exact abs_nonneg _
  | succ power ih =>
    cases hgrid : x.onGrid? (power + 1) with
    | some n =>
      have hclosest := closestOnGrid_of_onGrid? hfinite hgrid
      rw [searchDown_of_some hgrid]
      exact ⟨hclosest, fun e he => hcoarser (power + 1) he h⟩
    | none =>
      rw [searchDown_of_none hgrid]
      refine ih fun coarser hgt n => ?_
      rcases Nat.eq_or_lt_of_le hgt with rfl | hlt
      · exact not_reads_of_onGrid? hfinite hgrid n
      · exact h coarser hlt n

/-- **The decimal found for a finite double is the shortest.** -/
theorem isShortest_shortest (hfinite : x.isFinite = true) (hzero : x.word ≠ 0) :
    x.IsShortest x.shortest := by
  refine isShortest_searchDown hfinite _ fun coarser hcoarser n => ?_
  rcases Nat.eq_zero_or_pos n with rfl | hpos
  · rw [Nat.cast_zero, zero_mul]
    exact not_reads_zero hzero
  · -- the grid is coarser than the power of ten above the double
    refine not_reads_of_twice_le hfinite hzero ?_
    obtain ⟨-, hgrid⟩ := x.magnitude_eq_grid coarser
    have hlt := Decimal.lt_pow_length_numeral x.decimalUnits
    have hpow : 10 * 10 ^ (Decimal.numeral x.decimalUnits).length ≤ 10 ^ coarser := by
      rw [← pow_succ']
      exact Nat.pow_le_pow_right (by decide) hcoarser
    have hle : 2 * x.decimalUnits ≤ n * 10 ^ coarser :=
      Nat.le_trans (by omega) (Nat.mul_le_mul_right (10 ^ coarser) hpos)
    rw [hgrid, magnitude_eq_decimalUnits, ← mul_assoc, ← mul_assoc]
    refine mul_le_mul_of_nonneg_right ?_ (ten_zpow_pos _).le
    rw [Nat.pow_eq]
    exact_mod_cast hle

namespace IsShortest

variable {d : Decimal}

/-- A shortest decimal has a digit. -/
theorem digits_ne_zero (hzero : x.word ≠ 0) (h : x.IsShortest d) : d.digits ≠ 0 := by
  intro hdigits
  have hreads := h.closest.reads
  rw [hdigits, Nat.cast_zero, zero_mul] at hreads
  exact not_reads_zero hzero hreads

/-- A shortest decimal does not end in a zero. -/
theorem digits_mod_ten (h : x.IsShortest d) : d.digits % 10 ≠ 0 := by
  intro hmod
  have hdigits : (d.digits : ℚ) = (d.digits / 10 : Nat) * 10 := by
    exact_mod_cast (Nat.div_mul_cancel (Nat.dvd_of_mod_eq_zero hmod)).symm
  have hreads := h.closest.reads
  rw [hdigits, mul_assoc, ← zpow_one_add₀ (by decide), add_comm] at hreads
  exact h.coarsest _ (Int.lt_succ _) _ hreads

/-- **What reads back has no fewer digits than the shortest decimal.** -/
theorem digits_lt (hzero : x.word ≠ 0) (h : x.IsShortest d) {n k : Nat} {e : ℤ} (hn : n < 10 ^ k)
    (hreads : x.Reads (n * 10 ^ e)) : d.digits < 10 ^ k := by
  refine Nat.lt_of_not_le fun hle => ?_
  have hten (e : ℤ) := (ten_zpow_pos e).le
  have hk : k ≠ 0 := by
    rintro rfl
    rw [pow_zero, Nat.lt_one_iff] at hn
    rw [hn, Nat.cast_zero, zero_mul] at hreads
    exact not_reads_zero hzero hreads
  have he : e ≤ d.exponent := Int.le_of_not_gt fun hgt => h.coarsest e hgt n hreads
  -- a power of ten lies between the two, on a coarser grid
  have hbetween : x.Reads ((1 : Nat) * 10 ^ (k + d.exponent)) := by
    rw [Nat.cast_one, one_mul, zpow_add₀ (by decide), zpow_natCast]
    refine hreads.between (mul_nonneg (Nat.cast_nonneg n) (hten e)) ?_ ?_ h.closest.reads
    · have hn : (n : ℚ) ≤ 10 ^ k := by exact_mod_cast hn.le
      exact mul_le_mul hn (zpow_le_zpow_right₀ (by decide) he) (hten e) (by positivity)
    · have hle : (10 ^ k : ℚ) ≤ d.digits := by exact_mod_cast hle
      exact mul_le_mul_of_nonneg_right hle (hten _)
  exact h.coarsest _ (by omega) 1 hbetween

end IsShortest

end Binary64

end InterfaceCheck
