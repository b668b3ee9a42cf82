import InterfaceCheck.Proofs.Binary64.Magnitudes
import Mathlib.Algebra.Order.Ring.Rat
import Mathlib.Data.Rat.Cast.Order
import Mathlib.Tactic.FieldSimp
import Mathlib.Tactic.Linarith
import Mathlib.Tactic.Positivity
/-!
# Rounding magnitudes

A rational number of units is rounded to the magnitude that is nearest to it, and of two that are
equally near to the one with an even word, which is the one with an even significand
(`NearestWord`). The infinite word takes part in this with the `2^1024` that it stands for. So a
number becomes infinite from half a step past the largest finite magnitude on.

- `nearestWord_nearestUnits`: the computed word is a nearest one;
- `NearestWord.unique`: there is no other;
- `NearestWord.mono`: larger numbers have larger nearest words;
- `NearestWord.between`: the numbers that are rounded to one word have no gaps between them.
-/

namespace InterfaceCheck.Binary64

/-- The word is nearest to `t` units; of two equally near ones it is even. -/
structure NearestWord (t : ℚ) (word : Nat) : Prop where
  le : word ≤ infiniteWord
  closest : ∀ v ≤ infiniteWord, |t - unitsOf word| ≤ |t - unitsOf v|
  even : ∀ v ≤ infiniteWord, v ≠ word → |t - unitsOf v| = |t - unitsOf word| → word % 2 = 0

/-! ## Which of two numbers is nearer -/

section Nearer

variable {t a b : ℚ}

/-- Of two numbers the larger one is nearer from the middle between them on. -/
theorem abs_sub_le_iff_of_lt (h : b < a) : |t - a| ≤ |t - b| ↔ a + b ≤ 2 * t := by
  constructor
  · intro hle
    rcases abs_cases (t - a) with ⟨ha, ha'⟩ | ⟨ha, ha'⟩ <;>
      rcases abs_cases (t - b) with ⟨hb, hb'⟩ | ⟨hb, hb'⟩ <;> linarith
  · intro hmid
    rw [abs_le, abs_of_nonneg (by linarith : 0 ≤ t - b)]
    constructor <;> linarith

/-- And the smaller one up to there. -/
theorem abs_sub_le_iff_of_gt (h : a < b) : |t - a| ≤ |t - b| ↔ 2 * t ≤ a + b := by
  constructor
  · intro hle
    rcases abs_cases (t - a) with ⟨ha, ha'⟩ | ⟨ha, ha'⟩ <;>
      rcases abs_cases (t - b) with ⟨hb, hb'⟩ | ⟨hb, hb'⟩ <;> linarith
  · intro hmid
    rw [abs_le, abs_of_nonpos (by linarith : t - b ≤ 0)]
    constructor <;> linarith

theorem unitsOf_lt {v w : Nat} (h : v < w) : (unitsOf v : ℚ) < unitsOf w :=
  Nat.cast_lt.mpr (unitsOf_strictMono h)

end Nearer

/-! ## The nearest integer -/

/-- A quotient is at most a half away from the integer that it is rounded to, and from an odd one
less than a half. -/
theorem roundHalfEven_close (num : Nat) {den : Nat} (h : 0 < den) :
    |(num / den : ℚ) - roundHalfEven num den| ≤ 1 / 2 ∧
      (|(num / den : ℚ) - roundHalfEven num den| = 1 / 2 → roundHalfEven num den % 2 = 0) := by
  have hden : (0 : ℚ) < den := Nat.cast_pos.mpr h
  obtain ⟨q, hq⟩ : ∃ q, num / den = q := ⟨_, rfl⟩
  obtain ⟨rem, hrem⟩ : ∃ rem, num % den = rem := ⟨_, rfl⟩
  have hdiv : (num / den : ℚ) = q + rem / den := by
    have hnum : num = den * q + rem := by rw [← hq, ← hrem, Nat.div_add_mod]
    rw [hnum]
    push_cast
    field_simp
  have hpos : (0 : ℚ) ≤ rem / den := by positivity
  unfold roundHalfEven
  simp only [hq, hrem, hdiv]
  split
  case isTrue hlow =>
    have hhalf : (rem / den : ℚ) < 1 / 2 := by
      rw [div_lt_iff₀ hden]
      have : (2 * rem : ℚ) < den := by exact_mod_cast hlow
      linarith
    rw [add_sub_cancel_left, abs_of_nonneg hpos]
    exact ⟨hhalf.le, fun heq => absurd heq hhalf.ne⟩
  case isFalse hlow =>
    split
    case isTrue hhigh =>
      have hone : (rem / den : ℚ) < 1 := by
        rw [div_lt_one hden, Nat.cast_lt, ← hrem]
        exact Nat.mod_lt num h
      have hhalf : (1 / 2 : ℚ) < rem / den := by
        rw [lt_div_iff₀ hden]
        have : (den : ℚ) < 2 * rem := by exact_mod_cast hhigh
        linarith
      have hdist : |(q + rem / den - (q + 1 : Nat) : ℚ)| < 1 / 2 := by
        push_cast
        rw [abs_lt]
        constructor <;> linarith
      exact ⟨hdist.le, fun heq => absurd heq hdist.ne⟩
    case isFalse hhigh =>
      -- the middle between two integers: one of them is even
      have hhalf : (rem / den : ℚ) = 1 / 2 := by
        rw [div_eq_iff hden.ne']
        have : (2 * rem : ℚ) = den := by exact_mod_cast (by omega : 2 * rem = den)
        linarith
      refine ⟨?_, fun _ => by omega⟩
      rw [hhalf]
      rcases Nat.mod_two_eq_zero_or_one q with hq | hq <;> rw [hq, abs_le] <;> push_cast <;>
        constructor <;> linarith

/-! ## The nearest word -/

/-- The scale for a number is the least one at which 53 bits suffice. -/
theorem scale_bounds (num : Nat) {den scale : Nat} (h : 0 < den)
    (hscale : (num / den).log2 - 52 = scale) :
    (num / den / 2 ^ scale : ℚ) < 2 ^ 53 ∧
      (scale = 0 ∨ (2 ^ 52 : ℚ) ≤ num / den / 2 ^ scale) := by
  have hden : (0 : ℚ) < den := Nat.cast_pos.mpr h
  have hunit : (0 : ℚ) < 2 ^ scale := by positivity
  constructor
  · have hlog : num / den < 2 ^ (scale + 53) :=
      Nat.lt_of_lt_of_le Nat.lt_log2_self (Nat.pow_le_pow_right (by decide) (by omega))
    have hlt : num < 2 ^ (scale + 53) * den := (Nat.div_lt_iff_lt_mul h).mp hlog
    rw [div_lt_iff₀ hunit, div_lt_iff₀ hden]
    calc (num : ℚ) < (2 ^ (scale + 53) * den : Nat) := Nat.cast_lt.mpr hlt
      _ = 2 ^ 53 * 2 ^ scale * den := by push_cast; ring
  · rcases Nat.eq_zero_or_pos scale with hzero | hpos
    · exact .inl hzero
    · right
      have hne : num / den ≠ 0 := by
        rintro hzero
        rw [hzero, Nat.log2_zero] at hscale
        omega
      have hlog : 2 ^ (scale + 52) ≤ num / den := by
        have hexp : (num / den).log2 = scale + 52 := by omega
        rw [← hexp]
        exact Nat.log2_self_le hne
      have hle : 2 ^ (scale + 52) * den ≤ num := (Nat.le_div_iff_mul_le h).mp hlog
      rw [le_div_iff₀ hunit, le_div_iff₀ hden]
      calc (2 ^ 52 * 2 ^ scale * den : ℚ) = (2 ^ (scale + 52) * den : Nat) := by push_cast; ring
        _ ≤ num := Nat.cast_le.mpr hle

/-- A number is rounded to a multiple of the unit at its scale. -/
theorem exists_nearestUnits_eq (num : Nat) {den : Nat} (h : 0 < den) :
    ∃ scale m : Nat, nearestUnits num den = min (scale * 2 ^ 52 + m) infiniteWord ∧
      m ≤ 2 ^ 53 ∧ (scale = 0 ∨ 2 ^ 52 ≤ m ∧ (2 ^ 52 * 2 ^ scale : ℚ) ≤ num / den) ∧
      |(num / den : ℚ) - m * 2 ^ scale| ≤ 2 ^ scale / 2 ∧
      (|(num / den : ℚ) - m * 2 ^ scale| = 2 ^ scale / 2 → m % 2 = 0) := by
  obtain ⟨scale, hscale⟩ : ∃ scale, (num / den).log2 - 52 = scale := ⟨_, rfl⟩
  obtain ⟨m, hm⟩ : ∃ m : Nat, roundHalfEven num (den * 2 ^ scale) = m := ⟨_, rfl⟩
  have hunit : (0 : ℚ) < 2 ^ scale := by positivity
  have hresult : nearestUnits num den = min (scale * 2 ^ 52 + m) infiniteWord := by
    rw [← hm, ← hscale]
    rfl
  -- the number in units of the scale
  obtain ⟨hupper, hlower⟩ := scale_bounds num h hscale
  obtain ⟨hclose, heven⟩ := roundHalfEven_close num (Nat.mul_pos h (Nat.two_pow_pos scale))
  rw [hm] at hclose heven
  have hquot : (num / (den * 2 ^ scale : Nat) : ℚ) = num / den / 2 ^ scale := by
    push_cast
    rw [div_div]
  rw [hquot] at hclose heven
  have hdist : |(num / den : ℚ) - m * 2 ^ scale| =
      |(num / den / 2 ^ scale - m : ℚ)| * 2 ^ scale := by
    rw [← abs_of_pos hunit, ← abs_mul, abs_of_pos hunit, sub_mul, div_mul_cancel₀ _ hunit.ne']
  have hbounds := abs_le.mp hclose
  refine ⟨scale, m, hresult, ?_, hlower.imp_right fun hlow => ⟨?_, ?_⟩, ?_, fun heq => ?_⟩
  · have hm : (m : ℚ) < (2 ^ 53 + 1 : Nat) := by push_cast; linarith
    exact Nat.le_of_lt_succ (Nat.cast_lt.mp hm)
  · have hm : ((2 ^ 52 : Nat) : ℚ) < (m + 1 : Nat) := by push_cast; linarith
    exact Nat.le_of_lt_succ (Nat.cast_lt.mp hm)
  · exact (le_div_iff₀ hunit).mp hlow
  · rw [hdist]
    calc |(num / den / 2 ^ scale - m : ℚ)| * 2 ^ scale ≤ 1 / 2 * 2 ^ scale :=
          mul_le_mul_of_nonneg_right hclose hunit.le
      _ = 2 ^ scale / 2 := by ring
  · rw [hdist] at heq
    refine heven (mul_right_cancel₀ hunit.ne' (heq.trans ?_))
    ring

/-- What is within half a unit of one multiple of it is at least as far from the others. -/
theorem half_le_abs_sub {t unit : ℚ} {m k : Nat} (hunit : 0 < unit)
    (hclose : |t - m * unit| ≤ unit / 2) (hk : k ≠ m) : unit / 2 ≤ |t - k * unit| := by
  have hbounds := abs_le.mp hclose
  rcases Nat.lt_or_gt_of_ne hk with hlt | hgt
  · have hk : (k + 1 : ℚ) ≤ m := by exact_mod_cast hlt
    have hmul := mul_le_mul_of_nonneg_right hk hunit.le
    exact le_trans (by linarith) (le_abs_self _)
  · have hk : (m + 1 : ℚ) ≤ k := by exact_mod_cast hgt
    have hmul := mul_le_mul_of_nonneg_right hk hunit.le
    exact le_trans (by linarith) (neg_le_abs _)

/-- What is nearest among all words is nearest up to the infinite word as well. -/
theorem NearestWord.of_unbounded {t : ℚ} {word : Nat}
    (hclosest : ∀ v, |t - unitsOf word| ≤ |t - unitsOf v|)
    (heven : ∀ v, v ≠ word → |t - unitsOf v| = |t - unitsOf word| → word % 2 = 0) :
    NearestWord t (min word infiniteWord) := by
  rcases Nat.lt_or_ge infiniteWord word with hpast | hle
  · rw [Nat.min_eq_right hpast.le]
    -- the number lies past the infinite word, so every smaller word is farther away
    have hmid := (abs_sub_le_iff_of_lt (unitsOf_lt hpast)).mp (hclosest infiniteWord)
    have hstep := unitsOf_lt hpast
    have hfar {v : Nat} (hv : v < infiniteWord) :
        |t - unitsOf infiniteWord| < |t - unitsOf v| := by
      have hlt := unitsOf_lt hv
      rw [abs_of_pos (by linarith), abs_of_pos (by linarith)]
      linarith
    refine ⟨Nat.le_refl _, fun v hv => ?_, fun v hv hne heq => ?_⟩
    · rcases Nat.lt_or_eq_of_le hv with hv | rfl
      · exact (hfar hv).le
      · exact le_rfl
    · exact absurd heq (hfar (Nat.lt_of_le_of_ne hv hne)).ne'
  · rw [Nat.min_eq_left hle]
    exact ⟨hle, fun v _ => hclosest v, fun v _ => heven v⟩

/-- **The computed word is nearest to the number.** -/
theorem nearestWord_nearestUnits (num : Nat) {den : Nat} (h : 0 < den) :
    NearestWord (num / den) (nearestUnits num den) := by
  obtain ⟨scale, m, hresult, hm, hscale, hclose, htie⟩ := exists_nearestUnits_eq num h
  obtain ⟨t, ht⟩ : ∃ t : ℚ, (num / den : ℚ) = t := ⟨_, rfl⟩
  rw [ht] at hscale hclose htie ⊢
  rw [hresult]
  have hunit : (0 : ℚ) < 2 ^ scale := by positivity
  have hword : unitsOf (scale * 2 ^ 52 + m) = m * 2 ^ scale :=
    unitsOf_eq hm (hscale.imp_right And.left)
  have hwordQ : (unitsOf (scale * 2 ^ 52 + m) : ℚ) = m * 2 ^ scale := by
    rw [hword]
    push_cast
    rfl
  have hgrid {k : Nat} (hk : k ≠ m) := half_le_abs_sub hunit hclose hk
  have hmultiple (k : Nat) : |t - m * 2 ^ scale| ≤ |t - k * 2 ^ scale| := by
    rcases eq_or_ne k m with rfl | hk
    · exact le_rfl
    · exact hclose.trans (hgrid hk)
  -- smaller words than those of the scale are farther away than the least one of the scale
  have hsmall {v : Nat} (hpos : 0 < scale) (hv : unitsOf v < 2 ^ 52 * 2 ^ scale) :
      |t - m * 2 ^ scale| < |t - unitsOf v| := by
    obtain ⟨-, hlow⟩ := hscale.resolve_left hpos.ne'
    have hv : (unitsOf v : ℚ) < (2 ^ 52 : Nat) * 2 ^ scale := by exact_mod_cast hv
    refine (hmultiple (2 ^ 52)).trans_lt ?_
    push_cast at hv ⊢
    rw [abs_of_nonneg (by linarith), abs_of_pos (by linarith)]
    linarith
  refine NearestWord.of_unbounded (fun v => ?_) (fun v hne heq => ?_) <;> rw [hwordQ] at *
  · obtain ⟨k, hk⟩ | ⟨hpos, hv⟩ := unitsOf_multiple_or_lt v scale
    · rw [hk]
      push_cast
      exact hmultiple k
    · exact (hsmall hpos hv).le
  · obtain ⟨k, hk⟩ | ⟨hpos, hv⟩ := unitsOf_multiple_or_lt v scale
    · have hkm : k ≠ m := by
        rintro rfl
        exact hne (unitsOf_strictMono.injective (hk.trans hword.symm))
      rw [hk] at heq
      push_cast at heq
      have := htie (le_antisymm hclose (heq ▸ hgrid hkm))
      omega
    · exact absurd heq (hsmall hpos hv).ne'

/-- Every number has a nearest word. -/
theorem exists_nearestWord {t : ℚ} (h : 0 ≤ t) : ∃ word, NearestWord t word := by
  refine ⟨nearestUnits t.num.natAbs t.den, ?_⟩
  have hword := nearestWord_nearestUnits t.num.natAbs t.den_pos
  rwa [Nat.cast_natAbs, abs_of_nonneg (Rat.num_nonneg.mpr h), Rat.num_div_den] at hword

/-! ## Uniqueness and order -/

namespace NearestWord

variable {s t : ℚ} {v w : Nat}

/-- Two nearest words would be even, and a word between them nearer. -/
theorem not_lt (hv : NearestWord t v) (hw : NearestWord t w) : ¬v < w := by
  intro hlt
  have hvw := (abs_sub_le_iff_of_gt (unitsOf_lt hlt)).mp (hv.closest w hw.le)
  have hwv := (abs_sub_le_iff_of_lt (unitsOf_lt hlt)).mp (hw.closest v hv.le)
  have heq : |t - unitsOf w| = |t - unitsOf v| :=
    le_antisymm (hw.closest v hv.le) (hv.closest w hw.le)
  have hveven := hv.even w hw.le hlt.ne' heq
  have hweven := hw.even v hv.le hlt.ne heq.symm
  have hbetween : v + 1 < w := by omega
  have hlow := unitsOf_lt (Nat.lt_add_one v)
  have hhigh := unitsOf_lt hbetween
  have hcloser := (abs_sub_le_iff_of_gt hlow).mp (hv.closest (v + 1) (hbetween.le.trans hw.le))
  linarith

/-- **There is one nearest word.** -/
theorem unique (hv : NearestWord t v) (hw : NearestWord t w) : v = w :=
  Nat.le_antisymm (Nat.le_of_not_lt (hw.not_lt hv)) (Nat.le_of_not_lt (hv.not_lt hw))

/-- **Larger numbers have larger nearest words.** -/
theorem mono (hst : s ≤ t) (hv : NearestWord s v) (hw : NearestWord t w) : v ≤ w := by
  refine Nat.le_of_not_lt fun hlt => ?_
  have hvw := (abs_sub_le_iff_of_lt (unitsOf_lt hlt)).mp (hv.closest w hw.le)
  have hwv := (abs_sub_le_iff_of_gt (unitsOf_lt hlt)).mp (hw.closest v hv.le)
  obtain rfl : s = t := by linarith
  exact hlt.ne (hw.unique hv)

/-- **What lies between two numbers with one nearest word has it too.** -/
theorem between {r : ℚ} (hr : 0 ≤ r) (hrs : r ≤ s) (hst : s ≤ t) (hrw : NearestWord r w)
    (htw : NearestWord t w) : NearestWord s w := by
  obtain ⟨v, hv⟩ := exists_nearestWord (hr.trans hrs)
  obtain rfl : v = w := Nat.le_antisymm (mono hst hv htw) (mono hrs hrw hv)
  exact hv

end NearestWord

/-- A magnitude is rounded to itself. -/
theorem nearestWord_unitsOf {word : Nat} (h : word ≤ infiniteWord) :
    NearestWord (unitsOf word) word := by
  refine ⟨h, fun v _ => ?_, fun v _ hne heq => ?_⟩
  · rw [sub_self, abs_zero]
    exact abs_nonneg _
  · rw [sub_self, abs_zero, abs_eq_zero, sub_eq_zero, Nat.cast_inj] at heq
    exact absurd (unitsOf_strictMono.injective heq).symm hne

theorem NearestWord.eq_zero {word : Nat} (h : NearestWord 0 word) : word = 0 := by
  have hzero := nearestWord_unitsOf (Nat.zero_le infiniteWord)
  rw [unitsOf_zero, Nat.cast_zero] at hzero
  exact h.unique hzero

end InterfaceCheck.Binary64
