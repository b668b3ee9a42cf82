import InterfaceCheck.Proofs.Binary64.Integers
import InterfaceCheck.Value.Display
/-!
# Numbers and their texts

Numbers display in two ways: integers below `10^15` by way of a 64-bit integer, all others by their
shortest decimal. Up to `2^53` the two ways give the same text (`text_of_integer`), so where the one
stops and the other starts does not show (`numberText_of_ne_zero`).

- `Value.display_number`: the text of a number has no superfluous zeros, is rounded to the number,
  and has as few digits as any decimal that is;
- `Value.integers_display`: 64-bit integers become the nearest numbers, and those up to `2^53`
  display as their numerals.
-/

namespace InterfaceCheck

/-- The text of an integer is its sign and its numeral. -/
theorem toList_toString (n : Int) :
    (toString n).toList = signed (decide (n < 0)) (Decimal.numeral n.natAbs) := by
  cases n with
  | ofNat n =>
    show n.repr.toList = Decimal.numeral n
    rw [Nat.repr_eq_ofList_toDigits, String.toList_ofList]
    rfl
  | negSucc n =>
    rw [decide_eq_true (Int.negSucc_lt_zero n)]
    show ("-" ++ (n + 1).repr).toList = '-' :: Decimal.numeral (n + 1)
    rw [String.toList_append, Nat.repr_eq_ofList_toDigits, String.toList_ofList,
      String.toList_ofList]
    rfl

namespace Binary64

variable {x y : Binary64}

/-! ## The general text -/

theorem text_of_nan (h : x.isNaN = true) : x.text numberForm = "NaN" := by
  rw [text, if_pos h]
  rfl

theorem text_of_infinite (h : x.isInfinite = true) :
    x.text numberForm = if x.isNegative then "-Infinity" else "Infinity" := by
  have hnumber : x.isNaN = false := isNaN_eq_false.mpr (isInfinite_iff.mp h).le
  rw [text, hnumber, if_neg Bool.false_ne_true]
  cases hsign : x.isNegative <;> simp [h, numberForm]

/-- A finite number but zero is written as its sign and its shortest decimal. -/
theorem toList_text (hfinite : x.isFinite = true) (hzero : x.word ≠ 0) :
    (x.text numberForm).toList = signed x.isNegative x.shortest.positional := by
  have hnotZero : x.isZero = false := decide_eq_false hzero
  rw [text, isNaN_of_isFinite hfinite, isInfinite_of_isFinite hfinite, hnotZero]
  cases x.isNegative <;> simp [numberForm, signed]

theorem text_of_zero (hzero : x.word = 0) (hsign : x.isNegative = false) :
    x.text numberForm = "0" := by
  have hfinite : x.isFinite = true := decide_eq_true (by rw [hzero]; decide)
  rw [text, isNaN_of_isFinite hfinite, isInfinite_of_isFinite hfinite, hsign,
    isZero_iff.mpr hzero]
  rfl

section Text

variable (hfinite : x.isFinite = true) (hzero : x.word ≠ 0)
include hfinite hzero

theorem text_mem : (x.text numberForm).toList ∈ numberTexts := by
  have hmod := (isShortest_shortest hfinite hzero).digits_mod_ten
  rw [toList_text hfinite hzero]
  exact signed_mem _ (Decimal.positional_mem hmod)

theorem text_head?_iff : (x.text numberForm).toList.head? = some '-' ↔ x.value < 0 := by
  have hmod := (isShortest_shortest hfinite hzero).digits_mod_ten
  rw [toList_text hfinite hzero, signed_head?_iff _ (Decimal.positional_head?_ne hmod),
    isNegative_iff hzero]

/-- **The number that the text denotes is rounded to the double.** -/
theorem nearest_text : Nearest (denoted (x.text numberForm).toList) x := by
  have hshortest := isShortest_shortest hfinite hzero
  have hreads : x.Reads x.shortest.value := hshortest.closest.reads
  have hmod := hshortest.digits_mod_ten
  have hpos : 0 ≤ x.shortest.value := mul_nonneg (Nat.cast_nonneg _) (ten_zpow_pos _).le
  rw [toList_text hfinite hzero, denoted_signed _ (Decimal.positional_head?_ne hmod),
    Decimal.positional_denoted hmod, nearest_iff, value]
  split
  · rw [abs_neg, abs_of_nonneg hpos, neg_mul_neg]
    exact ⟨hreads, mul_nonneg hpos x.magnitude_nonneg⟩
  · rw [abs_of_nonneg hpos]
    exact ⟨hreads, mul_nonneg hpos x.magnitude_nonneg⟩

/-- **No decimal that is rounded to the double has fewer digits than the text.** -/
theorem significantDigits_text_le {m e : ℤ} {k : Nat} (hm : m.natAbs < 10 ^ k)
    (hnearest : Nearest (m * 10 ^ e) x) : significantDigits (x.text numberForm).toList ≤ k := by
  have hshortest := isShortest_shortest hfinite hzero
  have hreads := (nearest_iff.mp hnearest).1
  rw [abs_mul, abs_of_pos (ten_zpow_pos e), ← Int.cast_abs, ← Nat.cast_natAbs] at hreads
  have hlt := hshortest.digits_lt hzero hm hreads
  have hdigits := hshortest.digits_ne_zero hzero
  have hk : 0 < k := by
    refine Nat.pos_of_ne_zero ?_
    rintro rfl
    rw [pow_zero, Nat.lt_one_iff] at hlt
    exact hdigits hlt
  rw [toList_text hfinite hzero, significantDigits_signed,
    Decimal.positional_significantDigits hshortest.digits_mod_ten]
  exact (Nat.length_toDigits_le_iff (by decide) hk).mpr hlt

end Text

/-- **Up to `2^53` an integer is written as its numeral.** -/
theorem text_of_integer {n : Int} (hfinite : x.isFinite = true) (hvalue : x.value = n)
    (hn : n.natAbs ≤ 2 ^ 53) (hzero : n ≠ 0) : x.text numberForm = toString n := by
  have hword : x.word ≠ 0 := by
    rw [ne_eq, ← value_eq_zero_iff, hvalue, Int.cast_eq_zero]
    exact hzero
  have hmagnitude : x.magnitude = n.natAbs := by
    rw [← abs_value, hvalue, Nat.cast_natAbs, Int.cast_abs]
  have hsign : x.isNegative = true ↔ n < 0 := by
    rw [isNegative_iff hword, hvalue, Int.cast_lt_zero]
  rw [← String.toList_inj, toList_text hfinite hword,
    positional_of_integer hfinite hword hmagnitude hn, toList_toString]
  exact congrArg (signed · _) (Bool.eq_iff_iff.mpr (hsign.trans decide_eq_true_iff.symm))

/-! ## Integers as doubles -/

theorem reads_ofInt (n : Int) : (ofInt n).Reads n.natAbs := by
  have hword := (nearest_iff.mp (nearest_ofInt n)).1
  rwa [← Int.cast_abs, ← Nat.cast_natAbs] at hword

/-- An integer up to `2^53` is not rounded. -/
theorem value_ofInt {n : Int} (h : n.natAbs ≤ 2 ^ 53) : (ofInt n).value = n := by
  have hexact := exists_word_of_mul_pow (k := 0) h (by decide)
  rw [pow_zero, mul_one] at hexact
  have hmagnitude := magnitude_of_reads hexact (reads_ofInt n)
  rw [← abs_value, Nat.cast_natAbs, Int.cast_abs] at hmagnitude
  obtain ⟨-, hsign⟩ := nearest_iff.mp (nearest_ofInt n)
  rcases abs_eq_abs.mp hmagnitude with heq | hneg
  · exact heq
  · rw [hneg, mul_neg, neg_nonneg] at hsign
    have hzero := mul_self_eq_zero.mp (le_antisymm hsign (mul_self_nonneg (n : ℚ)))
    rw [hneg, hzero, neg_zero]

/-- Integers of 64 bits are far from the infinite doubles. -/
theorem isFinite_ofInt {n : Int} (h : n.natAbs ≤ 2 ^ 63) : (ofInt n).isFinite = true := by
  obtain ⟨bound, hle, hbound⟩ := exists_word_of_mul_pow (m := 1) (k := 63) (by decide) (by decide)
  obtain ⟨next, hnext, hunits⟩ :=
    exists_word_of_mul_pow (m := 1) (k := 64) (by decide) (by decide)
  have hlt : bound < next := by
    rw [← unitsOf_strictMono.lt_iff_lt, hbound, hunits]
    exact Nat.mul_lt_mul_of_pos_right (by decide) zero_lt_unitsOfOne
  have hmono : (n.natAbs : ℚ) * unitsOfOne ≤ unitsOf bound := by
    rw [hbound, one_mul, Nat.cast_mul]
    exact mul_le_mul_of_nonneg_right (Nat.cast_le.mpr h) unitsOfOne_pos.le
  have hword := NearestWord.mono hmono (reads_ofInt n) (nearestWord_unitsOf hle)
  exact decide_eq_true (hword.trans_lt (hlt.trans_le hnext))

theorem word_ofInt_eq_zero_iff {n : Int} : (ofInt n).word = 0 ↔ n = 0 := by
  constructor
  · intro h
    by_contra hne
    have hvalue := value_eq_zero_iff.mpr h
    rcases Int.lt_or_gt_of_ne hne with hneg | hpos
    · have hle : (n : ℚ) ≤ (-1 : Int) := Int.cast_le.mpr (Int.le_sub_one_of_lt hneg)
      have hmono := (nearest_ofInt n).mono hle (nearest_ofInt (-1))
      rw [hvalue, value_ofInt (by decide)] at hmono
      exact absurd hmono (by norm_num)
    · have hle : ((1 : Int) : ℚ) ≤ n := Int.cast_le.mpr hpos
      have hmono := (nearest_ofInt 1).mono hle (nearest_ofInt n)
      rw [hvalue, value_ofInt (by decide)] at hmono
      exact absurd hmono (by norm_num)
  · rintro rfl
    exact value_eq_zero_iff.mp (value_ofInt (by decide))

/-- The doubles that are integers below the limit. -/
theorem isIntegral_and_isBelow_iff {limit : Nat} :
    (x.isIntegral && x.isBelow limit) = true ↔
      x.isFinite = true ∧ ∃ n : Int, x.value = n ∧ n.natAbs < limit := by
  rw [Bool.and_eq_true, isIntegral_iff, ← natAbs_truncated_lt_iff]
  constructor
  · rintro ⟨⟨hfinite, hdvd⟩, hlt⟩
    exact ⟨hfinite, x.truncated, value_eq_truncated hdvd, hlt⟩
  · rintro ⟨hfinite, n, hvalue, hlt⟩
    obtain ⟨hdvd, htruncated⟩ := truncated_of_integer hvalue
    exact ⟨⟨hfinite, hdvd⟩, htruncated ▸ hlt⟩

/-- **An integer of the range is taken to a 64-bit integer without change.** -/
theorem toInt_toInt64_of_integer {n : Int} (hfinite : x.isFinite = true) (hvalue : x.value = n)
    (hn : n.natAbs < 2 ^ 63) : x.toInt64.toInt = n := by
  obtain ⟨-, htruncated⟩ := truncated_of_integer hvalue
  rw [toInt_toInt64 hfinite (htruncated ▸ hn), htruncated]

/-! ## The two ways to display a number -/

/-- **Up to `2^53` it does not show where the one way stops and the other starts.** -/
theorem numberText_of_ne_zero {limit : Nat} (hlimit : limit ≤ 2 ^ 53) (hzero : x.word ≠ 0) :
    numberText limit x = x.text numberForm := by
  unfold numberText
  split
  case isTrue hcast =>
    obtain ⟨hfinite, n, hvalue, hn⟩ := isIntegral_and_isBelow_iff.mp hcast
    have hne : n ≠ 0 := by
      rintro rfl
      exact hzero (value_eq_zero_iff.mp (hvalue.trans Int.cast_zero))
    rw [toInt_toInt64_of_integer hfinite hvalue (by omega),
      text_of_integer hfinite hvalue (by omega) hne]
  case isFalse => rfl

/-- Zeros are integers below every limit, and 64-bit integers have one zero. -/
theorem numberText_of_zero {limit : Nat} (hlimit : 0 < limit) (hzero : x.word = 0) :
    numberText limit x = "0" := by
  have hfinite : x.isFinite = true := decide_eq_true (by rw [hzero]; decide)
  have hvalue : x.value = (0 : Int) := by rw [value_eq_zero_iff.mpr hzero, Int.cast_zero]
  have hcast := isIntegral_and_isBelow_iff.mpr ⟨hfinite, 0, hvalue, hlimit⟩
  rw [numberText, if_pos hcast, toInt_toInt64_of_integer hfinite hvalue (by decide)]
  rfl

/-- An integer up to `2^53` displays as its numeral. -/
theorem numberText_of_integer {limit : Nat} (hpos : 0 < limit) (hlimit : limit ≤ 2 ^ 53) {n : Int}
    (hfinite : x.isFinite = true) (hvalue : x.value = n) (hn : n.natAbs ≤ 2 ^ 53) :
    numberText limit x = toString n := by
  rcases eq_or_ne n 0 with rfl | hne
  · exact numberText_of_zero hpos (value_eq_zero_iff.mp (hvalue.trans Int.cast_zero))
  · have hword : x.word ≠ 0 := by
      rw [ne_eq, ← value_eq_zero_iff, hvalue, Int.cast_eq_zero]
      exact hne
    rw [numberText_of_ne_zero hlimit hword, text_of_integer hfinite hvalue hn hne]

end Binary64

theorem integerLimit_pos : 0 < integerLimit := by decide

theorem integerLimit_le : integerLimit ≤ 2 ^ 53 := by decide

theorem natAbs_toInt_le (v : Int64) : v.toInt.natAbs ≤ 2 ^ 63 := by
  have hlow := v.le_toInt
  have hhigh := v.toInt_lt
  omega

namespace Value

open Binary64

theorem display_of_ne_zero {x : Binary64} (h : x.word ≠ 0) :
    (number x).display = x.text numberForm :=
  numberText_of_ne_zero integerLimit_le h

theorem display_of_zero {x : Binary64} (h : x.word = 0) : (number x).display = "0" :=
  numberText_of_zero integerLimit_pos h

theorem display_of_infinite {x : Binary64} (h : x.isInfinite = true) :
    (number x).display = if x.isNegative then "-Infinity" else "Infinity" := by
  have hzero : x.word ≠ 0 := by
    rw [isInfinite_iff.mp h]
    decide
  rw [display_of_ne_zero hzero, text_of_infinite h]

/-! ## Integers -/

theorem display_ofInt {n : Int} (h : n.natAbs ≤ 2 ^ 53) :
    (number (ofInt n)).display = toString n :=
  numberText_of_integer integerLimit_pos integerLimit_le (isFinite_ofInt (by omega))
    (value_ofInt h) h

theorem isTruthy_ofInt64_iff (v : Int64) : (ofInt64 v).isTruthy = true ↔ v ≠ 0 := by
  have hnumber := isNaN_of_isFinite (isFinite_ofInt (natAbs_toInt_le v))
  show (!(ofInt v.toInt).isZero && !(ofInt v.toInt).isNaN) = true ↔ v ≠ 0
  rw [hnumber, Bool.not_false, Bool.and_true, Bool.not_eq_true', ← Bool.not_eq_true, isZero_iff,
    word_ofInt_eq_zero_iff, ← Int64.toInt_zero, Int64.toInt_inj]

/-- The negative zero is the one number whose text is not the general one. -/
theorem display_eq_text {x : Binary64} (h : ¬(x.isZero = true ∧ x.isNegative = true)) :
    (number x).display = x.text numberForm := by
  rcases eq_or_ne x.word 0 with hzero | hzero
  · have hsign : x.isNegative = false :=
      Bool.eq_false_iff.mpr fun hsign => h ⟨isZero_iff.mpr hzero, hsign⟩
    rw [display_of_zero hzero, text_of_zero hzero hsign]
  · exact display_of_ne_zero hzero

theorem numberText_eq_display {limit : Nat} (hpos : 0 < limit) (hle : limit ≤ 2 ^ 53)
    (x : Binary64) : numberText limit x = (number x).display := by
  rcases eq_or_ne x.word 0 with hzero | hzero
  · rw [numberText_of_zero hpos hzero, display_of_zero hzero]
  · rw [numberText_of_ne_zero hle hzero, display_of_ne_zero hzero]

/-- **Integers become the nearest numbers and display as their numerals.** Of the two ways to
display an integer either would do, wherever the limit between them stands. -/
theorem integers_display :
    (∀ v : Int64, ∃ x, ofInt64 v = .number x ∧ x.isFinite = true ∧ Nearest v.toInt x ∧
      ((ofInt64 v).isTruthy = true ↔ v ≠ 0) ∧
      (v.toInt.natAbs ≤ 2 ^ 53 → (ofInt64 v).display = toString v.toInt)) ∧
    (∀ u v x y, u ≤ v → ofInt64 u = .number x → ofInt64 v = .number y → x.value ≤ y.value) ∧
    (∀ v : Int32, ∃ x, ofInt32 v = .number x ∧ x.value = v.toInt ∧
      (ofInt32 v).display = toString v.toInt) ∧
    (∀ x : Binary64, (x.isIntegral && x.isBelow integerLimit) = true ↔
      x.isFinite = true ∧ ∃ n : Int, x.value = n ∧ n.natAbs < integerLimit) ∧
    (∀ (x : Binary64) (n : Int), x.isFinite = true → x.value = n → n.natAbs < integerLimit →
      x.toInt64.toInt = n ∧ (n ≠ 0 → toString n = x.text numberForm)) ∧
    (∀ x : Binary64, (x.isZero = true ∧ x.isNegative = true → (number x).display = "0") ∧
      (¬(x.isZero = true ∧ x.isNegative = true) → (number x).display = x.text numberForm)) ∧
    (∀ limit x, 0 < limit → limit ≤ 2 ^ 53 → numberText limit x = (number x).display) := by
  have hlimit := integerLimit_le
  refine ⟨fun v => ?_, ?_, fun v => ?_, fun x => isIntegral_and_isBelow_iff,
    fun x n hfinite hvalue hn => ⟨?_, fun hne => ?_⟩, fun x => ⟨fun hzero => ?_, display_eq_text⟩,
    fun limit x hpos hle => numberText_eq_display hpos hle x⟩
  · exact ⟨ofInt v.toInt, rfl, isFinite_ofInt (natAbs_toInt_le v), nearest_ofInt v.toInt,
      isTruthy_ofInt64_iff v, display_ofInt⟩
  · rintro u v x y huv ⟨⟩ ⟨⟩
    exact (nearest_ofInt u.toInt).mono (Int.cast_le.mpr (Int64.le_iff_toInt_le.mp huv))
      (nearest_ofInt v.toInt)
  · have hv : v.toInt.natAbs ≤ 2 ^ 53 := by
      have hlow := v.le_toInt
      have hhigh := v.toInt_lt
      omega
    exact ⟨ofInt v.toInt, rfl, value_ofInt hv, display_ofInt hv⟩
  · exact toInt_toInt64_of_integer hfinite hvalue (by omega)
  · exact (text_of_integer hfinite hvalue (by omega) hne).symm
  · exact display_of_zero (isZero_iff.mp hzero.1)

/-- Past the limit for 64-bit integers numerals are still exact, up to `2^53`. -/
theorem integers_display_boundary :
    (ofInt64 9007199254740992).display = "9007199254740992" ∧
    (∃ x y, ofInt64 9007199254740992 = .number x ∧ ofInt64 9007199254740993 = .number y ∧
      x.value ≤ y.value) ∧
    (ofInt (-5)).toInt64.toInt = -5 ∧ "-5" = (ofInt (-5)).text numberForm ∧
    (number ⟨0x8000000000000000⟩).display = "0" ∧
    (number (ofInt 5)).display = (ofInt 5).text numberForm ∧
    numberText 1 (ofInt 5) = (number (ofInt 5)).display := by
  obtain ⟨hofInt64, hmono, -, -, hcast, hgeneral, hlimit⟩ := integers_display
  obtain ⟨x, hx, -, -, -, hdisplay⟩ := hofInt64 9007199254740992
  obtain ⟨y, hy, -⟩ := hofInt64 9007199254740993
  obtain ⟨htoInt, htext⟩ := hcast (ofInt (-5)) (-5) (isFinite_ofInt (by decide))
    (value_ofInt (by decide)) (by decide)
  have hfive : ¬((ofInt 5).isZero = true ∧ (ofInt 5).isNegative = true) := by decide +kernel
  exact ⟨hdisplay (by decide), ⟨x, y, hx, hy, hmono _ _ x y (by decide) hx hy⟩, htoInt,
    htext (by decide), (hgeneral _).1 (by decide), (hgeneral _).2 hfive,
    hlimit 1 _ (by decide) (by decide)⟩

/-! ## All numbers -/

/-- The text of a finite number. -/
theorem display_of_finite {x : Binary64} (hfinite : x.isFinite = true) :
    (number x).display.toList ∈ numberTexts ∧
      ((number x).display.toList.head? = some '-' ↔ x.value < 0) ∧
      Nearest (denoted (number x).display.toList) x ∧
      ∀ (m e : ℤ) (k : Nat), m.natAbs < 10 ^ k → Nearest (m * 10 ^ e) x →
        significantDigits (number x).display.toList ≤ k := by
  rcases eq_or_ne x.word 0 with hzero | hzero
  · have hvalue := value_eq_zero_iff.mpr hzero
    have htext : (number x).display.toList = ['0'] := by
      rw [display_of_zero hzero]
      rfl
    rw [htext, hvalue, denoted_zero, nearest_iff, hzero, hvalue]
    refine ⟨zero_mem_numberTexts, iff_of_false (by decide) (lt_irrefl 0), ⟨?_, ?_⟩, ?_⟩
    · rw [abs_zero, zero_mul, ← Nat.cast_zero, ← unitsOf_zero]
      exact nearestWord_unitsOf (Nat.zero_le _)
    · rw [mul_zero]
    · exact fun m e k _ _ => Nat.zero_le k
  · rw [display_of_ne_zero hzero]
    exact ⟨text_mem hfinite hzero, text_head?_iff hfinite hzero, nearest_text hfinite hzero,
      fun m e k => significantDigits_text_le hfinite hzero⟩

/-- The texts of the infinite numbers have no digits. -/
theorem display_ne_of_infinite {x y : Binary64} (hx : x.isInfinite = true)
    (hy : y.isFinite = true) : (number x).display ≠ (number y).display := by
  intro heq
  obtain ⟨hmem, -⟩ := display_of_finite hy
  have hsome := List.any_eq_true.mpr (exists_digit_of_mem hmem)
  have hnone : (number x).display.toList.any Char.isDigit = false := by
    rw [display_of_infinite hx]
    split <;> decide
  rw [heq, hsome] at hnone
  exact Bool.false_ne_true hnone.symm

theorem display_eq_of_value_eq {x y : Binary64} (h : x.value = y.value) :
    (number x).display = (number y).display := by
  rcases eq_or_ne x.word 0 with hzero | hzero
  · have hy : y.word = 0 := by rw [← value_eq_zero_iff, ← h, value_eq_zero_iff, hzero]
    rw [display_of_zero hzero, display_of_zero hy]
  · rw [eq_of_value_eq hzero h]

/-- Numbers that display alike are equal. -/
theorem value_eq_of_display_eq {x y : Binary64} (hx : x.isNaN = false) (hy : y.isNaN = false)
    (h : (number x).display = (number y).display) :
    x.isInfinite = y.isInfinite ∧ x.value = y.value := by
  rcases isFinite_or_isInfinite hx with hx | hx <;>
    rcases isFinite_or_isInfinite hy with hy | hy
  · obtain ⟨-, -, hxnearest, -⟩ := display_of_finite hx
    obtain ⟨-, -, hynearest, -⟩ := display_of_finite hy
    rw [← h] at hynearest
    exact ⟨by rw [isInfinite_of_isFinite hx, isInfinite_of_isFinite hy],
      hxnearest.value_eq hynearest⟩
  · exact absurd h.symm (display_ne_of_infinite hy hx)
  · exact absurd h (display_ne_of_infinite hx hy)
  · have hsign : x.isNegative = y.isNegative := by
      rw [display_of_infinite hx, display_of_infinite hy] at h
      cases hx : x.isNegative <;> cases hy : y.isNegative <;> simp [hx, hy] at h ⊢
    have hword := (isInfinite_iff.mp hx).trans (isInfinite_iff.mp hy).symm
    rw [eq_of_word_eq hword hsign]
    exact ⟨rfl, rfl⟩

/-- **The text of a number denotes it in as few digits as it takes.** -/
theorem display_number (x : Binary64) :
    (x.isNaN = true → (number x).display = "NaN") ∧
    (x.isInfinite = true →
      (number x).display = if x.isNegative then "-Infinity" else "Infinity") ∧
    (x.isZero = true → (number x).display = "0") ∧
    (x.isFinite = true →
      (number x).display.toList ∈ numberTexts ∧
      ((number x).display.toList.head? = some '-' ↔ x.value < 0) ∧
      Nearest (denoted (number x).display.toList) x ∧
      ∀ (m e : ℤ) (k : Nat), m.natAbs < 10 ^ k → Nearest (m * 10 ^ e) x →
        significantDigits (number x).display.toList ≤ k) ∧
    (∀ y : Binary64, x.isNaN = false → y.isNaN = false →
      ((number x).display = (number y).display ↔
        x.isInfinite = y.isInfinite ∧ x.value = y.value)) := by
  refine ⟨fun hnan => ?_, display_of_infinite, fun hzero => display_of_zero (isZero_iff.mp hzero),
    display_of_finite, fun y hx hy => ⟨value_eq_of_display_eq hx hy, fun h => ?_⟩⟩
  · have hzero : x.word ≠ 0 := by
      rintro hzero
      have hlt : infiniteWord < x.word := of_decide_eq_true hnan
      omega
    rw [display_of_ne_zero hzero, text_of_nan hnan]
  · exact display_eq_of_value_eq h.2

/-- A double near a tenth displays with one digit, and no other number displays so. -/
theorem display_number_tenth :
    (number ⟨0x7FF8000000000000⟩).display = "NaN" ∧
    (number ⟨0xFFF0000000000000⟩).display = "-Infinity" ∧
    (number ⟨0x8000000000000000⟩).display = "0" ∧
    Nearest (denoted (number ⟨0x3FB999999999999A⟩).display.toList) ⟨0x3FB999999999999A⟩ ∧
    significantDigits (number ⟨0x3FB999999999999A⟩).display.toList ≤ 1 ∧
    (number ⟨0x3FB999999999999A⟩).display ≠ (number ⟨0x3FB999999999999B⟩).display := by
  obtain ⟨-, -, -, hfinite, hequal⟩ := display_number ⟨0x3FB999999999999A⟩
  obtain ⟨-, -, hdenoted, hfewest⟩ := hfinite (by decide)
  have htenth : Nearest ((1 : ℤ) * 10 ^ (-1 : ℤ)) ⟨0x3FB999999999999A⟩ := by
    have hword := (nearest_eq_iff (by decide)).mp
      (by decide +kernel : nearest 1 10 = (⟨0x3FB999999999999A⟩ : Binary64).word)
    have habs : |((1 : ℤ) * 10 ^ (-1 : ℤ) : ℚ)| = (1 : Nat) / (10 : Nat) := by norm_num
    refine nearest_iff.mpr ⟨habs ▸ hword, mul_nonneg (by norm_num) ?_⟩
    rw [value, if_neg (by decide)]
    exact magnitude_nonneg _
  refine ⟨(display_number ⟨0x7FF8000000000000⟩).1 (by decide),
    (display_number ⟨0xFFF0000000000000⟩).2.1 (by decide),
    (display_number ⟨0x8000000000000000⟩).2.2.1 (by decide), hdenoted,
    hfewest 1 (-1) 1 (by decide) htenth, fun heq => ?_⟩
  obtain ⟨-, hvalue⟩ := (hequal _ (by decide) (by decide)).mp heq
  exact absurd (eq_of_value_eq (by decide) hvalue) (by decide)

example : (number ⟨0x3FB999999999999A⟩).display = "0.1" := by decide +kernel

end Value

end InterfaceCheck
