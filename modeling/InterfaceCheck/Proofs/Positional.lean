import InterfaceCheck.Decimal
import InterfaceCheck.Proofs.Patterns
import Mathlib.Algebra.Order.Field.Basic
import Mathlib.Algebra.Order.Field.Rat
import Mathlib.Data.List.DropRight
import Mathlib.Tactic.FieldSimp
/-!
# Positional texts

What a number text says is read off the text alone: `denoted` gives the number, by the digits before
and after the point, and `significantDigits` counts the digits without the zeros on either side.
`numberTexts` is the language of the texts with no zero in them that could be left out.

A text is taken apart into the digits before the point and those after it (`joined`), and `Plain`
says of the two parts what the language asks of them. The positional text of a decimal has such
parts, and together they are the numeral of its digits with zeros around it (`exists_parts`).

- `Plain.mem_unsignedTexts`: texts of plain parts belong to the language;
- `positional_denoted`: the positional text of a decimal denotes the decimal;
- `positional_significantDigits`: its significant digits are the digits of the decimal.
-/

namespace InterfaceCheck

open scoped Computability
open Pattern (letters mem_letters mem_kstar_letters)

/-! ## Number texts -/

/-- The texts `(0|[1-9][0-9]*)([.][0-9]*[1-9])?`. -/
def unsignedTexts : Language Char :=
  (letters [('0', '0')] + letters [('1', '9')] * (letters [('0', '9')])∗) *
    (1 + letters [('.', '.')] * ((letters [('0', '9')])∗ * letters [('1', '9')]))

/-- The texts `-?(0|[1-9][0-9]*)([.][0-9]*[1-9])?`: numbers without an exponent and without
superfluous zeros. -/
def numberTexts : Language Char := (1 + letters [('-', '-')]) * unsignedTexts

/-- The number that a text without a sign denotes. -/
def unsignedDenoted (text : List Char) : ℚ :=
  let whole := text.takeWhile (· ≠ '.')
  let fraction := (text.dropWhile (· ≠ '.')).tail
  Nat.ofDigitChars 10 (whole ++ fraction) 0 / 10 ^ fraction.length

/-- The number that a text denotes. -/
def denoted (text : List Char) : ℚ :=
  if text.head? = some '-' then -unsignedDenoted text.tail else unsignedDenoted text

/-- How many digits a text has from the first to the last that is not a zero. -/
def significantDigits (text : List Char) : Nat :=
  (((text.filter Char.isDigit).dropWhile (· = '0')).rdropWhile (· = '0')).length

/-! ## Parts of a text -/

/-- The text of the digits before the point and after it. The point stands between digits only. -/
def joined (whole fraction : List Char) : List Char :=
  whole ++ if fraction = [] then [] else '.' :: fraction

/-- Neither part has a zero that could be left out. -/
structure Plain (whole fraction : List Char) : Prop where
  digits : ∀ c ∈ whole ++ fraction, c.isDigit = true
  whole : whole = ['0'] ∨ ∃ c rest, c ≠ '0' ∧ whole = c :: rest
  fraction : fraction = [] ∨ ∃ rest c, c ≠ '0' ∧ fraction = rest ++ [c]

theorem inRanges_digit {c : Char} :
    Pattern.InRanges [('0', '9')] c ↔ c.isDigit = true := by
  have hdigit : c.isDigit = true ↔ '0' ≤ c ∧ c ≤ '9' := inRange_iff
  simp [Pattern.InRanges, hdigit]

theorem inRanges_positive {c : Char} :
    Pattern.InRanges [('1', '9')] c ↔ c.isDigit = true ∧ c ≠ '0' := by
  rw [Char.isDigit_iff_toNat, ne_eq, ← Char.toNat_inj]
  simp only [Pattern.InRanges, List.mem_singleton, exists_eq_left]
  show 49 ≤ c.toNat ∧ c.toNat ≤ 57 ↔ (48 ≤ c.toNat ∧ c.toNat ≤ 57) ∧ ¬c.toNat = 48
  omega

/-- The text of one character. -/
theorem singleton_mem_letters (c : Char) : [c] ∈ letters [(c, c)] :=
  mem_letters.mpr ⟨c, Pattern.inRanges_self.mpr rfl, rfl⟩

namespace Plain

variable {whole fraction : List Char}

theorem isDigit_whole (h : Plain whole fraction) {c : Char} (hc : c ∈ whole) : c.isDigit = true :=
  h.digits c (List.mem_append_left _ hc)

theorem isDigit_fraction (h : Plain whole fraction) {c : Char} (hc : c ∈ fraction) :
    c.isDigit = true :=
  h.digits c (List.mem_append_right _ hc)

/-- **A text of plain parts has no superfluous zeros.** -/
theorem mem_unsignedTexts (h : Plain whole fraction) : joined whole fraction ∈ unsignedTexts := by
  refine Language.mem_mul.mpr ⟨whole, ?_, _, ?_, rfl⟩
  · rw [Language.mem_add]
    rcases h.whole with rfl | ⟨c, rest, hc, rfl⟩
    · exact .inl (singleton_mem_letters '0')
    · refine .inr (Language.mem_mul.mpr ⟨[c], ?_, rest, ?_, rfl⟩)
      · exact mem_letters.mpr
          ⟨c, inRanges_positive.mpr ⟨h.isDigit_whole List.mem_cons_self, hc⟩, rfl⟩
      · exact mem_kstar_letters.mpr fun d hd =>
          inRanges_digit.mpr (h.isDigit_whole (List.mem_cons_of_mem c hd))
  · rw [Language.mem_add]
    rcases h.fraction with rfl | ⟨rest, c, hc, rfl⟩
    · exact .inl rfl
    · right
      rw [if_neg (by simp)]
      refine Language.mem_mul.mpr ⟨['.'], singleton_mem_letters '.', rest ++ [c], ?_, rfl⟩
      refine Language.mem_mul.mpr ⟨rest, ?_, [c], ?_, rfl⟩
      · exact mem_kstar_letters.mpr fun d hd =>
          inRanges_digit.mpr (h.isDigit_fraction (List.mem_append_left _ hd))
      · exact mem_letters.mpr ⟨c, inRanges_positive.mpr
          ⟨h.isDigit_fraction (List.mem_append_right _ (List.mem_singleton_self c)), hc⟩, rfl⟩

theorem ne_dot_of_isDigit {c : Char} (h : c.isDigit = true) : c ≠ '.' := by
  rintro rfl
  exact absurd h (by decide)

/-- A text of plain parts denotes all its digits, shifted by those after the point. -/
theorem unsignedDenoted (h : Plain whole fraction) :
    unsignedDenoted (joined whole fraction) =
      Nat.ofDigitChars 10 (whole ++ fraction) 0 / 10 ^ fraction.length := by
  have hwhole : ∀ c ∈ whole, decide (c ≠ '.') = true := fun c hc =>
    decide_eq_true (ne_dot_of_isDigit (h.isDigit_whole hc))
  unfold InterfaceCheck.unsignedDenoted joined
  rw [List.takeWhile_append_of_pos hwhole, List.dropWhile_append_of_pos hwhole]
  rcases eq_or_ne fraction [] with rfl | hne
  · simp
  · rw [if_neg hne, List.takeWhile_cons_of_neg (by simp), List.dropWhile_cons_of_neg (by simp),
      List.append_nil, List.tail_cons]

/-- The digits of a text of plain parts. -/
theorem filter_isDigit (h : Plain whole fraction) :
    (joined whole fraction).filter Char.isDigit = whole ++ fraction := by
  have hwhole := List.filter_eq_self.mpr fun c hc => h.isDigit_whole hc
  have hfraction := List.filter_eq_self.mpr fun c hc => h.isDigit_fraction hc
  unfold joined
  rw [List.filter_append, hwhole]
  rcases eq_or_ne fraction [] with rfl | hne
  · rw [if_pos rfl, List.filter_nil]
  · rw [if_neg hne, List.filter_cons_of_neg (by decide), hfraction]

/-- A text of plain parts has no sign. -/
theorem head?_ne (h : Plain whole fraction) : (joined whole fraction).head? ≠ some '-' := by
  have hhead : ∀ c rest, whole = c :: rest → (joined whole fraction).head? ≠ some '-' := by
    rintro c rest rfl hc
    obtain rfl : c = '-' := Option.some.inj hc
    exact absurd (h.isDigit_whole List.mem_cons_self) (by decide)
  rcases h.whole with rfl | ⟨c, rest, -, rfl⟩
  · exact hhead _ _ rfl
  · exact hhead _ _ rfl

end Plain

/-! ## Zero -/

theorem plain_zero : Plain ['0'] [] :=
  ⟨List.all_eq_true.mp (by decide), .inl rfl, .inl rfl⟩

theorem zero_mem_numberTexts : ['0'] ∈ numberTexts :=
  Language.mem_mul.mpr ⟨[], .inl rfl, _, plain_zero.mem_unsignedTexts, rfl⟩

theorem denoted_zero : denoted ['0'] = 0 := by
  have hzero : unsignedDenoted ['0'] = Nat.ofDigitChars 10 ['0'] 0 / 10 ^ 0 :=
    plain_zero.unsignedDenoted
  rw [denoted, if_neg (by decide), hzero]
  norm_num [Nat.ofDigitChars]

/-! ## Signs -/

/-- The text of digits with a sign or without. -/
def signed (negative : Bool) (digits : List Char) : List Char :=
  if negative then '-' :: digits else digits

section Signed

variable {digits : List Char} (negative : Bool)

theorem signed_mem (h : digits ∈ unsignedTexts) : signed negative digits ∈ numberTexts := by
  cases negative with
  | false => exact Language.mem_mul.mpr ⟨[], .inl rfl, digits, h, rfl⟩
  | true =>
    exact Language.mem_mul.mpr ⟨['-'], .inr (singleton_mem_letters '-'), digits, h, rfl⟩

theorem signed_head?_iff (h : digits.head? ≠ some '-') :
    (signed negative digits).head? = some '-' ↔ negative = true := by
  cases negative with
  | false => exact iff_of_false h Bool.false_ne_true
  | true => exact iff_of_true rfl rfl

theorem denoted_signed (h : digits.head? ≠ some '-') :
    denoted (signed negative digits) =
      if negative then -unsignedDenoted digits else unsignedDenoted digits := by
  cases negative with
  | false => exact if_neg h
  | true => exact if_pos rfl

theorem significantDigits_signed :
    significantDigits (signed negative digits) = significantDigits digits := by
  cases negative <;> rfl

end Signed

/-- A number text has a digit. -/
theorem exists_digit_of_mem {text : List Char} (h : text ∈ numberTexts) :
    ∃ c ∈ text, c.isDigit = true := by
  obtain ⟨sign, -, _, hunsigned, rfl⟩ := Language.mem_mul.mp h
  obtain ⟨whole, hwhole, fraction, -, rfl⟩ := Language.mem_mul.mp hunsigned
  suffices hdigit : ∃ c ∈ whole, c.isDigit = true by
    obtain ⟨c, hc, hdigit⟩ := hdigit
    exact ⟨c, by simp [hc], hdigit⟩
  rcases hwhole with hzero | hpositive
  · obtain ⟨c, hc, rfl⟩ := mem_letters.mp hzero
    rw [Pattern.inRanges_self] at hc
    exact ⟨c, List.mem_singleton_self c, hc ▸ rfl⟩
  · obtain ⟨first, hfirst, rest, -, rfl⟩ := Language.mem_mul.mp hpositive
    obtain ⟨c, hc, rfl⟩ := mem_letters.mp hfirst
    exact ⟨c, List.mem_cons_self, (inRanges_positive.mp hc).1⟩

/-! ## Numerals -/

namespace Decimal

/-- The number that a decimal stands for. -/
def value (d : Decimal) : ℚ := d.digits * 10 ^ d.exponent

theorem lt_pow_length_numeral (n : Nat) : n < 10 ^ (numeral n).length :=
  (Nat.length_toDigits_le_iff (by decide) Nat.length_toDigits_pos).mp (Nat.le_refl _)

theorem isDigit_of_mem_numeral {n : Nat} {c : Char} (h : c ∈ numeral n) : c.isDigit = true :=
  Nat.isDigit_of_mem_toDigits (by decide) (by decide) h

theorem numeral_of_lt {n : Nat} (h : n < 10) : numeral n = [n.digitChar] :=
  Nat.toDigits_of_lt_base h

/-- The last digit stands at the end. -/
theorem numeral_of_le {n : Nat} (h : 10 ≤ n) :
    numeral n = numeral (n / 10) ++ [(n % 10).digitChar] :=
  Nat.toDigits_of_base_le (by decide) h

theorem digitChar_ne_zero : ∀ digit < 10, digit ≠ 0 → digit.digitChar ≠ '0' := by decide

/-- A numeral does not start with a zero. -/
theorem exists_numeral_eq_cons {n : Nat} (h : n ≠ 0) :
    ∃ c rest, c ≠ '0' ∧ numeral n = c :: rest := by
  induction n using Nat.strongRecOn with
  | ind n ih =>
    rcases Nat.lt_or_ge n 10 with hlt | hge
    · exact ⟨n.digitChar, [], digitChar_ne_zero n hlt h, numeral_of_lt hlt⟩
    · obtain ⟨c, rest, hc, hnumeral⟩ := ih (n / 10) (by omega) (by omega)
      exact ⟨c, rest ++ [(n % 10).digitChar], hc, by rw [numeral_of_le hge, hnumeral]; rfl⟩

/-- The numeral ends in a zero only if the number is divisible by ten. -/
theorem exists_numeral_eq_concat {n : Nat} (h : n % 10 ≠ 0) :
    ∃ rest c, c ≠ '0' ∧ numeral n = rest ++ [c] := by
  rcases Nat.lt_or_ge n 10 with hlt | hge
  · exact ⟨[], n.digitChar, digitChar_ne_zero n hlt (by omega), numeral_of_lt hlt⟩
  · exact ⟨_, _, digitChar_ne_zero (n % 10) (Nat.mod_lt n (by decide)) h, numeral_of_le hge⟩

/-- Zeros at the end of a numeral are powers of ten. -/
theorem numeral_mul_pow {n : Nat} (h : n ≠ 0) (k : Nat) :
    numeral (n * 10 ^ k) = numeral n ++ List.replicate k '0' := by
  induction k with
  | zero => simp
  | succ k ih =>
    have hle : 10 ≤ n * 10 ^ k * 10 :=
      Nat.le_mul_of_pos_left 10 (Nat.mul_pos (Nat.pos_of_ne_zero h) (Nat.pow_pos (by decide)))
    rw [pow_succ, ← mul_assoc, numeral_of_le hle, Nat.mul_div_cancel _ (by decide),
      Nat.mul_mod_left, ih, List.replicate_succ', List.append_assoc]
    rfl

/-- Without the zeros around it a numeral is left. -/
theorem trim_numeral {n : Nat} (h : n % 10 ≠ 0) (left right : Nat) :
    ((List.replicate left '0' ++ numeral n ++ List.replicate right '0').dropWhile
      (· = '0')).rdropWhile (· = '0') = numeral n := by
  obtain ⟨c, rest, hc, hcons⟩ := exists_numeral_eq_cons (by omega : n ≠ 0)
  obtain ⟨init, e, he, hconcat⟩ := exists_numeral_eq_concat h
  have hzeros : ∀ c ∈ List.replicate left '0', decide (c = '0') = true := fun c hc =>
    decide_eq_true (List.eq_of_mem_replicate hc)
  rw [List.append_assoc, List.dropWhile_append_of_pos hzeros, hcons, List.cons_append,
    List.dropWhile_cons_of_neg (by simpa using hc), ← List.cons_append, ← hcons]
  induction right with
  | zero =>
    rw [List.replicate_zero, List.append_nil, hconcat,
      List.rdropWhile_concat_neg _ _ _ (by simpa using he)]
  | succ right ih =>
    rw [List.replicate_succ', ← List.append_assoc, List.rdropWhile_concat_pos _ _ _ rfl, ih]

/-! ## Positional texts of decimals -/

/-- The parts are plain, and together they are the numeral of the decimal with zeros around it and
the point moved by the exponent. -/
structure HasParts (d : Decimal) (whole fraction : List Char) : Prop where
  plain : Plain whole fraction
  numeral : ∃ left right,
    whole ++ fraction = List.replicate left '0' ++ numeral d.digits ++ List.replicate right '0' ∧
      (right - fraction.length : ℤ) = d.exponent

variable {d : Decimal}

theorem isDigit_of_mem_zeros {n left right : Nat} {text : List Char} {c : Char}
    (htext : text = List.replicate left '0' ++ numeral n ++ List.replicate right '0')
    (hc : c ∈ text) : c.isDigit = true := by
  simp only [htext, List.mem_append, List.mem_replicate] at hc
  rcases hc with (⟨-, rfl⟩ | hc) | ⟨-, rfl⟩
  · decide
  · exact isDigit_of_mem_numeral hc
  · decide

/-- A whole number has its zeros at the end. -/
theorem hasParts_whole (h : d.digits % 10 ≠ 0) (hexponent : 0 ≤ d.exponent) :
    d.HasParts (numeral d.digits ++ List.replicate d.exponent.toNat '0') [] := by
  obtain ⟨c, rest, hc, hcons⟩ := exists_numeral_eq_cons (by omega : d.digits ≠ 0)
  have hnumeral : numeral d.digits ++ List.replicate d.exponent.toNat '0' ++ [] =
      List.replicate 0 '0' ++ numeral d.digits ++ List.replicate d.exponent.toNat '0' := by
    rw [List.replicate_zero, List.nil_append, List.append_nil]
  refine ⟨⟨fun c => isDigit_of_mem_zeros hnumeral, .inr ⟨c, rest ++ ?_, hc, ?_⟩, .inl rfl⟩,
    0, d.exponent.toNat, hnumeral, ?_⟩
  · exact List.replicate d.exponent.toNat '0'
  · rw [hcons, List.cons_append]
  · rw [List.length_nil, Int.toNat_of_nonneg hexponent, Nat.cast_zero, Int.sub_zero]

/-- The point may stand within the numeral. -/
theorem hasParts_within (h : d.digits % 10 ≠ 0) (k : Nat) (hpos : 0 < k)
    (hk : k < (numeral d.digits).length) (hexponent : d.exponent = k - (numeral d.digits).length) :
    d.HasParts ((numeral d.digits).take k) ((numeral d.digits).drop k) := by
  obtain ⟨c, rest, hc, hcons⟩ := exists_numeral_eq_cons (by omega : d.digits ≠ 0)
  obtain ⟨init, e, he, hconcat⟩ := exists_numeral_eq_concat h
  have hlength := congrArg List.length hconcat
  rw [List.length_append, List.length_singleton] at hlength
  have hnumeral : (numeral d.digits).take k ++ (numeral d.digits).drop k =
      List.replicate 0 '0' ++ numeral d.digits ++ List.replicate 0 '0' := by
    rw [List.take_append_drop, List.replicate_zero, List.nil_append, List.append_nil]
  obtain ⟨k, rfl⟩ := Nat.exists_eq_succ_of_ne_zero hpos.ne'
  refine ⟨⟨fun c => isDigit_of_mem_zeros hnumeral, .inr ⟨c, rest.take k, hc, ?_⟩,
    .inr ⟨init.drop (k + 1), e, he, ?_⟩⟩, 0, 0, hnumeral, ?_⟩
  · rw [hcons, List.take_succ_cons]
  · rw [hconcat, List.drop_append_of_le_length (by omega)]
  · rw [List.length_drop, hexponent]
    omega

/-- Or before it, and then zeros stand between them. -/
theorem hasParts_before (h : d.digits % 10 ≠ 0) (zeros : Nat)
    (hexponent : d.exponent = -((numeral d.digits).length + zeros)) :
    d.HasParts ['0'] (List.replicate zeros '0' ++ numeral d.digits) := by
  obtain ⟨init, e, he, hconcat⟩ := exists_numeral_eq_concat h
  have hnumeral : ['0'] ++ (List.replicate zeros '0' ++ numeral d.digits) =
      List.replicate (zeros + 1) '0' ++ numeral d.digits ++ List.replicate 0 '0' := by
    rw [List.replicate_succ, List.replicate_zero, List.append_nil]
    rfl
  refine ⟨⟨fun c => isDigit_of_mem_zeros hnumeral, .inl rfl,
    .inr ⟨List.replicate zeros '0' ++ init, e, he, ?_⟩⟩, zeros + 1, 0, hnumeral, ?_⟩
  · rw [hconcat, List.append_assoc]
  · rw [List.length_append, List.length_replicate, hexponent]
    omega

/-- A positional text has such parts. -/
theorem exists_parts (h : d.digits % 10 ≠ 0) :
    ∃ whole fraction, d.positional = joined whole fraction ∧ d.HasParts whole fraction := by
  have hzero : d.digits ≠ 0 := by omega
  unfold positional
  rw [if_neg hzero]
  split
  case isTrue hpos =>
    refine ⟨_, _, ?_, hasParts_whole h hpos⟩
    rw [joined, if_pos rfl, List.append_nil]
  case isFalse hneg =>
    have hlength : 0 < (numeral d.digits).length := Nat.length_toDigits_pos
    unfold pointed
    split
    case isTrue hlt =>
      have hparts := hasParts_within h ((numeral d.digits).length - (-d.exponent).toNat)
        (by omega) (by omega) (by omega)
      refine ⟨_, _, ?_, hparts⟩
      rw [joined, if_neg]
      rw [List.drop_eq_nil_iff]
      omega
    case isFalse hge =>
      have hparts := hasParts_before h ((-d.exponent).toNat - (numeral d.digits).length) (by omega)
      refine ⟨_, _, ?_, hparts⟩
      rw [joined, if_neg]
      · rfl
      · rw [List.append_eq_nil_iff, ← List.length_eq_zero_iff (l := numeral d.digits)]
        omega

/-- The positional text of a decimal has no superfluous zeros. -/
theorem positional_mem (h : d.digits % 10 ≠ 0) : d.positional ∈ unsignedTexts := by
  obtain ⟨whole, fraction, htext, hparts⟩ := exists_parts h
  rw [htext]
  exact hparts.plain.mem_unsignedTexts

theorem positional_head?_ne (h : d.digits % 10 ≠ 0) : d.positional.head? ≠ some '-' := by
  obtain ⟨whole, fraction, htext, hparts⟩ := exists_parts h
  rw [htext]
  exact hparts.plain.head?_ne

/-- **The positional text of a decimal denotes the decimal.** -/
theorem positional_denoted (h : d.digits % 10 ≠ 0) : unsignedDenoted d.positional = d.value := by
  obtain ⟨whole, fraction, htext, hparts⟩ := exists_parts h
  obtain ⟨left, right, hnumeral, hexponent⟩ := hparts.numeral
  rw [htext, hparts.plain.unsignedDenoted, hnumeral, Nat.ofDigitChars_append,
    Nat.ofDigitChars_append, Nat.ofDigitChars_replicate_zero, Nat.ofDigitChars_replicate_zero,
    mul_zero, Decimal.numeral, Nat.ofDigitChars_ten_toDigits, value, ← hexponent,
    zpow_sub₀ (by decide), zpow_natCast, zpow_natCast]
  push_cast
  rw [mul_div_assoc', mul_comm]

/-- **The significant digits of the positional text are those of the decimal.** -/
theorem positional_significantDigits (h : d.digits % 10 ≠ 0) :
    significantDigits d.positional = (numeral d.digits).length := by
  obtain ⟨whole, fraction, htext, hparts⟩ := exists_parts h
  obtain ⟨left, right, hnumeral, -⟩ := hparts.numeral
  rw [significantDigits, htext, hparts.plain.filter_isDigit, hnumeral, trim_numeral h]

end Decimal

end InterfaceCheck
