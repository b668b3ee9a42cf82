import InterfaceCheck.Template
import Mathlib.Data.List.TakeWhile
/-!
# What a template comes to

`Template.fill` scans a template once and keeps the numbers of its placeholders in words. Here the
outcome is said without the scan. A template splits in one way into pieces (`Template.Split`):
characters that stand for themselves, and placeholders that take up all digits that follow them.
Each piece has a rendering of its own (`Piece.render`), in terms of the natural number that its
digits denote.

- `readDigits_of_run`: the word that is kept while digits are read is the number that they denote,
  and there is no word iff the number does not fit in one.
- `exists_split`, `Split.unique`: the split exists and is the only one.
- `fill_of_split`: filling in renders the pieces one after the other.
- `formatMessage_renders`: the three together.
-/

namespace InterfaceCheck.Template

/-! ## Numbers in words -/

/-- The word for a number, if one can hold it. -/
def word? (n : Nat) : Option UInt64 := if n < UInt64.size then some (UInt64.ofNat n) else none

theorem word?_eq_some_iff {n : Nat} {w : UInt64} : word? n = some w ↔ w.toNat = n := by
  unfold word?
  constructor
  · intro h
    split at h
    case isTrue hn =>
      rw [← Option.some.inj h]
      exact UInt64.toNat_ofNat_of_lt' hn
    case isFalse => cases h
  · rintro rfl
    rw [if_pos w.toNat_lt, UInt64.ofNat_toNat]

theorem word?_eq_none_iff {n : Nat} : word? n = none ↔ UInt64.size ≤ n := by
  unfold word?
  by_cases h : n < UInt64.size
  · rw [if_pos h]
    exact iff_of_false (Option.some_ne_none _) (Nat.not_le.mpr h)
  · rw [if_neg h]
    exact iff_of_true rfl (Nat.not_lt.mp h)

theorem times?_eq (a b : UInt64) : times? a b = word? (a.toNat * b.toNat) := by
  unfold times? word?
  by_cases h : a.toNat * b.toNat < UInt64.size
  · rw [if_pos h, if_pos h, UInt64.ofNat_mul, UInt64.ofNat_toNat, UInt64.ofNat_toNat]
  · rw [if_neg h, if_neg h]

theorem plus?_eq (a b : UInt64) : plus? a b = word? (a.toNat + b.toNat) := by
  unfold plus? word?
  by_cases h : a.toNat + b.toNat < UInt64.size
  · rw [if_pos h, if_pos h, UInt64.ofNat_add, UInt64.ofNat_toNat, UInt64.ofNat_toNat]
  · rw [if_neg h, if_neg h]

/-- No digit lies below `0`. -/
theorem zero_le_of_isDigit {d : Char} (hd : d.isDigit = true) : '0'.val ≤ d.val := by
  simp only [Char.isDigit, Bool.and_eq_true, decide_eq_true_eq] at hd
  exact hd.1

/-- What a digit counts is exact: the subtraction does not wrap. -/
theorem toNat_digitWord {d : Char} (hd : d.isDigit = true) :
    (digitWord d).toNat = d.toNat - '0'.toNat := by
  have hle : '0'.val.toUInt64 ≤ d.val.toUInt64 := by
    rw [UInt64.le_iff_toNat_le, UInt32.toNat_toUInt64, UInt32.toNat_toUInt64]
    exact UInt32.le_iff_toNat_le.mp (zero_le_of_isDigit hd)
  unfold digitWord
  rw [UInt64.toNat_sub_of_le _ _ hle, UInt32.toNat_toUInt64, UInt32.toNat_toUInt64]
  rfl

/-- A word above 0 counts from 1: the word before it is an index. -/
theorem toNat_pred {w : UInt64} (h : 0 < w) : (w - 1).toNat + 1 = w.toNat := by
  have hpos : 1 ≤ w.toNat := UInt64.lt_iff_toNat_lt.mp h
  have hsub : (w - 1).toNat = w.toNat - 1 :=
    UInt64.toNat_sub_of_le w 1 (UInt64.le_iff_toNat_le.mpr hpos)
  omega

/-- One more digit. A number past the words stays past them, so nothing is lost with it. -/
theorem extend_word? (n : Nat) {d : Char} (hd : d.isDigit = true) :
    extend (word? n) d = word? (10 * n + (d.toNat - '0'.toNat)) := by
  unfold extend
  cases hn : word? n with
  | none =>
    -- the scan has failed, and ten times the number is no smaller
    have hpast := word?_eq_none_iff.mp hn
    exact (word?_eq_none_iff.mpr (by omega)).symm
  | some w =>
    have hw := word?_eq_some_iff.mp hn
    have htens : times? w 10 = word? (10 * n) := by
      rw [times?_eq, hw, Nat.mul_comm]
      rfl
    rw [Option.bind_some, htens]
    cases hten : word? (10 * n) with
    | none =>
      have hpast := word?_eq_none_iff.mp hten
      exact (word?_eq_none_iff.mpr (by omega)).symm
    | some tens =>
      rw [Option.bind_some, plus?_eq, word?_eq_some_iff.mp hten, toNat_digitWord hd]

/-! ## Runs of digits -/

/-- `MaximalRun text digits rest`: the text starts with these digits, and no further digit follows
them. -/
structure MaximalRun (text digits rest : List Char) : Prop where
  append : text = digits ++ rest
  digits : ∀ d ∈ digits, d.isDigit = true
  maximal : ∀ d ∈ rest.head?, d.isDigit = false

/-- Every text starts with a run of digits, if perhaps an empty one. -/
theorem maximalRun_span (text : List Char) :
    MaximalRun text (text.takeWhile Char.isDigit) (text.dropWhile Char.isDigit) where
  append := List.takeWhile_append_dropWhile.symm
  digits := fun _ hd => List.mem_takeWhile_imp hd
  maximal := by
    intro d hd
    have h := List.head?_dropWhile_not Char.isDigit text
    rw [Option.mem_def.mp hd] at h
    exact h

/-- A text starts with one maximal run only: all the digits up to the first other character. -/
theorem MaximalRun.eq_span {text digits rest : List Char} (h : MaximalRun text digits rest) :
    digits = text.takeWhile Char.isDigit ∧ rest = text.dropWhile Char.isDigit := by
  obtain ⟨rfl, hdigits, hmaximal⟩ := h
  rw [List.takeWhile_append_of_pos hdigits, List.dropWhile_append_of_pos hdigits]
  cases rest with
  | nil => simp
  | cons c rest =>
    have hc : c.isDigit = false := hmaximal c rfl
    simp [hc]

/-- Reading takes the maximal run, and the number that is read is the one that the digits denote
behind those read before, as far as a word holds it. -/
theorem readDigits_of_run {text digits rest : List Char} (h : MaximalRun text digits rest)
    (n : Nat) :
    readDigits (word? n) text = ⟨digits, word? (Nat.ofDigitChars 10 digits n), rest⟩ := by
  obtain ⟨rfl, hdigits, hmaximal⟩ := h
  induction digits generalizing n with
  | nil =>
    cases rest with
    | nil => rfl
    | cons c rest =>
      have hc : c.isDigit = false := hmaximal c rfl
      simp [readDigits, hc]
  | cons d digits ih =>
    have hd : d.isDigit = true := hdigits d (by simp)
    have ih := ih (10 * n + (d.toNat - '0'.toNat)) fun e he =>
      hdigits e (List.mem_cons_of_mem d he)
    rw [List.cons_append, readDigits, if_pos hd, extend_word? n hd, ih, Nat.ofDigitChars_cons]

/-! ## Pieces -/

/-- A part of a template. -/
inductive Piece where
  /-- A character that stands for itself. -/
  | plain (c : Char)
  /-- A percent sign and the digits after it, possibly none. -/
  | placeholder (digits : List Char)
deriving DecidableEq, Repr

/-- The text of the piece in the template. -/
def Piece.source : Piece → List Char
  | .plain c => [c]
  | .placeholder digits => '%' :: digits

/-- `Split template ps`: read from left to right, the template consists of these pieces. A percent
sign starts a placeholder, which takes all the digits that follow. -/
inductive Split : List Char → List Piece → Prop where
  | nil : Split [] []
  | plain {c : Char} {rest : List Char} {ps : List Piece} :
      c ≠ '%' → Split rest ps → Split (c :: rest) (.plain c :: ps)
  | placeholder {text digits rest : List Char} {ps : List Piece} :
      MaximalRun text digits rest → Split rest ps → Split ('%' :: text) (.placeholder digits :: ps)

/-- The pieces make up the template. -/
theorem Split.source {template : List Char} {ps : List Piece} (h : Split template ps) :
    ps.flatMap Piece.source = template := by
  induction h with
  | nil => rfl
  | plain _ _ ih => rw [List.flatMap_cons, ih]; rfl
  | placeholder hrun _ ih => rw [List.flatMap_cons, ih, hrun.append]; rfl

/-- The digits of a placeholder are digits. -/
theorem Split.digits {template : List Char} {ps : List Piece} (h : Split template ps)
    {digits : List Char} (hmem : .placeholder digits ∈ ps) : ∀ d ∈ digits, d.isDigit = true := by
  induction h with
  | nil => cases hmem
  | plain _ _ ih =>
    rcases List.mem_cons.mp hmem with heq | hmem
    · cases heq
    · exact ih hmem
  | placeholder hrun _ ih =>
    rcases List.mem_cons.mp hmem with heq | hmem
    · cases heq
      exact hrun.digits
    · exact ih hmem

/-- Every template splits: the scan finds the pieces. -/
theorem exists_split (template : List Char) : ∃ ps, Split template ps := by
  fun_induction fill [] template with
  | case1 => exact ⟨[], .nil⟩
  | case2 rest run ih =>
    -- what the scan leaves behind the digits is where the next piece starts
    have hrun := maximalRun_span rest
    have hread : run = _ := readDigits_of_run hrun 0
    rw [hread] at ih
    obtain ⟨ps, hps⟩ := ih
    exact ⟨_, .placeholder hrun hps⟩
  | case3 c rest hc ih =>
    obtain ⟨ps, hps⟩ := ih
    exact ⟨_, .plain hc hps⟩

/-- A template splits in one way only. -/
theorem Split.unique {template : List Char} {ps ps' : List Piece} (h : Split template ps)
    (h' : Split template ps') : ps = ps' := by
  induction h generalizing ps' with
  | nil => cases h'; rfl
  | plain hc _ ih =>
    cases h' with
    | plain _ hrest => rw [ih hrest]
    | placeholder _ _ => exact absurd rfl hc
  | placeholder hrun _ ih =>
    cases h' with
    | plain hc _ => exact absurd rfl hc
    | placeholder hrun' hrest =>
      -- both runs are the digits up to the first other character
      obtain ⟨rfl, rfl⟩ := hrun.eq_span
      obtain ⟨rfl, rfl⟩ := hrun'.eq_span
      rw [ih hrest]

/-! ## Renderings -/

/-- What a piece reads as in the message. A placeholder without digits, with the number 0 or with a
number past the words reads as it stands in the template; any other one reads as the argument that
it counts, from 1, and as `undefined` past the last one. -/
def Piece.render (args : List Value) : Piece → List Char
  | .plain c => [c]
  | .placeholder digits =>
    let number := Nat.ofDigitChars 10 digits 0
    if digits = [] ∨ number = 0 ∨ UInt64.size ≤ number then '%' :: digits
    else if h : number - 1 < args.length then args[number - 1].display.toList
    else "undefined".toList

/-- What the scan asks of a word before it looks an argument up. -/
theorem index_iff {digits : List Char} {w : UInt64} :
    (digits ≠ [] ∧ 0 < w) ↔ ¬ (digits = [] ∨ w.toNat = 0 ∨ UInt64.size ≤ w.toNat) := by
  have hpos : 0 < w ↔ w.toNat ≠ 0 := by
    rw [UInt64.lt_iff_toNat_lt]
    exact Nat.pos_iff_ne_zero
  have hbound : ¬ UInt64.size ≤ w.toNat := Nat.not_le.mpr w.toNat_lt
  rw [hpos]
  constructor
  · rintro ⟨hd, hw⟩ (h | h | h)
    · exact hd h
    · exact hw h
    · exact hbound h
  · intro h
    exact ⟨fun hd => h (.inl hd), fun hw => h (.inr (.inl hw))⟩

/-- A run of digits whose number is kept in a word reads as the placeholder does. -/
theorem DigitRun.text_eq_render (args : List Value) (digits rest : List Char) :
    DigitRun.text args ⟨digits, word? (Nat.ofDigitChars 10 digits 0), rest⟩ =
      Piece.render args (.placeholder digits) := by
  simp only [DigitRun.text, Piece.render]
  generalize Nat.ofDigitChars 10 digits 0 = n
  cases hn : word? n with
  | none => rw [if_pos (.inr (.inr (word?_eq_none_iff.mp hn)))]
  | some w =>
    obtain rfl : w.toNat = n := word?_eq_some_iff.mp hn
    simp only
    by_cases hindex : digits ≠ [] ∧ 0 < w
    · have hpred : (w - 1).toNat = w.toNat - 1 := by
        have := toNat_pred hindex.2
        omega
      rw [if_pos hindex, if_neg (index_iff.mp hindex), hpred]
      by_cases hlt : w.toNat - 1 < args.length
      · rw [dif_pos hlt, List.getElem?_eq_getElem hlt]
      · rw [dif_neg hlt, List.getElem?_eq_none (by omega)]
    · rw [if_neg hindex, if_pos (Decidable.not_not.mp (mt index_iff.mpr hindex))]

/-- A percent sign is filled in with the digits after it. -/
theorem fill_percent (args : List Value) (text : List Char) :
    fill args ('%' :: text) =
      (readDigits (some 0) text).text args ++ fill args (readDigits (some 0) text).rest := by
  rw [fill, if_pos rfl]

/-- Filling in renders the pieces one after the other. -/
theorem fill_of_split {template : List Char} {ps : List Piece} (h : Split template ps)
    (args : List Value) : fill args template = ps.flatMap (Piece.render args) := by
  induction h with
  | nil => rw [fill]; rfl
  | plain hc _ ih => rw [fill, if_neg hc, ih]; rfl
  | @placeholder text digits rest ps hrun _ ih =>
    have hread : readDigits (some 0) text = _ := readDigits_of_run hrun 0
    rw [fill_percent, hread, DigitRun.text_eq_render, ih, List.flatMap_cons]

end InterfaceCheck.Template

namespace InterfaceCheck

open Template

/-- **What a message says.** A template splits in one way only into characters and placeholders, and
the message is the concatenation of their renderings.

The words that the scan works with are exact. What a digit counts is its distance from `0`; there is
a word for the number of a placeholder iff one can hold it, wherever in the run of digits the bound
is passed, and the word is the number; and the word before one above 0 is one less. -/
theorem formatMessage_renders (template : String) (args : List Value) :
    ∃ ps, (∀ ps', Split template.toList ps' ↔ ps' = ps) ∧
      ps.flatMap Piece.source = template.toList ∧
      formatMessage template args = String.ofList (ps.flatMap (Piece.render args)) ∧
      ∀ digits, .placeholder digits ∈ ps →
        (∀ d ∈ digits, '0'.toNat ≤ d.toNat ∧ (digitWord d).toNat = d.toNat - '0'.toNat) ∧
        (∀ word, (readDigits (some 0) digits).number = some word ↔
          word.toNat = Nat.ofDigitChars 10 digits 0) ∧
        ∀ word, (readDigits (some 0) digits).number = some word → 0 < word →
          (word - 1).toNat + 1 = Nat.ofDigitChars 10 digits 0 := by
  obtain ⟨ps, hps⟩ := exists_split template.toList
  have hnumber : ∀ digits, .placeholder digits ∈ ps → ∀ word,
      (readDigits (some 0) digits).number = some word ↔
        word.toNat = Nat.ofDigitChars 10 digits 0 := by
    intro digits hmem word
    have hrun : MaximalRun digits digits [] := ⟨(List.append_nil _).symm, hps.digits hmem, nofun⟩
    have hread : readDigits (some 0) digits = _ := readDigits_of_run hrun 0
    rw [hread]
    exact word?_eq_some_iff
  refine ⟨ps, fun ps' => ⟨fun h => h.unique hps, ?_⟩, hps.source, ?_, fun digits hmem =>
    ⟨fun d hd => ⟨?_, ?_⟩, hnumber digits hmem, fun word hword hpos => ?_⟩⟩
  · rintro rfl
    exact hps
  · rw [formatMessage, fill_of_split hps]
  · exact UInt32.le_iff_toNat_le.mp (zero_le_of_isDigit (hps.digits hmem d hd))
  · exact toNat_digitWord (hps.digits hmem d hd)
  · rw [toNat_pred hpos, (hnumber digits hmem word).mp hword]

/-- A percent sign alone and a number that is just past the words stand for themselves; an argument
is not scanned. -/
theorem formatMessage_renders_past_words :
    formatMessage "%%18446744073709551616%01" [.string "%2"] = "%%18446744073709551616%2" ∧
      (readDigits (some 0) "18446744073709551616".toList).number = none := by
  obtain ⟨ps, hsplit, -, hmessage, hdigits⟩ :=
    formatMessage_renders "%%18446744073709551616%01" [.string "%2"]
  have hps : [.placeholder [], .placeholder "18446744073709551616".toList,
      .placeholder ['0', '1']] = ps :=
    (hsplit _).mp <|
      .placeholder (maximalRun_span "%18446744073709551616%01".toList) <|
      .placeholder (maximalRun_span "18446744073709551616%01".toList) <|
      .placeholder (maximalRun_span "01".toList) .nil
  subst hps
  refine ⟨hmessage.trans (by decide), ?_⟩
  refine Option.eq_none_iff_forall_ne_some.mpr fun word hword => ?_
  have hvalue := ((hdigits _ (by simp)).2.1 word).mp hword
  have hbound := word.toNat_lt
  rw [hvalue] at hbound
  exact absurd hbound (by decide)

end InterfaceCheck
