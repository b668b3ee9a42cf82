import InterfaceCheck.Proofs.Table
import Mathlib.Algebra.Group.Nat.Defs
/-!
# Texts compare as their bytes do

Texts compare by the code points of their characters, and the listing of a table is sorted by that
order. Their UTF-8 bytes come in the same order (`utf8Bytes_lt_iff`): the first byte of a character
tells how many follow, more bytes start with a greater one, and encodings of one length compare
digit by digit. So a listing ascends in byte order as well (`Table.sortedKeys_bytes`).
-/

namespace InterfaceCheck

universe u

/-- The UTF-8 bytes of a text. -/
def utf8Bytes (s : String) : List UInt8 := s.toUTF8.data.toList

/-- The bytes of a text are those of its characters, one after the other. -/
theorem utf8Bytes_eq_flatMap (s : String) :
    utf8Bytes s = s.toList.flatMap String.utf8EncodeChar := by
  unfold utf8Bytes
  rw [String.toUTF8_eq_toByteArray, ← String.utf8Encode_toList, List.utf8Encode,
    List.toList_data_toByteArray]

/-! ## Characters -/

/-- The continuation bytes of a code point: its last `k` digits to base 64, each marked. -/
def continuation : Nat → Nat → List UInt8
  | 0, _ => []
  | k + 1, n => UInt8.ofNat (n / 64 ^ k % 64 + 0x80) :: continuation k n

/-- How many continuation bytes a code point needs. -/
def continuationLength (n : Nat) : Nat :=
  if n ≤ 0x7f then 0 else if n ≤ 0x7ff then 1 else if n ≤ 0xffff then 2 else 3

/-- The mark of a first byte that `k` continuation bytes follow. -/
def leadMark : Nat → Nat
  | 0 => 0
  | 1 => 0xc0
  | 2 => 0xe0
  | _ => 0xf0

theorem codePoint_lt (c : Char) : c.val.toNat < 0x110000 := by
  have h := c.valid
  simp only [UInt32.isValidChar, Nat.isValidChar] at h
  omega

/-- The encoding of a character: a first byte and its continuation bytes. -/
theorem utf8EncodeChar_eq {c : Char} {n k : Nat} (hn : c.val.toNat = n)
    (hk : continuationLength n = k) :
    String.utf8EncodeChar c = UInt8.ofNat (n / 64 ^ k + leadMark k) :: continuation k n := by
  have hmax : n < 0x110000 := hn ▸ codePoint_lt c
  unfold String.utf8EncodeChar
  rw [hn]
  subst hk
  unfold continuationLength
  dsimp only
  -- the digit in the first byte is below the bound that the encoder reduces it by
  split
  · simp only [leadMark, continuation, Nat.pow_zero, Nat.div_one, Nat.add_zero]
  · split
    · rw [Nat.mod_eq_of_lt (a := n / 64) (by omega)]
      simp only [leadMark, continuation, Nat.pow_zero, Nat.pow_one, Nat.div_one]
    · split
      · rw [Nat.mod_eq_of_lt (a := n / 4096) (by omega)]
        simp only [leadMark, continuation, Nat.reducePow, Nat.div_one]
      · rw [Nat.mod_eq_of_lt (a := n / 262144) (by omega)]
        simp only [leadMark, continuation, Nat.reducePow, Nat.div_one]

/-- First bytes are bytes. -/
theorem lead_lt (c : Char) :
    c.val.toNat / 64 ^ continuationLength c.val.toNat + leadMark (continuationLength c.val.toNat) <
      256 := by
  have hmax := codePoint_lt c
  unfold continuationLength
  repeat' split
  all_goals
    simp only [leadMark, Nat.reducePow]
    omega

theorem ofNat_lt_ofNat {a b : Nat} (h : a < b) (hb : b < 256) : UInt8.ofNat a < UInt8.ofNat b := by
  rw [UInt8.lt_iff_toNat_lt, UInt8.toNat_ofNat', UInt8.toNat_ofNat']
  omega

/-- Continuation bytes compare as the digits that they carry. -/
theorem continuation_append_lt {m n : Nat} (x y : List UInt8) :
    ∀ {k : Nat}, m % 64 ^ k < n % 64 ^ k → continuation k m ++ x < continuation k n ++ y
  | 0, h => by
    rw [Nat.pow_zero, Nat.mod_one, Nat.mod_one] at h
    exact absurd h (Nat.lt_irrefl 0)
  | k + 1, h => by
    rw [Nat.pow_succ, Nat.mod_mul, Nat.mod_mul] at h
    refine List.cons_lt_cons_iff.mpr ?_
    rcases Nat.lt_trichotomy (m / 64 ^ k % 64) (n / 64 ^ k % 64) with hd | hd | hd
    · left
      exact ofNat_lt_ofNat (by omega) (by omega)
    · right
      rw [hd] at h ⊢
      exact ⟨rfl, continuation_append_lt x y (Nat.lt_of_add_lt_add_right h)⟩
    · -- a greater digit outweighs all that follow it
      have hm : n % 64 ^ k < 64 ^ k := Nat.mod_lt _ (Nat.pow_pos (by decide))
      have hle : 64 ^ k * (n / 64 ^ k % 64 + 1) ≤ 64 ^ k * (m / 64 ^ k % 64) :=
        Nat.mul_le_mul_left _ hd
      rw [Nat.mul_add, Nat.mul_one] at hle
      omega

/-- Of two code points the smaller has the smaller first byte, or they differ in the digits of
their continuation bytes only. -/
theorem lead_lt_or {m n : Nat} (h : m < n) :
    m / 64 ^ continuationLength m + leadMark (continuationLength m) <
        n / 64 ^ continuationLength n + leadMark (continuationLength n) ∨
      continuationLength m = continuationLength n ∧
        m / 64 ^ continuationLength n = n / 64 ^ continuationLength n := by
  by_cases hk : continuationLength m = continuationLength n
  · rw [hk]
    have hdiv := Nat.div_le_div_right (c := 64 ^ continuationLength n) (Nat.le_of_lt h)
    rcases Nat.lt_or_eq_of_le hdiv with hlt | heq
    · exact .inl (Nat.add_lt_add_right hlt _)
    · exact .inr ⟨rfl, heq⟩
  · -- the marks are so far apart that the shorter encoding has the smaller first byte
    left
    revert hk
    unfold continuationLength
    repeat' split
    all_goals
      intro hk
      simp only [leadMark, Nat.reducePow]
      omega

/-- A smaller character has smaller bytes, whatever comes after it. -/
theorem utf8EncodeChar_append_lt {c d : Char} (h : c < d) (x y : List UInt8) :
    String.utf8EncodeChar c ++ x < String.utf8EncodeChar d ++ y := by
  obtain ⟨m, hm⟩ : ∃ m, c.val.toNat = m := ⟨_, rfl⟩
  obtain ⟨n, hn⟩ : ∃ n, d.val.toNat = n := ⟨_, rfl⟩
  have hlt : m < n := hm ▸ hn ▸ h
  rw [utf8EncodeChar_eq hm rfl, utf8EncodeChar_eq hn rfl]
  refine List.cons_lt_cons_iff.mpr ?_
  rcases lead_lt_or hlt with hlead | ⟨hk, hdiv⟩
  · exact .inl (ofNat_lt_ofNat hlead (hn ▸ lead_lt d))
  · right
    rw [hk, hdiv]
    refine ⟨rfl, continuation_append_lt x y ?_⟩
    -- the numbers agree above the continuation digits, so they differ in these
    have hm' := Nat.div_add_mod m (64 ^ continuationLength n)
    have hn' := Nat.div_add_mod n (64 ^ continuationLength n)
    rw [hdiv] at hm'
    omega

/-! ## Texts -/

/-- Texts in ascending order have bytes in ascending order. -/
theorem flatMap_utf8EncodeChar_lt :
    ∀ {l l' : List Char}, l < l' →
      l.flatMap String.utf8EncodeChar < l'.flatMap String.utf8EncodeChar
  | _, [], h => absurd h (List.not_lt_nil _)
  | [], d :: l', _ => by
    rw [List.flatMap_nil, List.flatMap_cons]
    obtain ⟨b, bs, hd⟩ := List.exists_cons_of_ne_nil (String.utf8EncodeChar_ne_nil (c := d))
    rw [hd]
    exact List.nil_lt_cons _ _
  | c :: l, d :: l', h => by
    rw [List.flatMap_cons, List.flatMap_cons]
    rcases List.cons_lt_cons_iff.mp h with hcd | ⟨rfl, hl⟩
    · exact utf8EncodeChar_append_lt hcd _ _
    · exact List.append_left_lt (flatMap_utf8EncodeChar_lt hl)

/-- **Texts compare as their bytes do.** -/
theorem utf8Bytes_lt_iff {s t : String} : utf8Bytes s < utf8Bytes t ↔ s < t := by
  have hlt : ∀ {s t : String}, s < t → utf8Bytes s < utf8Bytes t := by
    intro s t h
    rw [utf8Bytes_eq_flatMap, utf8Bytes_eq_flatMap]
    exact flatMap_utf8EncodeChar_lt h
  refine ⟨fun h => String.not_le.mp fun hle => ?_, hlt⟩
  by_cases heq : s = t
  · subst heq
    exact List.lt_irrefl _ h
  · have hts : t < s := String.not_le.mp fun hst => heq (String.le_antisymm hst hle)
    exact List.lt_asymm h (hlt hts)

/-- If no key comes twice, the listing ascends strictly in the order of the keys' bytes. -/
theorem Table.sortedKeys_bytes {α : Type u} {t : Table α} (h : t.keys.Nodup) :
    t.sortedKeys.Pairwise (fun a b => utf8Bytes a < utf8Bytes b) :=
  (Table.sortedKeys_pairwise h).imp utf8Bytes_lt_iff.mpr

end InterfaceCheck
