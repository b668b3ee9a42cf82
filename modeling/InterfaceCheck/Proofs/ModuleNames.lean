import InterfaceCheck.ModuleName
import InterfaceCheck.Proofs.Patterns
/-!
# What a module name is

`isModuleName` reads a string once and looks at every character with the one before it. This file
ties it to two descriptions that do not read from left to right: the pattern that module names are
documented with, and the segments that a string has between its dots.

- `isModuleName_iff_segments`: a string is a module name iff all its segments are identifiers.
- `mem_dotted_iff`: the pattern without its anchors matches identifiers with dots between them.
- `isModuleName_language`: both, and what follows for strings put together with a dot.
-/

namespace InterfaceCheck.ModuleName

open scoped Computability

/-! ## Identifiers -/

/-- An identifier may start with the character: an ASCII letter, `_` or `$`. -/
def Starts (c : Char) : Prop := 'A' ≤ c ∧ c ≤ 'Z' ∨ 'a' ≤ c ∧ c ≤ 'z' ∨ c = '_' ∨ c = '$'

/-- An identifier may go on with the character: one that it may start with, or an ASCII digit. -/
def Continues (c : Char) : Prop := Starts c ∨ '0' ≤ c ∧ c ≤ '9'

/-- An identifier is not empty: it has a first character. -/
inductive IsIdentifier : List Char → Prop where
  | mk {c : Char} {rest : List Char} :
      Starts c → (∀ d ∈ rest, Continues d) → IsIdentifier (c :: rest)

theorem isStart_iff {c : Char} : isStart c = true ↔ Starts c := by
  have hupper : c.isUpper = true ↔ 'A' ≤ c ∧ c ≤ 'Z' := decide_eq_true_iff
  have hlower : c.isLower = true ↔ 'a' ≤ c ∧ c ≤ 'z' := inRange_iff
  show ((c.isUpper || c.isLower) || c == '_' || c == '$') = true ↔ Starts c
  simp only [Bool.or_eq_true, hupper, hlower, beq_iff_eq, or_assoc, Starts]

theorem isContinuation_iff {c : Char} : isContinuation c = true ↔ Continues c := by
  have hdigit : c.isDigit = true ↔ '0' ≤ c ∧ c ≤ '9' := inRange_iff
  unfold isContinuation Continues
  rw [Bool.or_eq_true, isStart_iff, hdigit]

/-- A dot goes on with no identifier, and starts none. -/
theorem not_continues_dot : ¬ Continues '.' := by
  rw [← isContinuation_iff]
  decide

theorem not_starts_dot : ¬ Starts '.' := fun h => not_continues_dot (.inl h)

/-- All of them are ASCII characters. -/
theorem Continues.toNat_lt {c : Char} (h : Continues c) : c.toNat < 128 := by
  have hle : ∀ {a b : Char}, a ≤ b → a.toNat ≤ b.toNat := fun h => UInt32.le_iff_toNat_le.mp h
  rcases h with (h | h | rfl | rfl) | h
  · exact Nat.lt_of_le_of_lt (hle h.2) (by decide)
  · exact Nat.lt_of_le_of_lt (hle h.2) (by decide)
  · decide
  · decide
  · exact Nat.lt_of_le_of_lt (hle h.2) (by decide)

theorem isIdentifier_cons_iff {c : Char} {rest : List Char} :
    IsIdentifier (c :: rest) ↔ Starts c ∧ ∀ d ∈ rest, Continues d := by
  constructor
  · rintro ⟨hc, hrest⟩
    exact ⟨hc, hrest⟩
  · rintro ⟨hc, hrest⟩
    exact .mk hc hrest

theorem not_isIdentifier_nil : ¬ IsIdentifier [] := nofun

/-- All characters of an identifier may stand inside one. -/
theorem IsIdentifier.continues {word : List Char} (h : IsIdentifier word) :
    ∀ c ∈ word, Continues c := by
  obtain ⟨hc, hrest⟩ := h
  intro d hd
  rcases List.mem_cons.mp hd with rfl | hd
  · exact .inl hc
  · exact hrest d hd

/-! ## Segments -/

/-- The text between the dots, and before the first and after the last. -/
def segments (text : List Char) : List (List Char) := text.splitOn '.'

theorem segments_dot (rest : List Char) : segments ('.' :: rest) = [] :: segments rest := by
  unfold segments
  rw [List.splitOn_cons_eq_if_modifyHead, if_pos (beq_self_eq_true _)]

/-- A character that is no dot belongs to the first segment. -/
theorem segments_cons {c : Char} (hc : c ≠ '.') (rest : List Char) :
    ∃ first others, segments rest = first :: others ∧
      segments (c :: rest) = (c :: first) :: others := by
  obtain ⟨first, others, h⟩ := List.exists_cons_of_ne_nil (List.splitOn_ne_nil '.' rest)
  refine ⟨first, others, h, ?_⟩
  unfold segments
  rw [List.splitOn_cons_eq_if_modifyHead, if_neg (by simpa using hc), h]
  rfl

/-- A dot between two texts divides their segments. -/
theorem segments_append (a b : List Char) : segments (a ++ '.' :: b) = segments a ++ segments b :=
  List.splitOnP_append_cons a b (beq_self_eq_true _)

/-- A text without dots is its own only segment. -/
theorem segments_of_continues {text : List Char} (h : ∀ c ∈ text, Continues c) :
    segments text = [text] := by
  refine List.splitOnP_eq_singleton fun c hc => ?_
  rw [beq_eq_false_iff_ne]
  rintro rfl
  exact not_continues_dot (h _ hc)

/-- Every other character of a text stands in one of its segments. -/
theorem exists_segment {text : List Char} {c : Char} (h : c ∈ text) (hc : c ≠ '.') :
    ∃ s ∈ segments text, c ∈ s := by
  induction text with
  | nil => cases h
  | cons d rest ih =>
    by_cases hd : d = '.'
    · subst hd
      obtain ⟨s, hs, hcs⟩ := ih ((List.mem_cons.mp h).resolve_left hc)
      rw [segments_dot]
      exact ⟨s, List.mem_cons_of_mem _ hs, hcs⟩
    · obtain ⟨first, others, hrest, hcons⟩ := segments_cons hd rest
      rw [hcons]
      rw [hrest] at ih
      rcases List.mem_cons.mp h with rfl | h
      · exact ⟨c :: first, by simp, by simp⟩
      · obtain ⟨s, hs, hcs⟩ := ih h
        rcases List.mem_cons.mp hs with rfl | hs
        · exact ⟨d :: s, by simp, List.mem_cons_of_mem d hcs⟩
        · exact ⟨s, List.mem_cons_of_mem _ hs, hcs⟩

/-- Some segment is not an identifier: the empty text has one segment, and it is empty. -/
theorem not_identifiers_nil : ¬ ∀ s ∈ segments [], IsIdentifier s := fun h =>
  not_isIdentifier_nil (h [] (by simp [segments]))

/-! ## Reading -/

/-- The text completes a name of which one character is read: it starts with more of the same
segment, and all other segments are identifiers. -/
def Completes (text : List Char) : Prop :=
  ∃ first others, segments text = first :: others ∧
    (∀ c ∈ first, Continues c) ∧ ∀ s ∈ others, IsIdentifier s

theorem completes_nil : Completes [] := ⟨[], [], rfl, nofun, nofun⟩

/-- A dot ends the segment, and a name follows. -/
theorem completes_dot (rest : List Char) :
    Completes ('.' :: rest) ↔ ∀ s ∈ segments rest, IsIdentifier s := by
  unfold Completes
  rw [segments_dot]
  constructor
  · rintro ⟨first, others, h, -, hothers⟩
    obtain ⟨rfl, rfl⟩ := List.cons.inj h
    exact hothers
  · intro h
    exact ⟨[], _, rfl, nofun, h⟩

/-- Any other character goes on with the segment. -/
theorem completes_cons {c : Char} (hc : c ≠ '.') (rest : List Char) :
    Completes (c :: rest) ↔ Continues c ∧ Completes rest := by
  obtain ⟨first, others, hrest, hcons⟩ := segments_cons hc rest
  unfold Completes
  rw [hrest, hcons]
  constructor
  · rintro ⟨first', others', h, hfirst, hothers⟩
    obtain ⟨rfl, rfl⟩ := List.cons.inj h
    exact ⟨hfirst c (by simp), first, others, rfl,
      fun d hd => hfirst d (List.mem_cons_of_mem c hd), hothers⟩
  · rintro ⟨hcont, first', others', h, hfirst, hothers⟩
    obtain ⟨rfl, rfl⟩ := List.cons.inj h
    refine ⟨_, _, rfl, fun d hd => ?_, hothers⟩
    rcases List.mem_cons.mp hd with rfl | hd
    · exact hcont
    · exact hfirst d hd

/-- The segments of a text are identifiers iff its first character starts one and the rest completes
the name. -/
theorem identifiers_cons (c : Char) (rest : List Char) :
    (∀ s ∈ segments (c :: rest), IsIdentifier s) ↔ Starts c ∧ Completes rest := by
  by_cases hc : c = '.'
  · subst hc
    rw [segments_dot]
    refine iff_of_false (fun h => ?_) fun h => not_starts_dot h.1
    exact not_isIdentifier_nil (h [] (by simp))
  · obtain ⟨first, others, hrest, hcons⟩ := segments_cons hc rest
    unfold Completes
    rw [hrest, hcons]
    constructor
    · intro h
      have hfirst := isIdentifier_cons_iff.mp (h _ (List.mem_cons_self ..))
      exact ⟨hfirst.1, first, others, rfl, hfirst.2,
        fun s hs => h s (List.mem_cons_of_mem _ hs)⟩
    · rintro ⟨hstart, first', others', h, hfirst, hothers⟩ s hs
      obtain ⟨rfl, rfl⟩ := List.cons.inj h
      rcases List.mem_cons.mp hs with rfl | hs
      · exact .mk hstart hfirst
      · exact hothers s hs

theorem isRest_iff (text : List Char) : isRest text = true ↔ Completes text := by
  fun_induction isRest text with
  | case1 => exact iff_of_true rfl completes_nil
  | case2 c rest ih => rw [Bool.and_eq_true, isStart_iff, ih, completes_dot, identifiers_cons]
  | case3 c rest hno ih =>
    rw [Bool.and_eq_true, isContinuation_iff]
    by_cases hc : c = '.'
    · -- a dot comes to this case only at the end, where no identifier follows it
      subst hc
      have hrest : rest = [] := by
        cases rest with
        | nil => rfl
        | cons d rest => exact absurd rfl (hno d rest rfl)
      subst hrest
      rw [completes_dot]
      exact iff_of_false (fun h => not_continues_dot h.1) not_identifiers_nil
    · rw [completes_cons hc, ih]

theorem isName_iff (text : List Char) :
    isName text = true ↔ ∀ s ∈ segments text, IsIdentifier s := by
  cases text with
  | nil => exact iff_of_false Bool.false_ne_true not_identifiers_nil
  | cons c rest =>
    rw [isName, Bool.and_eq_true, isStart_iff, isRest_iff, identifiers_cons]

/-! ## The pattern -/

/-- The class `[A-Za-z_$]`. -/
def startRanges : List (Char × Char) := [('A', 'Z'), ('a', 'z'), ('_', '_'), ('$', '$')]

/-- The class `[A-Za-z0-9_$]`. -/
def continuationRanges : List (Char × Char) :=
  [('A', 'Z'), ('a', 'z'), ('0', '9'), ('_', '_'), ('$', '$')]

/-- The pattern `[A-Za-z_$][A-Za-z0-9_$]*`. -/
def identifier : Pattern := .seq (.oneOf startRanges) (.star (.oneOf continuationRanges))

/-- An identifier, and further ones behind dots. -/
def dotted : Pattern := .seq identifier (.star (.seq (.oneOf [('.', '.')]) identifier))

/-- The pattern `^[A-Za-z_$][A-Za-z0-9_$]*(\.[A-Za-z_$][A-Za-z0-9_$]*)*$`. -/
def pattern : Pattern := .seq .start (.seq dotted .finish)

/-- The words that are identifiers. -/
def identifiers : Language Char := {word | IsIdentifier word}

theorem mem_identifiers {word : List Char} : word ∈ identifiers ↔ IsIdentifier word := Iff.rfl

theorem inRanges_start {c : Char} : Pattern.InRanges startRanges c ↔ Starts c := by
  simp [Pattern.InRanges, startRanges, Starts, le_and_le_iff]

theorem inRanges_continuation {c : Char} :
    Pattern.InRanges continuationRanges c ↔ Continues c := by
  simp only [Pattern.InRanges, continuationRanges, Continues, Starts, List.exists_mem_cons_iff,
    List.not_mem_nil, false_and, exists_false, or_false, le_and_le_iff]
  tauto

theorem inRanges_dot {c : Char} : Pattern.InRanges [('.', '.')] c ↔ c = '.' :=
  Pattern.inRanges_self

theorem recognizes_identifier : identifier.Recognizes identifiers := by
  have hlanguage : Pattern.letters startRanges * (Pattern.letters continuationRanges)∗ =
      identifiers := by
    ext word
    rw [Language.mem_mul, mem_identifiers]
    constructor
    · rintro ⟨_, ⟨c, hc, rfl⟩, rest, hrest, rfl⟩
      refine .mk (inRanges_start.mp hc) fun d hd => ?_
      exact inRanges_continuation.mp (Pattern.mem_kstar_letters.mp hrest d hd)
    · rintro ⟨hc, hrest⟩
      exact ⟨[_], ⟨_, inRanges_start.mpr hc, rfl⟩, _,
        Pattern.mem_kstar_letters.mpr fun d hd => inRanges_continuation.mpr (hrest d hd), rfl⟩
  rw [← hlanguage]
  exact .seq (.oneOf _) (.star (.oneOf _))

/-- The words of an identifier behind a dot. -/
def dottedTails : Language Char := {word | ∃ tail, IsIdentifier tail ∧ word = '.' :: tail}

theorem recognizes_dotted : dotted.Recognizes (identifiers * dottedTails∗) := by
  have hlanguage : Pattern.letters [('.', '.')] * identifiers = dottedTails := by
    ext word
    rw [Language.mem_mul]
    constructor
    · rintro ⟨_, ⟨c, hc, rfl⟩, tail, htail, rfl⟩
      rw [inRanges_dot.mp hc]
      exact ⟨tail, htail, rfl⟩
    · rintro ⟨tail, htail, rfl⟩
      exact ⟨['.'], ⟨'.', inRanges_dot.mpr rfl, rfl⟩, tail, htail, rfl⟩
  rw [← hlanguage]
  exact .seq recognizes_identifier (.star (.seq (.oneOf _) recognizes_identifier))

/-- What the pattern repeats adds one segment each time. -/
theorem identifiers_of_tails {first : List Char} (hfirst : IsIdentifier first)
    {tails : List (List Char)} (htails : ∀ t ∈ tails, t ∈ dottedTails) :
    ∀ s ∈ segments (first ++ tails.flatten), IsIdentifier s := by
  induction tails generalizing first with
  | nil =>
    rw [List.flatten_nil, List.append_nil, segments_of_continues hfirst.continues]
    intro s hs
    rw [List.mem_singleton.mp hs]
    exact hfirst
  | cons tail tails ih =>
    obtain ⟨next, hnext, rfl⟩ := htails tail (by simp)
    have ih := ih hnext fun t ht => htails t (List.mem_cons_of_mem _ ht)
    intro s hs
    rw [List.flatten_cons, List.cons_append, segments_append,
      segments_of_continues hfirst.continues] at hs
    rcases List.mem_append.mp hs with hs | hs
    · rw [List.mem_singleton.mp hs]
      exact hfirst
    · exact ih s hs

/-- Identifiers with dots between them are what the pattern repeats. -/
theorem intercalate_mem_dotted {first : List Char} (hfirst : IsIdentifier first)
    {others : List (List Char)} (hothers : ∀ s ∈ others, IsIdentifier s) :
    ['.'].intercalate (first :: others) ∈ identifiers * dottedTails∗ := by
  have hjoin : ['.'].intercalate (first :: others) =
      first ++ (others.map ('.' :: ·)).flatten := by
    clear hfirst hothers
    induction others generalizing first with
    | nil => simp [List.intercalate]
    | cons next others ih =>
      rw [List.intercalate_cons_cons, ih]
      simp
  rw [hjoin]
  refine Language.append_mem_mul hfirst (Language.join_mem_kstar fun tail htail => ?_)
  obtain ⟨s, hs, rfl⟩ := List.mem_map.mp htail
  exact ⟨s, hothers s hs, rfl⟩

/-- The pattern between the anchors describes the texts whose segments are identifiers. -/
theorem mem_dotted_iff (text : List Char) :
    text ∈ identifiers * dottedTails∗ ↔ ∀ s ∈ segments text, IsIdentifier s := by
  constructor
  · intro h
    obtain ⟨first, hfirst, rest, hrest, rfl⟩ := Language.mem_mul.mp h
    obtain ⟨tails, rfl, htails⟩ := Language.mem_kstar.mp hrest
    exact identifiers_of_tails hfirst htails
  · intro h
    obtain ⟨first, others, hsegments⟩ :=
      List.exists_cons_of_ne_nil (List.splitOn_ne_nil '.' text)
    have hall : ∀ s ∈ first :: others, IsIdentifier s := hsegments ▸ h
    have hjoin : ['.'].intercalate (text.splitOn '.') = text := List.intercalate_splitOn '.'
    rw [← hjoin, hsegments]
    exact intercalate_mem_dotted (hall first (by simp))
      fun s hs => hall s (List.mem_cons_of_mem first hs)

end InterfaceCheck.ModuleName

namespace InterfaceCheck

open ModuleName

theorem isModuleName_iff_segments (s : String) :
    isModuleName s = true ↔ ∀ segment ∈ segments s.toList, IsIdentifier segment :=
  isName_iff s.toList

/-- Joining with a dot: a name iff both parts are. -/
theorem isModuleName_append (a b : String) :
    isModuleName (a ++ "." ++ b) = true ↔ isModuleName a = true ∧ isModuleName b = true := by
  have htext : (a ++ "." ++ b).toList = a.toList ++ '.' :: b.toList := by simp
  simp only [isModuleName_iff_segments, htext, segments_append, List.mem_append, or_imp,
    forall_and]

theorem isModuleName_append_of_left {a : String} (h : isModuleName a = false) (b : String) :
    isModuleName (a ++ "." ++ b) = false := by
  refine Bool.eq_false_iff.mpr fun hname => ?_
  rw [((isModuleName_append a b).mp hname).1] at h
  cases h

theorem isModuleName_append_of_right (a : String) {b : String} (h : isModuleName b = false) :
    isModuleName (a ++ "." ++ b) = false := by
  refine Bool.eq_false_iff.mpr fun hname => ?_
  rw [((isModuleName_append a b).mp hname).2] at h
  cases h

/-- Only what identifiers go on with, and dots, occurs in a module name. -/
theorem continues_of_isModuleName {s : String} (h : isModuleName s = true) {c : Char}
    (hc : c ∈ s.toList) (hdot : c ≠ '.') : Continues c := by
  obtain ⟨segment, hsegment, hmem⟩ := exists_segment hc hdot
  exact ((isModuleName_iff_segments s).mp h segment hsegment).continues c hmem

/-- **What a module name is.** The strings that `isModuleName` accepts are those in which the
anchored pattern occurs; they are those whose segments between dots are all identifiers. So two
strings joined by a dot make a module name iff both are one, and no module name is empty, starts or
ends with a dot, has two dots in a row, ends with a line end, or has a character that is not
ASCII. -/
theorem isModuleName_language :
    (∀ s, isModuleName s = true ↔ ModuleName.pattern.OccursIn s.toList) ∧
    (∀ s, isModuleName s = true ↔ ∀ segment ∈ s.toList.splitOn '.', IsIdentifier segment) ∧
    (∀ a b, isModuleName (a ++ "." ++ b) = true ↔
      isModuleName a = true ∧ isModuleName b = true) ∧
    isModuleName "" = false ∧
    (∀ s, isModuleName ("." ++ s) = false ∧ isModuleName (s ++ ".") = false ∧
      isModuleName (s ++ "\n") = false) ∧
    (∀ a b, isModuleName (a ++ ".." ++ b) = false) ∧
    ∀ s c, c ∈ s.toList → 128 ≤ c.toNat → isModuleName s = false := by
  have hempty : isModuleName "" = false := rfl
  have htrailing : ∀ s, isModuleName (s ++ ".") = false := by
    intro s
    have h := isModuleName_append_of_right s hempty
    rwa [String.append_empty] at h
  have hforeign : ∀ s c, c ∈ s.toList → c ≠ '.' → ¬ Continues c → isModuleName s = false :=
    fun s c hc hdot hno =>
      Bool.eq_false_iff.mpr fun hs => hno (continues_of_isModuleName hs hc hdot)
  refine ⟨fun s => ?_, isModuleName_iff_segments, isModuleName_append, hempty,
    fun s => ⟨?_, htrailing s, ?_⟩, fun a b => ?_, fun s c hc hascii => ?_⟩
  · rw [ModuleName.pattern, Pattern.occursIn_anchored_iff recognizes_dotted, mem_dotted_iff,
      isModuleName_iff_segments]
  · have h := isModuleName_append_of_left hempty s
    rwa [String.empty_append] at h
  · refine hforeign _ '\n' (by simp) (by decide) ?_
    rw [← isContinuation_iff]
    decide
  · -- the second dot joins a string that ends with a dot
    have htext : a ++ ".." ++ b = a ++ "." ++ "." ++ b := by
      have hdots : ".." = "." ++ "." := rfl
      rw [hdots, ← String.append_assoc]
    rw [htext]
    exact isModuleName_append_of_left (htrailing a) b
  · refine hforeign s c hc ?_ fun h => absurd h.toNat_lt (Nat.not_lt.mpr hascii)
    rintro rfl
    exact absurd hascii (by decide)

/-- An umlaut is a letter, but not an ASCII one. -/
theorem isModuleName_language_umlaut :
    'ä' ∈ "geo.Fläche".toList ∧ 128 ≤ 'ä'.toNat ∧ isModuleName "geo.Fläche" = false :=
  have hmem : 'ä' ∈ "geo.Fläche".toList := by decide
  have hascii : 128 ≤ 'ä'.toNat := by decide
  ⟨hmem, hascii, isModuleName_language.2.2.2.2.2.2 _ _ hmem hascii⟩

end InterfaceCheck
