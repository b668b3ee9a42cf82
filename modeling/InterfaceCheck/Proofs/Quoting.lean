import InterfaceCheck.Proofs.AssertionTables
import InterfaceCheck.Refusal
import InterfaceCheck.Toml.Text
import Mathlib.Algebra.Ring.Parity
/-!
# Quoted names can be told apart

Messages about names and listings of names show each name in its quoted form. That form can be read
again: a reader (`Text.unquote?`) that goes along it character by character finds the closing quote
and has the string by then, whatever text comes next. So no quoted string is the beginning of
another one, and a listing of quoted strings has only one way to be taken apart, even where the
strings hold quotes, commas, brackets or text that looks like an escape.

- `Text.escape_cases`: the three ways to show a character, from which all else follows;
- `Text.unquote?_quote`: the quoted form is read back;
- `Text.odd_backslashesAtEnd`, `Text.not_hidden_of_mem_escape`: what does not stand between the
  quotes;
- `Text.quoteList_injective`, `Text.exists_listed_eq`: listings of different names differ, and each
  name stands in its listing;
- `quoted_names_unambiguous`: what this means for refusals and assertion tables.
-/

namespace InterfaceCheck

namespace Text

/-! ## Reading a quoted text -/

/-- How far a reader is within a quoted text. -/
inductive Progress where
  /-- Between two characters. -/
  | between
  /-- Behind a backslash. -/
  | escape
  /-- Behind the letter that announces a code point. -/
  | opening
  /-- Within the braces, behind digits of this value. -/
  | code (value : Nat)

/-- The character that one character behind a backslash stands for. -/
def unescape? (c : Char) : Option Char :=
  if c = '"' ∨ c = '\\' then some c
  else if c = 'n' then some '\n'
  else if c = 'r' then some '\r'
  else if c = 't' then some '\t'
  else if c = '0' then some '\x00'
  else none

/-- The characters up to the closing quote, and the text after it. -/
def readBody? : Progress → List Char → Option (List Char × List Char)
  | _, [] => none
  | .between, c :: rest =>
    if c = '"' then some ([], rest)
    else if c = '\\' then readBody? .escape rest
    else (readBody? .between rest).map (Prod.map (c :: ·) id)
  | .escape, c :: rest =>
    if c = 'u' then readBody? .opening rest
    else (unescape? c).bind fun d => (readBody? .between rest).map (Prod.map (d :: ·) id)
  | .opening, c :: rest => if c = '{' then readBody? (.code 0) rest else none
  | .code value, c :: rest =>
    if c = '}' then
      if value.isValidChar then
        (readBody? .between rest).map (Prod.map (Char.ofNat value :: ·) id)
      else none
    else (Toml.hexDigit? c).bind fun digit => readBody? (.code (16 * value + digit)) rest

/-- The string that a text begins with in its quoted form, and the text after it. -/
def unquote? : List Char → Option (String × List Char)
  | '"' :: rest => (readBody? .between rest).map (Prod.map String.ofList id)
  | _ => none

/-! ## The three ways to show a character -/

/-- The characters that show as blank space or not at all. -/
def hidden : List Char := ['\n', '\r', '\t', '\x00']

/-- The characters that never stand for themselves, whatever counts as printable. -/
def escaped : List Char := '"' :: '\\' :: hidden

/-- A character has a letter behind a backslash, or it is written by its code point, or it stands
for itself. -/
theorem escape_cases (c : Char) :
    (∃ letter, escape c = ['\\', letter] ∧ unescape? letter = some c) ∨
      escape c = codeEscape c ∨ escape c = [c] ∧ c ∉ escaped := by
  by_cases hc : c ∈ escaped
  · left
    simp only [escaped, hidden, List.mem_cons, List.not_mem_nil, or_false] at hc
    obtain rfl | rfl | rfl | rfl | rfl | rfl := hc
    · exact ⟨'"', rfl, rfl⟩
    · exact ⟨'\\', rfl, rfl⟩
    · exact ⟨'n', rfl, rfl⟩
    · exact ⟨'r', rfl, rfl⟩
    · exact ⟨'t', rfl, rfl⟩
    · exact ⟨'0', rfl, rfl⟩
  · right
    have hne := hc
    simp only [escaped, hidden, List.mem_cons, List.not_mem_nil, or_false, not_or] at hne
    obtain ⟨hquote, hbackslash, hfeed, hreturn, htab, hnul⟩ := hne
    unfold escape
    rw [if_neg hquote, if_neg hbackslash, if_neg hfeed, if_neg hreturn, if_neg htab, if_neg hnul]
    split
    · exact .inl rfl
    · exact .inr ⟨rfl, hc⟩

/-- What may stand behind a backslash. -/
theorem unescape?_eq_some {letter c : Char} (h : unescape? letter = some c) :
    letter ∈ ['"', '\\', 'n', 'r', 't', '0'] := by
  by_contra hletter
  simp only [List.mem_cons, List.not_mem_nil, or_false, not_or] at hletter
  simp [unescape?, hletter] at h

theorem mem_toDigits {n : Nat} {c : Char} (h : c ∈ Nat.toDigits 16 n) :
    ∃ digit < 16, c = digit.digitChar := by
  induction n using Nat.strongRecOn with
  | ind n ih =>
    obtain hn | hn := Nat.lt_or_ge n 16
    · rw [Nat.toDigits_of_lt_base hn, List.mem_singleton] at h
      exact ⟨n, hn, h⟩
    · rw [Nat.toDigits_of_base_le (by decide) hn, List.mem_append, List.mem_singleton] at h
      obtain h | h := h
      · exact ih (n / 16) (by omega) h
      · exact ⟨n % 16, by omega, h⟩

/-! ## The quoted form is read back -/

theorem hexDigit?_digitChar :
    ∀ digit < 16, Toml.hexDigit? digit.digitChar = some digit ∧ digit.digitChar ≠ '}' := by
  decide

theorem readBody?_digit {digit : Nat} (h : digit < 16) (value : Nat) (rest : List Char) :
    readBody? (.code value) (digit.digitChar :: rest) =
      readBody? (.code (16 * value + digit)) rest := by
  obtain ⟨hdigit, hne⟩ := hexDigit?_digitChar digit h
  rw [readBody?, if_neg hne, hdigit, Option.bind_some]

/-- The digits of a number are read to the number. -/
theorem readBody?_toDigits (n : Nat) (rest : List Char) :
    readBody? (.code 0) (Nat.toDigits 16 n ++ rest) = readBody? (.code n) rest := by
  induction n using Nat.strongRecOn generalizing rest with
  | ind n ih =>
    obtain hn | hn := Nat.lt_or_ge n 16
    · rw [Nat.toDigits_of_lt_base hn, List.singleton_append, readBody?_digit hn, Nat.mul_zero,
        Nat.zero_add]
    · rw [Nat.toDigits_of_base_le (by decide) hn, List.append_assoc, ih (n / 16) (by omega),
        List.singleton_append, readBody?_digit (Nat.mod_lt n (by decide)), Nat.div_add_mod]

/-- Whichever way a character is shown, the reader takes it for the character. -/
theorem readBody?_escape (c : Char) (rest : List Char) :
    readBody? .between (escape c ++ rest) =
      (readBody? .between rest).map (Prod.map (c :: ·) id) := by
  obtain ⟨letter, hescape, hletter⟩ | hescape | ⟨hescape, hc⟩ := escape_cases c
  · have hne : letter ≠ 'u' := by
      rintro rfl
      exact Option.some_ne_none c hletter.symm
    rw [hescape, List.cons_append, readBody?, if_neg (by decide), if_pos rfl, List.cons_append,
      readBody?, if_neg hne, hletter, Option.bind_some, List.nil_append]
  · have hvalid : c.toNat.isValidChar := c.valid
    rw [hescape, codeEscape, List.append_assoc, List.append_assoc]
    simp only [List.cons_append, List.nil_append]
    rw [readBody?, if_neg (by decide), if_pos rfl, readBody?, if_pos rfl, readBody?, if_pos rfl,
      readBody?_toDigits, readBody?, if_pos rfl, if_pos hvalid, Char.ofNat_toNat]
  · have hquote : c ≠ '"' := fun h => hc (h ▸ List.mem_cons_self)
    have hbackslash : c ≠ '\\' := fun h => hc (h ▸ List.mem_cons_of_mem _ List.mem_cons_self)
    rw [hescape, List.singleton_append, readBody?, if_neg hquote, if_neg hbackslash]

theorem readBody?_flatMap (s rest : List Char) :
    readBody? .between (s.flatMap escape ++ '"' :: rest) = some (s, rest) := by
  induction s with
  | nil => rfl
  | cons c s ih => rw [List.flatMap_cons, List.append_assoc, readBody?_escape, ih]; rfl

theorem toList_quote (s : String) :
    (quote s).toList = '"' :: s.toList.flatMap escape ++ ['"'] :=
  String.toList_ofList

theorem unquote?_quote (s : String) (rest : List Char) :
    unquote? ((quote s).toList ++ rest) = some (s, rest) := by
  rw [toList_quote, List.append_assoc, List.cons_append, List.singleton_append, unquote?,
    readBody?_flatMap, Option.map_some, Prod.map_apply, String.ofList_toList, id]

/-- No quoted string is the beginning of another one. -/
theorem quote_append_inj {s t : String} {rest rest' : List Char}
    (h : (quote s).toList ++ rest = (quote t).toList ++ rest') : s = t ∧ rest = rest' := by
  have hread := congrArg unquote? h
  rw [unquote?_quote, unquote?_quote, Option.some_inj] at hread
  exact Prod.mk.inj hread

theorem quote_injective {s t : String} (h : quote s = quote t) : s = t :=
  (@quote_append_inj s t [] [] (by rw [h])).1

/-! ## What does not stand within the quotes -/

/-- How many backslashes the text ends in. -/
def backslashesAtEnd (text : List Char) : Nat := (text.reverse.takeWhile (· = '\\')).length

theorem odd_backslashesAtEnd_append {before : List Char} (h : Even (backslashesAtEnd before))
    (text : List Char) (htext : Odd (backslashesAtEnd text)) :
    Odd (backslashesAtEnd (before ++ text)) := by
  unfold backslashesAtEnd at *
  rw [List.reverse_append, List.takeWhile_append]
  split
  case isTrue hall =>
    rw [List.length_append, ← hall]
    exact htext.add_even h
  case isFalse => exact htext

/-- A backslash of an escaped character belongs to it and to nothing that comes next. -/
theorem even_backslashesAtEnd_escape (c : Char) : Even (backslashesAtEnd (escape c)) := by
  obtain ⟨letter, hescape, hletter⟩ | hescape | ⟨hescape, hc⟩ := escape_cases c
  · have hcases := unescape?_eq_some hletter
    rw [hescape]
    simp only [List.mem_cons, List.not_mem_nil, or_false] at hcases
    obtain rfl | rfl | rfl | rfl | rfl | rfl := hcases <;> decide
  · rw [hescape, codeEscape, backslashesAtEnd, List.reverse_append, List.reverse_singleton,
      List.singleton_append, List.takeWhile_cons_of_neg (by decide)]
    exact Even.zero
  · have hne : c ≠ '\\' := by
      rintro rfl
      exact hc (by decide)
    rw [hescape, backslashesAtEnd, List.reverse_singleton, List.takeWhile_cons_of_neg (by simpa)]
    exact Even.zero

theorem mem_codeEscape {c d : Char} (h : d ∈ codeEscape c) : d = '\\' ∨ d ∉ escaped := by
  have hdigit : ∀ digit < 16, digit.digitChar ∉ escaped := by decide
  simp only [codeEscape, List.mem_append, List.mem_cons, List.not_mem_nil, or_false] at h
  obtain ((rfl | rfl | rfl) | h) | rfl := h
  · exact .inl rfl
  · exact .inr (by decide)
  · exact .inr (by decide)
  · obtain ⟨digit, hlt, rfl⟩ := mem_toDigits h
    exact .inr (hdigit digit hlt)
  · exact .inr (by decide)

theorem not_hidden_of_mem_escape {c d : Char} (h : d ∈ escape c) : d ∉ hidden := by
  have hnot : d ∉ escaped → d ∉ hidden := fun hd hmem =>
    hd (List.mem_cons_of_mem _ (List.mem_cons_of_mem _ hmem))
  obtain ⟨letter, hescape, hletter⟩ | hescape | ⟨hescape, hc⟩ := escape_cases c <;>
    rw [hescape] at h
  · have hcases := unescape?_eq_some hletter
    simp only [List.mem_cons, List.not_mem_nil, or_false] at h hcases
    obtain rfl | rfl := h
    · decide
    · obtain rfl | rfl | rfl | rfl | rfl | rfl := hcases <;> decide
  · obtain rfl | hd := mem_codeEscape h
    · decide
    · exact hnot hd
  · exact hnot (List.mem_singleton.mp h ▸ hc)

/-- Where a quote stands in what shows a character, there is one backslash before it. -/
theorem escape_eq_append {c : Char} {before after : List Char}
    (h : escape c = before ++ '"' :: after) : before = ['\\'] := by
  have hmem : '"' ∈ escape c := by simp [h]
  obtain ⟨letter, hescape, -⟩ | hescape | ⟨hescape, hc⟩ := escape_cases c
  · rw [hescape] at h
    match before, h with
    | [d], h => exact congrArg (·.take 1) h.symm
    | d :: e :: before, h => simp at h
  · exact absurd (mem_codeEscape (hescape ▸ hmem)) (by decide)
  · rw [hescape, List.mem_singleton] at hmem
    exact absurd (by decide) (hmem ▸ hc)

/-- A quote within the quotes is escaped: the backslashes before it are odd in number. -/
theorem odd_backslashesAtEnd {s before after : List Char}
    (h : s.flatMap escape = before ++ '"' :: after) : Odd (backslashesAtEnd before) := by
  induction s generalizing before with
  | nil => simp at h
  | cons c s ih =>
    rw [List.flatMap_cons, List.append_eq_append_iff] at h
    obtain ⟨rest, rfl, hs⟩ | ⟨rest, hc, hs⟩ := h
    · exact odd_backslashesAtEnd_append (even_backslashesAtEnd_escape c) rest (ih hs)
    · cases rest with
      | nil => exact absurd (@ih [] hs.symm) (by decide)
      | cons d rest =>
        obtain ⟨rfl, -⟩ := List.cons.inj hs
        rw [escape_eq_append hc]
        decide

/-! ## Listings -/

/-- The quoted strings with commas between them. -/
def listed (names : List String) : List Char :=
  [',', ' '].intercalate (names.map fun name => (quote name).toList)

theorem toList_quoteList (names : List String) :
    (quoteList names).toList = '[' :: listed names ++ [']'] := by
  unfold quoteList listed
  rw [String.toList_append, String.toList_append, String.toList_intercalate, List.map_map]
  rfl

/-- Behind the first string of a listing stands a comma before each of the others. -/
theorem listed_cons (name : String) (names : List String) :
    listed (name :: names) =
      (quote name).toList ++ names.flatMap fun other => ',' :: ' ' :: (quote other).toList := by
  induction names generalizing name with
  | nil => simp [listed]
  | cons other names ih =>
    have hstep : listed (name :: other :: names) =
        (quote name).toList ++ [',', ' '] ++ listed (other :: names) :=
      List.intercalate_cons_cons
    rw [hstep, ih other, List.flatMap_cons, List.append_assoc]
    simp only [List.cons_append, List.nil_append]

theorem flatMap_comma_injective {names names' : List String}
    (h : (names.flatMap fun name => ',' :: ' ' :: (quote name).toList) =
      names'.flatMap fun name => ',' :: ' ' :: (quote name).toList) : names = names' := by
  induction names generalizing names' with
  | nil => cases names' with
    | nil => rfl
    | cons => simp at h
  | cons name names ih => cases names' with
    | nil => simp at h
    | cons name' names' =>
      rw [List.flatMap_cons, List.flatMap_cons] at h
      obtain ⟨rfl, hrest⟩ := quote_append_inj (List.cons.inj (List.cons.inj h).2).2
      rw [ih hrest]

theorem quoteList_injective {names names' : List String} (h : quoteList names = quoteList names') :
    names = names' := by
  have hlisted : listed names = listed names' := by
    have htext := congrArg String.toList h
    rw [toList_quoteList, toList_quoteList] at htext
    exact List.append_cancel_right (List.cons.inj htext).2
  have hne : ∀ name names, listed (name :: names) ≠ [] := fun name names hnil => by
    rw [listed_cons, toList_quote] at hnil
    exact absurd hnil (List.cons_ne_nil _ _)
  match names, names', hlisted with
  | [], [], _ => rfl
  | [], name' :: names', hlisted => exact absurd hlisted.symm (hne name' names')
  | name :: names, [], hlisted => exact absurd hlisted (hne name names)
  | name :: names, name' :: names', hlisted =>
    rw [listed_cons, listed_cons] at hlisted
    obtain ⟨rfl, hrest⟩ := quote_append_inj hlisted
    rw [flatMap_comma_injective hrest]

/-- Each string of a listing stands in it in its quoted form. -/
theorem exists_listed_eq {name : String} {names : List String} (h : name ∈ names) :
    ∃ before after, listed names = before ++ (quote name).toList ++ after := by
  obtain ⟨earlier, later, rfl⟩ := List.append_of_mem h
  cases earlier with
  | nil =>
    refine ⟨[], later.flatMap fun other => ',' :: ' ' :: (quote other).toList, ?_⟩
    rw [List.nil_append, List.nil_append, listed_cons]
  | cons first earlier =>
    rw [List.cons_append, listed_cons, List.flatMap_append, List.flatMap_cons]
    exact ⟨(quote first).toList ++
      (earlier.flatMap fun other => ',' :: ' ' :: (quote other).toList) ++ [',', ' '],
      later.flatMap fun other => ',' :: ' ' :: (quote other).toList,
      by simp only [List.append_assoc, List.cons_append, List.nil_append]⟩

/-- A name that looks like two is not taken for two. -/
example : quoteList ["a\", \"b"] ≠ quoteList ["a", "b"] := fun h =>
  absurd (quoteList_injective h) (by decide)

end Text

/-! ## Refusals and assertion tables -/

theorem Refusal.message_invalidName_inj {n m : String} :
    (Refusal.invalidName n).message = (Refusal.invalidName m).message ↔ n = m := by
  refine ⟨fun h => Text.quote_injective ?_, fun h => h ▸ rfl⟩
  exact String.append_right_inj _ |>.mp h

namespace Assertions

/-- Two tables look the same iff they show the same names. -/
theorem summary_eq_iff {a b : Assertions} : a.summary = b.summary ↔ a.names = b.names := by
  unfold summary
  rw [Text.record_field, Text.record_field]
  refine ⟨fun h => Text.quoteList_injective ?_, fun h => by rw [h]⟩
  exact String.append_right_inj _ |>.mp (String.append_left_inj _ |>.mp h)

/-- A table shows each of its names in the quoted form. -/
theorem exists_summary_eq {a : Assertions} {name : String} (h : name ∈ a.names) :
    ∃ before after, a.summary.toList = before ++ (Text.quote name).toList ++ after := by
  obtain ⟨before, after, hlisted⟩ := Text.exists_listed_eq h
  unfold summary
  rw [Text.record_field, String.toList_append, String.toList_append, Text.toList_quoteList,
    hlisted]
  generalize ("Assertions" ++ " ".push '{' ++ " " ++ ("names" ++ ": ")).toList = opening
  exact ⟨opening ++ '[' :: before, after ++ [']'] ++ (" ".push '}').toList,
    by simp only [List.append_assoc, List.cons_append]⟩

/-- The listing of a table says which names were defined, and nothing else. -/
theorem names_made_eq_iff {builtin builtin' : Bool} {steps steps' : List Step} :
    (made builtin steps).names = (made builtin' steps').names ↔
      ∀ name, name ∈ (definitions builtin steps).map (·.1) ↔
        name ∈ (definitions builtin' steps').map (·.1) := by
  have hmem := (lastDefinitions_made builtin steps).names
  have hmem' := (lastDefinitions_made builtin' steps').names
  constructor
  · intro h name
    rw [← hmem, ← hmem', h]
  · intro h
    refine Table.sortedKeys_eq_of_mem_iff (nodup_keys_made builtin steps)
      (nodup_keys_made builtin' steps') fun name => ?_
    rw [← Table.mem_sortedKeys, ← Table.mem_sortedKeys]
    exact (hmem name).trans ((h name).trans (hmem' name).symm)

end Assertions

/-- **Quoted names are unambiguous**:

1. a name is read back from its quoted form, wherever that stands;
2. there is a quote on either side, and between the two no line feed, carriage return, tab or NUL,
   and no quote that is not escaped;
3. the message about an invalid name ends in its quoted form, so it tells which name it was;
4. an assertion table shows each name that was defined in its quoted form;
5. two assertion tables look the same iff the same names were defined, whatever the order, the
   predicates and the templates of the definitions. -/
theorem quoted_names_unambiguous :
    (∀ (name : String) (rest : List Char),
      Text.unquote? ((Text.quote name).toList ++ rest) = some (name, rest)) ∧
    (∀ name : String, ∃ body, (Text.quote name).toList = '"' :: body ++ ['"'] ∧
      (∀ c ∈ Text.hidden, c ∉ body) ∧
      ∀ before after, body = before ++ '"' :: after → Odd (Text.backslashesAtEnd before)) ∧
    (∀ name, (∃ label, (Refusal.invalidName name).message = label ++ Text.quote name) ∧
      ∀ other, (Refusal.invalidName name).message = (Refusal.invalidName other).message ↔
        name = other) ∧
    ∀ (builtin : Bool) (steps : List Assertions.Step),
      (∀ name ∈ (Assertions.definitions builtin steps).map (·.1), ∃ before after,
        (Assertions.made builtin steps).summary.toList =
          before ++ (Text.quote name).toList ++ after) ∧
      ∀ (builtin' : Bool) (steps' : List Assertions.Step),
        (Assertions.made builtin steps).summary = (Assertions.made builtin' steps').summary ↔
          ∀ name, name ∈ (Assertions.definitions builtin steps).map (·.1) ↔
            name ∈ (Assertions.definitions builtin' steps').map (·.1) := by
  refine ⟨Text.unquote?_quote, fun name => ?_, fun name => ⟨⟨_, rfl⟩, fun other =>
    Refusal.message_invalidName_inj⟩, fun builtin steps => ⟨fun name hname => ?_,
    fun builtin' steps' => Assertions.summary_eq_iff.trans Assertions.names_made_eq_iff⟩⟩
  · refine ⟨name.toList.flatMap Text.escape, Text.toList_quote name, fun c hc hmem => ?_,
      fun before after h => Text.odd_backslashesAtEnd h⟩
    obtain ⟨d, -, hd⟩ := List.mem_flatMap.mp hmem
    exact Text.not_hidden_of_mem_escape hd hc
  · exact Assertions.exists_summary_eq
      (((Assertions.lastDefinitions_made builtin steps).names name).mpr hname)

/-- A name with a comma between quotes is shown as one name: its table looks different from that of
the two names which it seems to consist of. A quote behind a backslash of the name has three
backslashes before it, and only the last of them escapes it. -/
theorem quoted_names_unambiguous_comma :
    let one : List Assertions.Step := [.add "a\", \"b" (Assertions.quietly fun _ => true) "%1"]
    let two : List Assertions.Step := [.add "b" (Assertions.quietly fun _ => false) "",
      .add "a" (Assertions.quietly fun _ => true) "%1"]
    (∃ before after, (Assertions.made false one).summary.toList =
      before ++ (Text.quote "a\", \"b").toList ++ after) ∧
    (Assertions.made false one).summary ≠ (Assertions.made false two).summary ∧
    ∃ body, (Text.quote "\\\"\n").toList = '"' :: body ++ ['"'] ∧ '\n' ∉ body ∧
      body = ['\\', '\\', '\\'] ++ '"' :: ['\\', 'n'] ∧
      Odd (Text.backslashesAtEnd ['\\', '\\', '\\']) := by
  intro one two
  obtain ⟨-, hquoted, -, htables⟩ := quoted_names_unambiguous
  obtain ⟨hshown, hsame⟩ := htables false one
  refine ⟨hshown _ (by decide), fun h => ?_, ?_⟩
  · have hname := (hsame false two).mp h "a"
    exact absurd (hname.mpr (by decide)) (by decide)
  · obtain ⟨body, htext, hhidden, hodd⟩ := hquoted "\\\"\n"
    have hbody : body = ['\\', '\\', '\\'] ++ '"' :: ['\\', 'n'] := by
      have hchars : (Text.quote "\\\"\n").toList =
          '"' :: (['\\', '\\', '\\'] ++ '"' :: ['\\', 'n']) ++ ['"'] := by
        decide
      exact List.append_cancel_right (List.cons.inj (htext.symm.trans hchars)).2
    exact ⟨body, htext, hhidden _ (by decide), hbody, hodd _ _ hbody⟩

end InterfaceCheck
