import InterfaceCheck.Proofs.Toml.Grammar
import Mathlib.Data.List.DropRight
/-!
# TOML: what is read is well-formed

Whatever the reader takes off a text, the grammar generates (`Toml.Grammar`), and it stands for the
value that the reader gives. Some readers go on over the blanks behind what they have read, where
the grammar leaves the blanks to what comes next: what these read is generated up to blanks
(`Padded`).

- `longBasicRest?_sound`, `longLiteralRest?_sound`: long strings, where three quotation marks are
  not always the first three of a run;
- `value?_sound`: values, by induction on their depth;
- `statementsOf?_sound`: documents.
-/

namespace InterfaceCheck.Toml

open Grammar

variable {cs rest : List Char}

/-! ## Between words -/

theorem blanks_skipBlanks (cs : List Char) : Blanks cs (skipBlanks cs) := by
  induction cs with
  | nil => exact .none []
  | cons c cs ih =>
    unfold skipBlanks at ih ⊢
    by_cases hc : isBlank c = true
    · rw [List.dropWhile_cons_of_pos hc]
      exact .blank hc ih
    · rw [List.dropWhile_cons_of_neg hc]
      exact .none _

theorem stops_dropWhile (p : Char → Bool) (cs : List Char) : Stops p (cs.dropWhile p) := by
  intro c hc
  have h := List.head?_dropWhile_not p cs
  rw [Option.mem_def.mp hc] at h
  exact h

theorem newline?_eq_some_iff : newline? cs = some rest ↔ LineBreak cs rest := by
  constructor
  · intro h
    unfold newline? at h
    split at h
    · cases h
      exact .feed _
    · cases h
      exact .returnFeed _
    · cases h
  · intro h
    cases h <;> rfl

theorem remark_skipComment (cs : List Char) : Remark cs (skipComment cs) := by
  unfold skipComment
  split
  case h_1 rest =>
    have h : Remark ('#' :: (rest.takeWhile isPlain ++ rest.dropWhile isPlain))
        (rest.dropWhile isPlain) := .comment List.all_takeWhile
    rwa [List.takeWhile_append_dropWhile] at h
  case h_2 => exact .none cs

namespace Grammar

/-- A line is over, and what follows is the next: at a line end, or where the document ends. -/
inductive Ends : Filler where
  | document : Ends [] []
  | line {cs rest : List Char} : LineBreak cs rest → Ends cs rest

variable {α : Type}

/-- What `G` generates, with blanks behind it. -/
def Padded (G : Grammar α) : Grammar α := fun cs a rest => ∃ after, G cs a after ∧ Blanks after rest

theorem Padded.of {G : Grammar α} {a : α} (h : G cs a rest) : Padded G cs a rest :=
  ⟨rest, h, .none rest⟩

theorem Padded.imp {β : Type} {G : Grammar α} {G' : Grammar β} {cs' : List Char} {a : α} {b : β}
    (h : Padded G cs a rest) (himp : ∀ after, G cs a after → G' cs' b after) :
    Padded G' cs' b rest := by
  obtain ⟨after, hread, hblanks⟩ := h
  exact ⟨after, himp after hread, hblanks⟩

theorem Blanks.trans {cs' : List Char} (h : Blanks cs cs') (h' : Blanks cs' rest) :
    Blanks cs rest := by
  induction h with
  | none => exact h'
  | blank hc _ ih => exact .blank hc (ih h')

/-- Blanks are space. -/
theorem Blanks.space {cs' : List Char} (h : Blanks cs cs') (h' : Space cs' rest) :
    Space cs rest := by
  induction h with
  | none => exact h'
  | blank hc _ ih => exact .blank hc (ih h')

end Grammar

/-- What is skipped is space, or the rest of a comment and space behind it. -/
theorem space_of_skipSpace? {inComment : Bool} (h : skipSpace? inComment cs = some rest)
    (hrest : rest ≠ []) :
    (inComment = false → Space cs rest) ∧
      (inComment = true → ∀ text, text.all isPlain = true → Space ('#' :: (text ++ cs)) rest) := by
  fun_induction skipSpace? inComment cs with
  | case1 => exact absurd (Option.some.inj h).symm hrest
  | case2 inComment cs ih =>
    exact ⟨fun _ => .line (.feed cs) ((ih h).1 rfl),
      fun _ text htext => .comment htext (.feed cs) ((ih h).1 rfl)⟩
  | case3 inComment cs ih =>
    exact ⟨fun _ => .line (.returnFeed cs) ((ih h).1 rfl),
      fun _ text htext => .comment htext (.returnFeed cs) ((ih h).1 rfl)⟩
  | case4 c cs _ _ hplain ih =>
    refine ⟨nofun, fun _ text htext => ?_⟩
    have hmore : (text ++ [c]).all isPlain = true := by simp_all
    have hspace := (ih h).2 rfl (text ++ [c]) hmore
    rwa [List.append_assoc] at hspace
  | case5 => cases h
  | case6 _ cs hcomment _ _ ih =>
    exact ⟨fun _ => (ih h).2 rfl [] rfl, fun h' => absurd h' hcomment⟩
  | case7 _ c cs _ _ hcomment _ hc ih =>
    exact ⟨fun _ => .blank hc ((ih h).1 rfl), fun h' => absurd h' hcomment⟩
  | case8 _ c cs _ _ hcomment =>
    cases h
    exact ⟨fun _ => .none _, fun h' => absurd h' hcomment⟩

theorem stops_skipSpace? {inComment : Bool} (h : skipSpace? inComment cs = some rest) :
    Stops isBlank rest := by
  fun_induction skipSpace? inComment cs with
  | case1 =>
    cases h
    exact nofun
  | case5 => cases h
  | case8 _ c cs _ _ _ _ hc =>
    cases h
    intro d hd
    obtain rfl := Option.some.inj hd
    simpa using hc
  | case2 _ _ ih | case3 _ _ ih | case4 _ _ _ _ _ ih | case6 _ _ _ _ _ ih
  | case7 _ _ _ _ _ _ _ _ ih =>
    exact ih h

/-! ## Strings -/

theorem coded?_sound {count : Nat} {c : Char} (h : coded? count cs = some (c, rest)) :
    ∃ digits values, cs = digits ++ rest ∧ digits.length = count ∧
      digits.mapM hexDigit? = some values ∧
      (values.foldl (fun n d => 16 * n + d) 0).isValidChar ∧
      c = .ofNat (values.foldl (fun n d => 16 * n + d) 0) := by
  unfold coded? at h
  dsimp only at h
  split at h
  case isFalse => cases h
  case isTrue hlength =>
    split at h
    case h_1 => cases h
    case h_2 values hvalues =>
      split at h
      case isFalse => cases h
      case isTrue hvalid =>
        cases h
        exact ⟨_, values, (List.take_append_drop count cs).symm, hlength, hvalues, hvalid, rfl⟩

theorem escape?_sound {c : Char} (h : escape? cs = some (c, rest)) : Escape cs c rest := by
  have hcoded : ∀ {mark count text}, (mark, count) ∈ codeMarks →
      coded? count text = some (c, rest) → Escape (mark :: text) c rest := by
    intro mark count text hmark hcoded
    obtain ⟨digits, values, rfl, hlength, hvalues, hvalid, rfl⟩ := coded?_sound hcoded
    exact .code hmark hlength hvalues hvalid
  unfold escape? at h
  split at h
  case h_9 => exact hcoded (by decide) h
  case h_10 => exact hcoded (by decide) h
  case h_11 => exact hcoded (by decide) h
  case h_12 => cases h
  all_goals
    cases h
    exact .letter (by decide)

theorem basicRest?_sound {text : List Char} (h : basicRest? cs = some (text, rest)) :
    Basic cs text rest := by
  fun_induction basicRest? cs generalizing text with
  | case1 | case3 | case5 | case7 => cases h
  | case2 cs =>
    cases h
    exact .close _
  | case4 cs c cs' hescape _ ih =>
    obtain ⟨⟨text, rest⟩, hread, heq⟩ := Option.map_eq_some_iff.mp h
    cases heq
    exact .escape (escape?_sound hescape) (ih hread)
  | case6 c cs hquote hbackslash hplain ih =>
    obtain ⟨⟨text, rest⟩, hread, heq⟩ := Option.map_eq_some_iff.mp h
    cases heq
    exact .plain hplain hquote hbackslash (ih hread)

theorem literalRest?_sound {text : List Char} (h : literalRest? cs = some (text, rest)) :
    Verbatim cs text rest := by
  fun_induction literalRest? cs generalizing text with
  | case1 | case4 => cases h
  | case2 cs =>
    cases h
    exact .close _
  | case3 c cs hquote hplain ih =>
    obtain ⟨⟨text, rest⟩, hread, heq⟩ := Option.map_eq_some_iff.mp h
    cases heq
    exact .plain hplain hquote (ih hread)

theorem lineString?_sound {text : List Char} (h : lineString? cs = some (text, rest)) :
    LineString cs text rest := by
  unfold lineString? at h
  split at h
  · exact .basic (basicRest?_sound h)
  · exact .verbatim (literalRest?_sound h)
  · cases h

/-! ### Long strings -/

theorem hidden_skipLines (cs : List Char) : Hidden cs (skipLines cs) := by
  fun_induction skipLines cs with
  | case1 cs ih => exact .line (.feed cs) ih
  | case2 cs ih => exact .line (.returnFeed cs) ih
  | case3 c cs _ _ hblank ih => exact .blank hblank ih
  | case4 c cs hfeed hreturn hblank =>
    refine .none (fun d hd => ?_) fun rest' h => ?_
    · obtain rfl := Option.some.inj hd
      simpa using hblank
    · cases h with
      | feed => exact hfeed rfl
      | returnFeed => exact hreturn _ rfl rfl
  | case5 => exact .none nofun nofun

theorem firstBreak_dropNewline (cs : List Char) : FirstBreak cs (dropNewline cs) := by
  unfold dropNewline
  cases h : newline? cs with
  | none =>
    refine .none fun rest' hbreak => ?_
    rw [newline?_eq_some_iff.mpr hbreak] at h
    cases h
  | some rest => exact .line (newline?_eq_some_iff.mp h)

theorem lineContinuation?_sound (h : lineContinuation? cs = some rest) :
    LongItem ('\\' :: cs) [] rest := by
  obtain ⟨cs', hbreak, rfl⟩ := Option.map_eq_some_iff.mp h
  exact .hidden (blanks_skipBlanks cs) (newline?_eq_some_iff.mp hbreak) (hidden_skipLines cs')

section Quotes

variable {quote : Char} {Item : Grammar (List Char)} {n : Nat} {text : List Char}

/-- `n` quotation marks have been read, and those in front of `cs` do not make three of them. The
reader counts none where it starts and behind everything that is no quotation mark. -/
def Apart (quote : Char) (n : Nat) (cs : List Char) : Prop :=
  n = 0 ∨ n + (cs.takeWhile (· == quote)).length < 3

/-- The quotation marks that stand before the closing ones may as well be read before them. -/
theorem long_of_extraQuotes (quote : Char) (Item : Grammar (List Char)) (cs : List Char) :
    Long quote Item 0 (quote :: quote :: quote :: cs) (extraQuotes quote cs).1
      (extraQuotes quote cs).2 := by
  fun_cases extraQuotes quote cs
  · exact .quote (by decide) (.quote (by decide) (.close 2 _))
  · exact .quote (by decide) (.close 1 _)
  · exact .close 0 _
  · exact .quote (by decide) (.close 1 _)
  · exact .close 0 _
  · exact .close 0 _

theorem Apart.close (hn : Apart quote n (quote :: quote :: quote :: cs)) :
    Long quote Item n (quote :: quote :: quote :: cs) (extraQuotes quote cs).1
      (extraQuotes quote cs).2 := by
  obtain rfl | hn := hn
  · exact long_of_extraQuotes quote Item cs
  · simp only [List.takeWhile_cons, beq_self_eq_true, if_true, List.length_cons] at hn
    omega

/-- No three quotation marks are at the front, so one of them is part of the text. -/
theorem Apart.add_one (hn : Apart quote n (quote :: cs))
    (hthree : ∀ cs', cs ≠ quote :: quote :: cs') : n < 2 ∧ Apart quote (n + 1) cs := by
  have hcs : (cs.takeWhile (· == quote)).length < 2 := by
    match cs with
    | [] => exact Nat.zero_lt_two
    | [c] => exact Nat.lt_of_le_of_lt (List.takeWhile_sublist _).length_le Nat.one_lt_two
    | c :: d :: cs' =>
      by_cases hc : c = quote
      · have hd : d ≠ quote := by
          rintro rfl
          exact hthree cs' (by rw [hc])
        simp [hc, hd]
      · simp [hc]
  unfold Apart at hn ⊢
  simp only [List.takeWhile_cons, beq_self_eq_true, if_true, List.length_cons] at hn
  omega

end Quotes

theorem longBasicRest?_sound {n : Nat} {read : List Char × List Char}
    (h : longBasicRest? cs = some read) (hn : Apart '"' n cs) :
    Long '"' LongItem n cs read.1 read.2 := by
  fun_induction longBasicRest? cs generalizing n read with
  | case1 | case4 | case5 | case7 | case11 => cases h
  | case2 cs =>
    obtain rfl := Option.some.inj h
    exact hn.close
  | case3 cs cs' hline _ ih => exact .item (lineContinuation?_sound hline) (ih h (.inl rfl))
  | case6 cs _ c cs' hescape _ ih =>
    obtain ⟨⟨text, rest⟩, hread, rfl⟩ := Option.map_eq_some_iff.mp h
    exact .item (.escape (escape?_sound hescape)) (ih hread (.inl rfl))
  | case8 cs ih =>
    obtain ⟨⟨text, rest⟩, hread, rfl⟩ := Option.map_eq_some_iff.mp h
    exact .item (.feed cs) (ih hread (.inl rfl))
  | case9 cs ih =>
    obtain ⟨⟨text, rest⟩, hread, rfl⟩ := Option.map_eq_some_iff.mp h
    exact .item (.returnFeed cs) (ih hread (.inl rfl))
  | case10 c cs hthree hbackslash _ _ hplain ih =>
    obtain ⟨⟨text, rest⟩, hread, rfl⟩ := Option.map_eq_some_iff.mp h
    by_cases hquote : c = '"'
    · subst hquote
      obtain ⟨hlt, hmore⟩ := hn.add_one fun cs' => hthree cs' rfl
      exact .quote hlt (ih hread hmore)
    · exact .item (.plain cs hplain hquote hbackslash) (ih hread (.inl rfl))

theorem longLiteralRest?_sound {n : Nat} {read : List Char × List Char}
    (h : longLiteralRest? cs = some read) (hn : Apart '\'' n cs) :
    Long '\'' LongVerbatimItem n cs read.1 read.2 := by
  fun_induction longLiteralRest? cs generalizing n read with
  | case1 | case6 => cases h
  | case2 cs =>
    obtain rfl := Option.some.inj h
    exact hn.close
  | case3 cs ih =>
    obtain ⟨⟨text, rest⟩, hread, rfl⟩ := Option.map_eq_some_iff.mp h
    exact .item (.feed cs) (ih hread (.inl rfl))
  | case4 cs ih =>
    obtain ⟨⟨text, rest⟩, hread, rfl⟩ := Option.map_eq_some_iff.mp h
    exact .item (.returnFeed cs) (ih hread (.inl rfl))
  | case5 c cs hthree _ _ hplain ih =>
    obtain ⟨⟨text, rest⟩, hread, rfl⟩ := Option.map_eq_some_iff.mp h
    by_cases hquote : c = '\''
    · subst hquote
      obtain ⟨hlt, hmore⟩ := hn.add_one fun cs' => hthree cs' rfl
      exact .quote hlt (ih hread hmore)
    · exact .item (.plain cs hplain hquote) (ih hread (.inl rfl))

theorem string?_sound {text : List Char} (h : string? cs = some (text, rest)) :
    Quoted cs text rest := by
  unfold string? at h
  split at h
  · exact .long (firstBreak_dropNewline _) (longBasicRest?_sound h (.inl rfl))
  · exact .longVerbatim (firstBreak_dropNewline _) (longLiteralRest?_sound h (.inl rfl))
  · exact .line (lineString?_sound h)

/-! ## Keys -/

theorem key?_sound {key : String} (h : key? cs = some (key, rest)) : Key cs key rest := by
  unfold key? at h
  split at h
  case h_1 =>
    obtain ⟨⟨text, rest⟩, hread, heq⟩ := Option.map_eq_some_iff.mp h
    cases heq
    exact .quoted (lineString?_sound hread)
  case h_2 hbare =>
    cases h
    have hkey : Key (cs.takeWhile isBareKey ++ cs.dropWhile isBareKey) _
        (cs.dropWhile isBareKey) := .bare hbare List.all_takeWhile
    rwa [List.takeWhile_append_dropWhile] at hkey

/-- The reader looks for a dot behind blanks. -/
theorem keys?_sound {keys : List String} (h : keys? cs = some (keys, rest)) :
    Padded Keys cs keys rest := by
  fun_induction keys? cs generalizing keys with
  | case1 | case3 => cases h
  | case2 cs key cs₁ hkey cs₂ hdot _ ih =>
    obtain ⟨⟨keys, rest⟩, hread, heq⟩ := Option.map_eq_some_iff.mp h
    cases heq
    have hblanks : Blanks cs₁ ('.' :: cs₂) := hdot ▸ blanks_skipBlanks cs₁
    exact (ih hread).imp fun _ hkeys =>
      .dotted (key?_sound hkey) hblanks (blanks_skipBlanks cs₂) hkeys
  | case4 cs key cs₁ hkey _ =>
    cases h
    exact ⟨cs₁, .last (key?_sound hkey), blanks_skipBlanks cs₁⟩

theorem keyPath?_sound {path : List String} (h : keyPath? cs = some (path, rest)) :
    Padded Path cs path rest := by
  obtain ⟨hkeys, hlength⟩ := Option.filter_eq_some_iff.mp h
  exact (keys?_sound hkeys).imp fun _ hread => ⟨hread, of_decide_eq_true hlength⟩

theorem mark?_eq_some_iff {c : Char} : mark? c cs = some rest ↔ cs = c :: rest := by
  unfold mark?
  split
  · split <;> simp_all
  · simp

/-- A key path, an equals sign and a value: what is skipped around the sign is what `Gap` says, and
the value starts with no blank. -/
theorem assignment?_sound {skip? : List Char → Option (List Char)} (Gap : Filler)
    {value : Reader Literal} {Value : Grammar Literal} {a : List String × Literal}
    (h : assignment? skip? value cs = some (a, rest))
    (hskip : ∀ {cs rest}, skip? cs = some rest → rest ≠ [] → Gap cs rest ∧ Stops isBlank rest)
    (hblanks : ∀ {cs cs' rest}, Blanks cs cs' → Gap cs' rest → Gap cs rest)
    (hempty : ∀ {v rest}, value [] ≠ some (v, rest))
    (hvalue : ∀ {cs v rest}, Stops isBlank cs → value cs = some (v, rest) →
      Padded Value cs v rest) :
    Padded (Assigned Gap Value) cs a rest := by
  simp only [assignment?, Option.bind_eq_bind, Option.bind_eq_some_iff, Prod.exists] at h
  obtain ⟨path, cs₁, hpath, cs₂, hbefore, cs₃, hsign, cs₄, hafter, v, cs₅, hv, heq⟩ := h
  cases heq
  obtain rfl := mark?_eq_some_iff.mp hsign
  obtain ⟨behind, hread, hpadding⟩ := keyPath?_sound hpath
  have hne : cs₄ ≠ [] := by
    rintro rfl
    exact hempty hv
  obtain ⟨hgap, hstops⟩ := hskip hafter hne
  have hgap' := hblanks hpadding (hskip hbefore (List.cons_ne_nil _ _)).1
  exact (hvalue hstops hv).imp fun _ hvalue => .mk hread hgap' hgap hvalue

/-! ## Values -/

/-- A run of characters ends where the text does, with a mark, or before a quotation mark behind a
blank. -/
theorem scalarRun_sound (afterBlank : Bool) (cs : List Char) :
    (scalarRun afterBlank cs).1 ++ (scalarRun afterBlank cs).2 = cs ∧
      (scalarRun afterBlank cs).1.all isScalarChar = true ∧
      ((scalarRun afterBlank cs).1.IsChain fun b c => isBlank b = true → isQuote c = false) ∧
      (afterBlank = true → Stops isQuote (scalarRun afterBlank cs).1) := by
  fun_induction scalarRun afterBlank cs with
  | case1 => exact ⟨rfl, rfl, .nil, nofun⟩
  | case2 afterBlank c cs hc run rest hrun ih =>
    obtain ⟨hscalar, hquote⟩ := Bool.and_eq_true_iff.mp hc
    rw [hrun] at ih
    obtain ⟨rfl, hall, hchain, hstart⟩ := ih
    refine ⟨rfl, by simpa [hscalar] using hall, List.isChain_cons.mpr ⟨?_, hchain⟩, ?_⟩
    · exact fun d hd hblank => hstart hblank d hd
    · rintro rfl d hd
      obtain rfl := Option.some.inj hd
      simpa using hquote
  | case3 => exact ⟨rfl, rfl, .nil, nofun⟩

theorem blanks_of_all {run : List Char} (h : ∀ c ∈ run, isBlank c = true) (rest : List Char) :
    Blanks (run ++ rest) rest := by
  induction run with
  | nil => exact .none rest
  | cons c run ih =>
    exact .blank (h c List.mem_cons_self) (ih fun d hd => h d (List.mem_cons_of_mem c hd))

/-- A run without the blanks at its end is a word. -/
theorem scalar?_sound {v : Literal} (hblank : Stops isBlank cs) (hquote : Stops isQuote cs)
    (h : scalar? cs = some (v, rest)) : Padded Simple cs v rest := by
  obtain ⟨w, hw, heq⟩ := Option.map_eq_some_iff.mp h
  obtain ⟨hcs, hall, hchain, -⟩ := scalarRun_sound false cs
  cases heq
  generalize (scalarRun false cs).1 = run at hw hcs hall hchain
  generalize (scalarRun false cs).2 = rest at hcs
  have hbegins : trimEnd run <+: run := List.rdropWhile_prefix isBlank run
  have hword : IsWord (trimEnd run) := by
    constructor
    · exact List.all_eq_true.mpr fun c hc => List.all_eq_true.mp hall c (hbegins.subset hc)
    · intro c hc
      have hhead : c ∈ cs.head? := by
        obtain ⟨blanks, hrun⟩ := hbegins
        rw [← hcs, ← hrun]
        simp [Option.mem_def.mp hc]
      exact ⟨hblank c hhead, hquote c hhead⟩
    · intro c hc
      obtain ⟨hne, rfl⟩ := List.mem_getLast?_eq_getLast hc
      exact Bool.eq_false_iff.mpr (List.rdropWhile_last_not isBlank run hne)
    · exact hchain.prefix hbegins
  have hblanks : ∀ c ∈ run.rtakeWhile isBlank, isBlank c = true :=
    fun c hc => List.mem_rtakeWhile_imp hc
  have htrim : trimEnd run ++ run.rtakeWhile isBlank = run :=
    List.rdropWhile_append_rtakeWhile
  have hread : Simple (trimEnd run ++ (run.rtakeWhile isBlank ++ rest)) v _ := .word hword hw
  rw [← List.append_assoc, htrim, hcs] at hread
  exact ⟨_, hread, blanks_of_all hblanks rest⟩

/-- Items are read with the space around them. They start with no blank. -/
theorem separated?_sound {α : Type} {item : Reader α} {Item : Grammar α} {close : Char}
    {items : List α} (h : separated? item close cs = some (items, rest))
    (hitem : ∀ {cs a rest}, Stops isBlank cs → item cs = some (a, rest) → Padded Item cs a rest) :
    Separated Item close cs items rest := by
  have hspace : ∀ {cs c rest}, skipSpace? false cs = some (c :: rest) → Space cs (c :: rest) :=
    fun h => (space_of_skipSpace? h (List.cons_ne_nil _ _)).1 rfl
  fun_induction separated? item close cs generalizing items with
  | case1 | case2 | case4 | case5 | case6 | case8 | case10 => cases h
  | case3 cs cs' hfront =>
    cases h
    exact .close (hspace hfront)
  | case7 cs c cs' hfront _ a rest' hread cs₂ _ hcomma ih =>
    obtain ⟨⟨items, rest⟩, hmore, heq⟩ := Option.map_eq_some_iff.mp h
    cases heq
    obtain ⟨after, hitem, hblanks⟩ := hitem (stops_skipSpace? hfront) hread
    exact .more (hspace hfront) hitem (hblanks.space (hspace hcomma)) (ih hmore)
  | case9 cs c cs' hfront _ a rest' hread cs₂ hclose _ =>
    cases h
    obtain ⟨after, hitem, hblanks⟩ := hitem (stops_skipSpace? hfront) hread
    exact .last (hspace hfront) hitem (hblanks.space (hspace hclose))

theorem value?_nil (depth : Nat) : value? depth [] = none := by
  cases depth <;> rfl

/-- What starts with no bracket has no parts. -/
theorem value?_succ_of_simple {depth : Nat} (harray : ∀ cs', cs ≠ '[' :: cs')
    (htable : ∀ cs', cs ≠ '{' :: cs') : value? (depth + 1) cs = value? 0 cs := by
  rw [value?.eq_def (depth + 1)]
  dsimp only
  split
  · exact absurd rfl (harray _)
  · exact absurd rfl (htable _)
  · rfl
  · rfl
  · rename_i hdouble hsingle
    rw [value?.eq_def 0]
    dsimp only
    split
    · exact absurd rfl (hdouble _)
    · exact absurd rfl (hsingle _)
    · rfl

theorem value?_zero_sound {v : Literal} (hblank : Stops isBlank cs)
    (h : value? 0 cs = some (v, rest)) : Padded Simple cs v rest := by
  have hstring : ∀ {cs : List Char}, (string? cs).map
      (fun read => (Literal.string (.ofList read.1), read.2)) = some (v, rest) →
        Padded Simple cs v rest := by
    intro cs h
    obtain ⟨⟨text, rest⟩, hread, heq⟩ := Option.map_eq_some_iff.mp h
    cases heq
    exact .of (.string (string?_sound hread))
  unfold value? at h
  split at h
  case h_1 => exact hstring h
  case h_2 => exact hstring h
  case h_3 hdouble hsingle =>
    refine scalar?_sound hblank (fun c hc => ?_) h
    obtain ⟨cs', rfl⟩ := List.head?_eq_some_iff.mp hc
    have hdouble : c ≠ '"' := fun h => hdouble cs' (by rw [h])
    have hsingle : c ≠ '\'' := fun h => hsingle cs' (by rw [h])
    simp [isQuote, hdouble, hsingle]

theorem value?_sound {depth : Nat} {v : Literal} (hblank : Stops isBlank cs)
    (h : value? depth cs = some (v, rest)) : Padded (Value depth) cs v rest := by
  induction depth generalizing cs v rest with
  | zero => exact value?_zero_sound hblank h
  | succ depth ih =>
    by_cases harray : ∃ cs', cs = '[' :: cs'
    · obtain ⟨cs', rfl⟩ := harray
      obtain ⟨⟨items, rest⟩, hread, heq⟩ := Option.map_eq_some_iff.mp h
      cases heq
      exact .of (.array (separated?_sound hread ih))
    by_cases htable : ∃ cs', cs = '{' :: cs'
    · obtain ⟨cs', rfl⟩ := htable
      obtain ⟨⟨fields, rest⟩, hread, heq⟩ := Option.map_eq_some_iff.mp h
      cases heq
      refine .of (.inlineTable (separated?_sound hread fun _ hfield => ?_))
      refine assignment?_sound Space hfield (fun hskip hrest => ?_) (fun h h' => h.space h') ?_ ih
      · exact ⟨(space_of_skipSpace? hskip hrest).1 rfl, stops_skipSpace? hskip⟩
      · simp [value?_nil]
    rw [value?_succ_of_simple (fun cs' h => harray ⟨cs', h⟩) fun cs' h => htable ⟨cs', h⟩] at h
    exact (value?_zero_sound hblank h).imp fun _ hread => .simple hread

/-! ## Documents -/

theorem heading?_sound {closing : List Char} {path : List String}
    (h : heading? closing cs = some (path, rest)) :
    ∃ cs₁ cs₂, Blanks cs cs₁ ∧ Path cs₁ path cs₂ ∧ Blanks cs₂ (closing ++ rest) := by
  unfold heading? at h
  split at h
  case h_1 => cases h
  case h_2 path rest hread =>
    split at h
    case isFalse => cases h
    case isTrue hclosing =>
      cases h
      obtain ⟨cs₂, hpath, hblanks⟩ := keyPath?_sound hread
      refine ⟨_, cs₂, blanks_skipBlanks cs, hpath, ?_⟩
      have htake := List.take_append_drop closing.length rest
      rw [hclosing] at htake
      rwa [htake]

theorem statement?_sound {s : Statement} (h : statement? cs = some (s, rest)) :
    Padded Stated cs s rest := by
  unfold statement? at h
  split at h
  case h_1 =>
    obtain ⟨⟨path, rest⟩, hread, heq⟩ := Option.map_eq_some_iff.mp h
    cases heq
    obtain ⟨cs₁, cs₂, hbefore, hpath, hbehind⟩ := heading?_sound hread
    exact .of (.element hbefore hpath hbehind)
  case h_2 =>
    obtain ⟨⟨path, rest⟩, hread, heq⟩ := Option.map_eq_some_iff.mp h
    cases heq
    obtain ⟨cs₁, cs₂, hbefore, hpath, hbehind⟩ := heading?_sound hread
    exact .of (.table hbefore hpath hbehind)
  case h_3 =>
    obtain ⟨⟨⟨path, v⟩, rest⟩, hread, heq⟩ := Option.map_eq_some_iff.mp h
    cases heq
    refine (assignment?_sound Blanks hread (fun hskip _ => ?_) (fun h h' => h.trans h') ?_
      value?_sound).imp fun _ hassigned => .assign hassigned
    · obtain rfl := Option.some.inj hskip
      exact ⟨blanks_skipBlanks _, stops_dropWhile isBlank _⟩
    · simp [value?_nil]

theorem lineEnd?_sound (h : lineEnd? cs = some rest) :
    ∃ cs₁ cs₂, Blanks cs cs₁ ∧ Remark cs₁ cs₂ ∧ Ends cs₂ rest := by
  refine ⟨_, _, blanks_skipBlanks cs, remark_skipComment _, ?_⟩
  unfold lineEnd? at h
  split at h
  case h_1 hend =>
    cases h
    exact hend ▸ .document
  case h_2 => exact .line (newline?_eq_some_iff.mp h)

theorem statements?_nil : statements? [] = some [] := by
  rw [statements?]
  exact if_pos rfl

theorem statements?_sound {statements : List Statement} (h : statements? cs = some statements) :
    Rows cs statements := by
  fun_induction statements? cs generalizing statements with
  | case1 cs hblank =>
    cases h
    exact .last (.blank (hblank ▸ blanks_skipBlanks cs) (.none []))
  | case3 | case4 | case5 | case7 => cases h
  | case2 cs _ rest hend _ ih =>
    obtain ⟨cs₁, cs₂, hblanks, hremark, _ | hbreak⟩ := lineEnd?_sound hend
    · rw [statements?_nil] at h
      cases h
      exact .last (.blank hblanks hremark)
    · exact .more (.blank hblanks hremark) hbreak (ih h)
  | case6 cs _ _ s after hread rest hend _ ih =>
    obtain ⟨later, hlater, rfl⟩ := Option.map_eq_some_iff.mp h
    obtain ⟨behind, hstated, hpadding⟩ := statement?_sound hread
    obtain ⟨cs₁, cs₂, hblanks, hremark, _ | hbreak⟩ := lineEnd?_sound hend
    · rw [statements?_nil] at hlater
      cases hlater
      exact .last (.stated (blanks_skipBlanks cs) hstated (hpadding.trans hblanks) hremark)
    · exact .more (.stated (blanks_skipBlanks cs) hstated (hpadding.trans hblanks) hremark) hbreak
        (ih hlater)

/-- **What is read is well-formed.** -/
theorem statementsOf?_sound {document : String} {statements : List Statement}
    (h : statementsOf? document = some statements) : Says document statements := by
  unfold statementsOf? at h
  split at h
  case h_1 cs hmark => exact ⟨cs, .inr hmark, statements?_sound h⟩
  case h_2 => exact ⟨document.toList, .inl rfl, statements?_sound h⟩

end InterfaceCheck.Toml
