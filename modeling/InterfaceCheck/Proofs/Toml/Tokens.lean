import InterfaceCheck.Proofs.Toml.Soundness
/-!
# TOML: well-formed strings and keys are read

What the grammar generates of strings and keys, the reader takes off the text. A grammar leaves open
how far it goes where the reader always goes as far as it can, so each statement says what must not
follow: no blank behind blanks (`Stops`), no quotation mark behind a string, and behind keys and
values, blanks aside, nothing that could belong to them (`Over`). In a well-formed document a mark
or the end of a line follows, and that is enough.

- `skipSpace?_of_space`: space is skipped up to what is no space;
- `string?_complete`: strings of all four forms. In long ones, the grammar reads quotation marks one
  by one and the reader the last three together, which `long_complete` brings into line;
- `keyPath?_complete`: key paths.

That there is always something to read (`Starts`) and less of it afterwards (`length_lt`) is what
the readers of longer parts rely on.
-/

namespace InterfaceCheck.Toml

open Grammar

variable {cs cs' rest : List Char}

/-! ## Runs of characters -/

theorem stops_cons {p : Char → Bool} {c : Char} : Stops p (c :: rest) ↔ p c = false := by
  simp [Stops]

theorem dropWhile_of_stops {p : Char → Bool} (h : Stops p rest) : rest.dropWhile p = rest := by
  cases rest with
  | nil => rfl
  | cons c rest => rw [List.dropWhile_cons_of_neg (by simp [stops_cons.mp h])]

theorem dropWhile_run {p : Char → Bool} {run : List Char} (hrun : run.all p = true)
    (h : Stops p rest) : (run ++ rest).dropWhile p = rest := by
  rw [List.dropWhile_append_of_pos (List.all_eq_true.mp hrun), dropWhile_of_stops h]

theorem takeWhile_run {p : Char → Bool} {run : List Char} (hrun : run.all p = true)
    (h : Stops p rest) : (run ++ rest).takeWhile p = run := by
  rw [List.takeWhile_append_of_pos (List.all_eq_true.mp hrun)]
  cases rest with
  | nil => simp
  | cons c rest => rw [List.takeWhile_cons_of_neg (by simp [stops_cons.mp h]), List.append_nil]

theorem isBlank_iff {c : Char} : isBlank c = true ↔ c = ' ' ∨ c = '\t' := by
  simp [isBlank]

theorem isQuote_iff {c : Char} : isQuote c = true ↔ c = '"' ∨ c = '\'' := by
  simp [isQuote]

/-- What neither blank is, no blank is. -/
theorem isBlank_eq_false {p : Char → Bool} {c : Char} (hc : p c = true) (hspace : p ' ' = false)
    (htab : p '\t' = false) : isBlank c = false := by
  refine Bool.eq_false_iff.mpr fun hblank => ?_
  obtain rfl | rfl := isBlank_iff.mp hblank
  · exact Bool.false_ne_true (hspace.symm.trans hc)
  · exact Bool.false_ne_true (htab.symm.trans hc)

/-- What a comment or a string may hold ends no line. -/
theorem ne_of_isPlain {c : Char} (hc : isPlain c = true) : c ≠ '\n' ∧ c ≠ '\r' := by
  constructor
  all_goals
    rintro rfl
    exact absurd hc (by decide)

/-! ## Between words -/

namespace Grammar

theorem Blanks.skipBlanks_eq (h : Blanks cs rest) : skipBlanks cs = skipBlanks rest := by
  induction h with
  | none => rfl
  | blank hc _ ih => exact (List.dropWhile_cons_of_pos hc).trans ih

/-- What does not go past a blank does not go past blanks. -/
theorem Blanks.stops {p : Char → Bool} (h : Blanks cs rest) (hspace : p ' ' = false)
    (htab : p '\t' = false) (hrest : Stops p rest) : Stops p cs := by
  cases h with
  | none => exact hrest
  | blank hc _ =>
    obtain rfl | rfl := isBlank_iff.mp hc
    · exact stops_cons.mpr hspace
    · exact stops_cons.mpr htab

theorem LineBreak.stops {p : Char → Bool} (h : LineBreak cs rest) (hfeed : p '\n' = false)
    (hreturn : p '\r' = false) : Stops p cs := by
  cases h with
  | feed => exact stops_cons.mpr hfeed
  | returnFeed => exact stops_cons.mpr hreturn

theorem Ends.stops {p : Char → Bool} (h : Ends cs rest) (hfeed : p '\n' = false)
    (hreturn : p '\r' = false) : Stops p cs := by
  cases h with
  | document => exact nofun
  | line h => exact h.stops hfeed hreturn

end Grammar

theorem skipBlanks_of_stops (h : Stops isBlank rest) : skipBlanks rest = rest :=
  dropWhile_of_stops h

/-- A comment goes up to the end of its line. -/
theorem skipComment_of_ends {more : List Char} (h : Remark cs rest) (hend : Ends rest more) :
    skipComment cs = rest := by
  cases h with
  | none =>
    cases hend with
    | document => rfl
    | line hbreak => cases hbreak <;> rfl
  | comment htext => exact dropWhile_run htext (hend.stops (by decide) (by decide))

theorem lineEnd?_of_ends {cs₁ cs₂ more : List Char} (hblanks : Blanks cs cs₁)
    (hremark : Remark cs₁ cs₂) (hend : Ends cs₂ more) : lineEnd? cs = some more := by
  have hstops : Stops isBlank cs₁ := by
    cases hremark with
    | none => exact hend.stops (by decide) (by decide)
    | comment => exact stops_cons.mpr (by decide)
  unfold lineEnd?
  rw [hblanks.skipBlanks_eq, skipBlanks_of_stops hstops, skipComment_of_ends hremark hend]
  cases hend with
  | document => rfl
  | line hbreak => cases hbreak <;> rfl

theorem skipSpace?_comment {text : List Char} (htext : text.all isPlain = true)
    (hbreak : LineBreak cs rest) : skipSpace? true (text ++ cs) = skipSpace? false rest := by
  induction text with
  | nil => cases hbreak <;> simp [skipSpace?]
  | cons c text ih =>
    obtain ⟨hc, htext⟩ := Bool.and_eq_true_iff.mp htext
    obtain ⟨hfeed, hreturn⟩ := ne_of_isPlain hc
    rw [List.cons_append, skipSpace?, if_pos rfl, if_pos hc, ih htext]
    · exact hfeed
    · exact fun _ h => absurd h hreturn

/-- Blanks, line ends and the marks of comments. -/
def startsSpace (c : Char) : Bool := isBlank c || ['\n', '\r', '#'].contains c

/-- Space is skipped up to a character that is none of its own. -/
theorem skipSpace?_of_space {c : Char} (h : Space cs (c :: rest)) (hc : startsSpace c = false) :
    skipSpace? false cs = some (c :: rest) := by
  generalize hfollows : c :: rest = follows at h
  induction h with
  | none =>
    subst hfollows
    obtain ⟨hblank, hmark⟩ := Bool.or_eq_false_iff.mp hc
    obtain ⟨hfeed, hreturn, hcomment⟩ : c ≠ '\n' ∧ c ≠ '\r' ∧ c ≠ '#' := by simpa using hmark
    rw [skipSpace?, if_neg Bool.false_ne_true, if_neg hcomment, if_neg (by simp [hblank])]
    · exact hfeed
    · exact fun _ h => absurd h hreturn
  | blank hblank _ ih =>
    rw [← ih hfollows]
    obtain rfl | rfl := isBlank_iff.mp hblank <;> simp [skipSpace?, isBlank]
  | line hbreak _ ih =>
    rw [← ih hfollows]
    cases hbreak <;> simp [skipSpace?]
  | comment htext hbreak _ ih =>
    rw [← ih hfollows, ← skipSpace?_comment htext hbreak, skipSpace?] <;> simp

theorem skipSpace?_skipBlanks (cs : List Char) :
    skipSpace? false (skipBlanks cs) = skipSpace? false cs := by
  induction cs with
  | nil => rfl
  | cons c cs ih =>
    by_cases hc : isBlank c = true
    · unfold skipBlanks at ih ⊢
      rw [List.dropWhile_cons_of_pos hc, ih]
      obtain rfl | rfl := isBlank_iff.mp hc <;> simp [skipSpace?, isBlank]
    · rw [skipBlanks, List.dropWhile_cons_of_neg hc]

/-! ## Strings -/

namespace Grammar

theorem Escape.length_lt {c : Char} (h : Escape cs c rest) : rest.length < cs.length := by
  cases h with
  | letter => exact Nat.lt_succ_self _
  | code =>
    rw [List.length_cons, List.length_append]
    omega

end Grammar

theorem coded?_append {count : Nat} {digits : List Char} {values : List Nat}
    (hlength : digits.length = count) (hvalues : digits.mapM hexDigit? = some values)
    (hvalid : (values.foldl (fun n d => 16 * n + d) 0).isValidChar) :
    coded? count (digits ++ rest) =
      some (.ofNat (values.foldl (fun n d => 16 * n + d) 0), rest) := by
  subst hlength
  simp [coded?, hvalues, hvalid]

theorem escape?_eq_some_iff {c : Char} : escape? cs = some (c, rest) ↔ Escape cs c rest := by
  refine ⟨escape?_sound, fun h => ?_⟩
  cases h with
  | letter h =>
    simp only [escapes, List.mem_cons, Prod.mk.injEq, List.not_mem_nil, or_false] at h
    rcases h with ⟨rfl, rfl⟩ | ⟨rfl, rfl⟩ | ⟨rfl, rfl⟩ | ⟨rfl, rfl⟩ | ⟨rfl, rfl⟩ | ⟨rfl, rfl⟩ |
      ⟨rfl, rfl⟩ | ⟨rfl, rfl⟩ <;> rfl
  | code hmark hlength hvalues hvalid =>
    simp only [codeMarks, List.mem_cons, Prod.mk.injEq, List.not_mem_nil, or_false] at hmark
    rcases hmark with ⟨rfl, rfl⟩ | ⟨rfl, rfl⟩ | ⟨rfl, rfl⟩ <;>
      exact coded?_append hlength hvalues hvalid

theorem basicRest?_complete {text : List Char} (h : Basic cs text rest) :
    basicRest? cs = some (text, rest) := by
  induction h with
  | close => rw [basicRest?]
  | plain hplain hquote hbackslash _ ih =>
    rw [basicRest?, if_pos hplain, ih]
    · rfl
    · exact hquote
    · exact hbackslash
  | escape hescape _ ih =>
    rw [basicRest?, escape?_eq_some_iff.mpr hescape]
    dsimp only
    rw [dif_pos (Nat.lt_succ_of_lt hescape.length_lt), ih]
    rfl

theorem literalRest?_complete {text : List Char} (h : Verbatim cs text rest) :
    literalRest? cs = some (text, rest) := by
  induction h with
  | close => rw [literalRest?]
  | plain hplain hquote _ ih =>
    rw [literalRest?, if_pos hplain, ih]
    · rfl
    · exact hquote

theorem lineString?_complete {text : List Char} (h : LineString cs text rest) :
    lineString? cs = some (text, rest) := by
  cases h with
  | basic h => exact basicRest?_complete h
  | verbatim h => exact literalRest?_complete h

/-! ### Long strings -/

namespace Grammar

theorem Blanks.length_le (h : Blanks cs rest) : rest.length ≤ cs.length := by
  induction h with
  | none => exact Nat.le_refl _
  | blank _ _ ih => exact Nat.le_succ_of_le ih

theorem LineBreak.length_lt (h : LineBreak cs rest) : rest.length < cs.length := by
  cases h with
  | feed => exact Nat.lt_succ_self _
  | returnFeed => exact Nat.lt_add_of_pos_right Nat.two_pos

theorem Hidden.length_le (h : Hidden cs rest) : rest.length ≤ cs.length := by
  induction h with
  | none => exact Nat.le_refl _
  | blank _ _ ih => exact Nat.le_succ_of_le ih
  | line hbreak _ ih => exact Nat.le_trans ih hbreak.length_lt.le

/-- There is but one way to hide all blanks and line ends. -/
theorem Hidden.skipLines_eq (h : Hidden cs rest) : skipLines cs = rest := by
  induction h with
  | @none rest hblank hbreak =>
    match rest with
    | [] => rfl
    | c :: rest =>
      have hfeed : c ≠ '\n' := by
        rintro rfl
        exact hbreak _ (.feed rest)
      have hreturn : ∀ rest', c = '\r' → rest ≠ '\n' :: rest' := by
        rintro rest' rfl rfl
        exact hbreak _ (.returnFeed rest')
      rw [skipLines, if_neg (by simp [stops_cons.mp hblank])]
      · exact hfeed
      · exact hreturn
  | blank hblank _ ih =>
    rw [← ih]
    obtain rfl | rfl := isBlank_iff.mp hblank <;> simp [skipLines, isBlank]
  | line hbreak _ ih =>
    rw [← ih]
    cases hbreak <;> rfl

theorem FirstBreak.dropNewline_eq (h : FirstBreak cs rest) : dropNewline cs = rest := by
  unfold dropNewline
  cases h with
  | line hbreak => rw [newline?_eq_some_iff.mpr hbreak, Option.getD_some]
  | none hbreak =>
    cases hline : newline? cs with
    | none => rfl
    | some rest' => exact absurd (newline?_eq_some_iff.mp hline) (hbreak rest')

end Grammar

/-- The text with more characters read before it. -/
def behind (chars : List Char) (read : Option (List Char × List Char)) :
    Option (List Char × List Char) :=
  read.map fun (text, rest) => (chars ++ text, rest)

theorem extraQuotes_of_stops {quote : Char} {n : Nat} (hn : n ≤ 2)
    (h : Stops (· == quote) rest) :
    extraQuotes quote (List.replicate n quote ++ rest) = (List.replicate n quote, rest) := by
  have hrest : ∀ c cs, rest = c :: cs → c ≠ quote := by
    rintro c cs rfl
    simpa using stops_cons.mp h
  match n, rest with
  | 0, [] | 1, [] | 2, [] => simp [extraQuotes]
  | 0, [c] => simp [extraQuotes, hrest c [] rfl]
  | 0, c :: d :: cs => simp [extraQuotes, hrest c _ rfl]
  | 1, c :: cs => simp [extraQuotes, hrest c cs rfl]
  | 2, c :: cs => simp [extraQuotes]

section Marks

variable {quote : Char} {Item : Grammar (List Char)} {reader : Reader (List Char)} {n : Nat}
  {text : List Char}

/-- Two quotation marks at most, and none behind them, are part of the text. -/
theorem reader_marks (hquote : ∀ cs, (∀ cs', cs ≠ quote :: quote :: cs') →
      reader (quote :: cs) = behind [quote] (reader cs))
    (hn : n ≤ 2) (hcs : Stops (· == quote) cs) (hread : reader cs = some (text, rest)) :
    reader (List.replicate n quote ++ cs) = some (List.replicate n quote ++ text, rest) := by
  have hfront : ∀ cs', cs ≠ quote :: cs' := by
    rintro cs' rfl
    simpa using stops_cons.mp hcs
  have hone : reader (quote :: cs) = some (quote :: text, rest) := by
    rw [hquote cs fun cs' => hfront _, hread]
    rfl
  obtain rfl | rfl | rfl : n = 0 ∨ n = 1 ∨ n = 2 := by omega
  · exact hread
  · exact hone
  · show reader (quote :: quote :: cs) = _
    rw [hquote (quote :: cs) fun cs' h => hfront cs' (List.cons.inj h).2, hone]
    rfl

/-- The grammar reads quotation marks one by one, and the reader the last three together. So those
that the grammar has read already are put back for the reader. -/
theorem long_complete
    (hclose : ∀ cs, reader (quote :: quote :: quote :: cs) = some (extraQuotes quote cs))
    (hquote : ∀ cs, (∀ cs', cs ≠ quote :: quote :: cs') →
      reader (quote :: cs) = behind [quote] (reader cs))
    (hitem : ∀ {cs text rest}, Item cs text rest → reader cs = behind text (reader rest))
    (hfront : ∀ {cs text rest}, Item cs text rest → Stops (· == quote) cs)
    (h : Long quote Item n cs text rest) (hn : n ≤ 2) (hrest : Stops (· == quote) rest) :
    reader (List.replicate n quote ++ cs) = some (List.replicate n quote ++ text, rest) := by
  induction h with
  | close n rest =>
    have hmarks : List.replicate n quote ++ quote :: quote :: quote :: rest =
        quote :: quote :: quote :: (List.replicate n quote ++ rest) := by
      obtain rfl | rfl | rfl : n = 0 ∨ n = 1 ∨ n = 2 := by omega
      all_goals rfl
    rw [hmarks, hclose, extraQuotes_of_stops hn hrest, List.append_nil]
  | @quote n cs text rest hlt _ ih =>
    have hmarks : ∀ cs, List.replicate n quote ++ quote :: cs =
        List.replicate (n + 1) quote ++ cs := fun cs => by
      rw [List.replicate_succ', List.append_assoc, List.singleton_append]
    rw [hmarks, hmarks, ih hlt hrest]
  | item hread _ ih =>
    refine reader_marks hquote hn (hfront hread) ?_
    have hmore := ih (Nat.zero_le 2) hrest
    rw [hitem hread]
    exact congrArg (behind _) hmore

end Marks

namespace Grammar

theorem LongItem.front {text : List Char} (h : LongItem cs text rest) :
    Stops (· == '"') cs := by
  cases h with
  | plain _ _ hquote _ => exact stops_cons.mpr (by simpa using hquote)
  | _ => exact stops_cons.mpr (by decide)

theorem LongVerbatimItem.front {text : List Char} (h : LongVerbatimItem cs text rest) :
    Stops (· == '\'') cs := by
  cases h with
  | plain _ _ hquote => exact stops_cons.mpr (by simpa using hquote)
  | _ => exact stops_cons.mpr (by decide)

/-- What may stand behind a backslash is no end of a line. -/
theorem Escape.lineContinuation?_eq {c : Char} (h : Escape cs c rest) :
    lineContinuation? cs = none := by
  have hmarks : (escapes.map (·.1) ++ codeMarks.map (·.1)).all
      (fun c => !isBlank c && decide (c ≠ '\n') && decide (c ≠ '\r')) = true := by
    decide
  obtain ⟨c, cs', rfl, hc⟩ :
      ∃ c cs', cs = c :: cs' ∧ c ∈ escapes.map (·.1) ++ codeMarks.map (·.1) := by
    cases h with
    | letter h => exact ⟨_, _, rfl, List.mem_append_left _ (List.mem_map_of_mem h)⟩
    | code h => exact ⟨_, _, rfl, List.mem_append_right _ (List.mem_map_of_mem h)⟩
  have hmark := List.all_eq_true.mp hmarks c hc
  simp only [Bool.and_eq_true, decide_eq_true_eq, Bool.not_eq_true'] at hmark
  obtain ⟨⟨hblank, hfeed⟩, hreturn⟩ := hmark
  rw [lineContinuation?, skipBlanks_of_stops (stops_cons.mpr hblank), newline?]
  · rfl
  · exact fun _ h => hfeed (List.cons.inj h).1
  · exact fun _ h => hreturn (List.cons.inj h).1

end Grammar

theorem longBasicRest?_item {text : List Char} (h : LongItem cs text rest) :
    longBasicRest? cs = behind text (longBasicRest? rest) := by
  cases h with
  | @plain c rest hplain hquote hbackslash =>
    obtain ⟨hfeed, hreturn⟩ := ne_of_isPlain hplain
    rw [longBasicRest?, if_pos hplain]
    · rfl
    · exact fun _ h => absurd h hquote
    · exact hbackslash
    · exact hfeed
    · exact fun _ h => absurd h hreturn
  | feed =>
    rw [longBasicRest?]
    rfl
  | returnFeed =>
    rw [longBasicRest?]
    rfl
  | escape hescape =>
    rw [longBasicRest?, hescape.lineContinuation?_eq, escape?_eq_some_iff.mpr hescape]
    dsimp only
    rw [dif_pos (Nat.lt_succ_of_lt hescape.length_lt)]
    rfl
  | @hidden cs cs₁ cs₂ _ hblanks hbreak hhidden =>
    have hline : lineContinuation? cs = some rest := by
      have hstops : Stops isBlank cs₁ := hbreak.stops (by decide) (by decide)
      rw [lineContinuation?, hblanks.skipBlanks_eq, skipBlanks_of_stops hstops,
        newline?_eq_some_iff.mpr hbreak, Option.map_some, hhidden.skipLines_eq]
    have hlength : rest.length < cs.length + 1 := by
      have := hblanks.length_le
      have := hbreak.length_lt
      have := hhidden.length_le
      omega
    rw [longBasicRest?, hline]
    dsimp only
    rw [dif_pos hlength]
    cases longBasicRest? rest <;> rfl

theorem longBasicRest?_complete {text : List Char} (h : Long '"' LongItem 0 cs text rest)
    (hrest : Stops (· == '"') rest) : longBasicRest? cs = some (text, rest) := by
  have hquote : ∀ cs, (∀ cs', cs ≠ '"' :: '"' :: cs') →
      longBasicRest? ('"' :: cs) = behind ['"'] (longBasicRest? cs) := by
    intro cs hcs
    rw [longBasicRest?]
    · rfl
    · exact fun cs' _ h => hcs cs' h
    · decide
    · decide
    · exact fun _ h => absurd h (by decide)
  exact long_complete (fun cs => by rw [longBasicRest?]) hquote longBasicRest?_item
    LongItem.front h (Nat.zero_le 2) hrest

theorem longLiteralRest?_item {text : List Char} (h : LongVerbatimItem cs text rest) :
    longLiteralRest? cs = behind text (longLiteralRest? rest) := by
  cases h with
  | @plain c rest hplain hquote =>
    obtain ⟨hfeed, hreturn⟩ := ne_of_isPlain hplain
    rw [longLiteralRest?, if_pos hplain]
    · rfl
    · exact fun _ h => absurd h hquote
    · exact hfeed
    · exact fun _ h => absurd h hreturn
  | feed => rfl
  | returnFeed => rfl

theorem longLiteralRest?_complete {text : List Char}
    (h : Long '\'' LongVerbatimItem 0 cs text rest) (hrest : Stops (· == '\'') rest) :
    longLiteralRest? cs = some (text, rest) := by
  have hquote : ∀ cs, (∀ cs', cs ≠ '\'' :: '\'' :: cs') →
      longLiteralRest? ('\'' :: cs) = behind ['\''] (longLiteralRest? cs) := by
    intro cs hcs
    rw [longLiteralRest?]
    · rfl
    · exact fun cs' _ h => hcs cs' h
    · decide
    · exact fun _ h => absurd h (by decide)
  exact long_complete (fun cs => by rw [longLiteralRest?]) hquote longLiteralRest?_item
    LongVerbatimItem.front h (Nat.zero_le 2) hrest

/-! ## What may follow -/

/-- Whatever stands here, behind blanks, neither goes on with a key nor with a value. -/
def Over (rest : List Char) : Prop := Stops isScalarChar (skipBlanks rest)

theorem Over.of_stops (h : Stops isScalarChar rest) : Over rest := by
  have hblank : Stops isBlank rest := by
    intro c hc
    have hmark : (!isScalarChar c) = true := by rw [h c hc]; rfl
    exact isBlank_eq_false (p := (!isScalarChar ·)) hmark (by decide) (by decide)
  rw [Over, skipBlanks_of_stops hblank]
  exact h

theorem Over.cons {c : Char} (h : isScalarChar c = false) : Over (c :: rest) :=
  .of_stops (stops_cons.mpr h)

/-- Characters that keys and values go on with do not follow immediately. -/
theorem Over.stops {p : Char → Bool} (h : Over rest) (hspace : p ' ' = false)
    (htab : p '\t' = false) (hp : ∀ c, p c = true → isScalarChar c = true) : Stops p rest := by
  refine (blanks_skipBlanks rest).stops hspace htab fun c hc => Bool.eq_false_iff.mpr fun hpc => ?_
  exact Bool.false_ne_true ((h c hc).symm.trans (hp c hpc))

namespace Grammar

theorem Blanks.isOver (h : Blanks cs rest) (hrest : Over rest) : Over cs := by
  rw [Over, h.skipBlanks_eq]
  exact hrest

theorem Ends.isOver {more : List Char} (h : Ends rest more) : Over rest :=
  .of_stops (h.stops (by decide) (by decide))

theorem Remark.isOver (h : Remark cs rest) (hrest : Over rest) : Over cs := by
  cases h with
  | none => exact hrest
  | comment => exact .cons (by decide)

theorem Space.isOver (h : Space cs rest) (hrest : Over rest) : Over cs := by
  induction h with
  | none => exact hrest
  | blank hblank _ ih => exact (Blanks.blank hblank (.none _)).isOver (ih hrest)
  | line hbreak _ _ => exact .of_stops (hbreak.stops (by decide) (by decide))
  | comment => exact .cons (by decide)

end Grammar

/-- No character of `l` has the property, and `c` has it. -/
theorem not_contains_of_all {p : Char → Bool} {c : Char} (hc : p c = true) {l : List Char}
    (hl : l.all (!p ·) = true) : l.contains c = false := by
  refine Bool.eq_false_iff.mpr fun hmem => ?_
  have hnot := List.all_eq_true.mp hl c (List.contains_iff_mem.mp hmem)
  simp [hc] at hnot

theorem isScalarChar_of_bare (c : Char) (h : isBareKey c = true) : isScalarChar c = true := by
  rw [isScalarChar, not_contains_of_all h (by decide)]
  rfl

theorem isScalarChar_of_quote (c : Char) (h : isQuote c = true) : isScalarChar c = true := by
  rw [isScalarChar, not_contains_of_all h (by decide)]
  rfl

theorem Over.stops_quote {quote : Char} (h : Over rest) (hquote : isQuote quote = true) :
    Stops (· == quote) rest := by
  have hblank : ∀ {c}, isQuote c = false → (c == quote) = false := by
    intro c hc
    refine beq_eq_false_iff_ne.mpr ?_
    rintro rfl
    exact Bool.false_ne_true (hc.symm.trans hquote)
  refine h.stops (hblank (by decide)) (hblank (by decide)) fun c hc => ?_
  exact isScalarChar_of_quote c (eq_of_beq hc ▸ hquote)

theorem string?_complete {text : List Char} (h : Quoted cs text rest) (hrest : Over rest) :
    string? cs = some (text, rest) := by
  cases h with
  | line h =>
    -- three quotation marks would be an empty string and a mark behind it
    have hthree : ∀ {quote cs'}, isQuote quote = true → cs ≠ quote :: quote :: quote :: cs' := by
      rintro quote cs' hquote rfl
      have hmark := hrest.stops_quote hquote
      cases h with
      | basic h =>
        cases h with
        | close => simpa using stops_cons.mp hmark
        | plain _ hne _ _ => exact absurd rfl hne
      | verbatim h =>
        cases h with
        | close => simpa using stops_cons.mp hmark
        | plain _ hne _ => exact absurd rfl hne
    rw [string?, lineString?_complete h]
    · exact fun cs' => hthree rfl
    · exact fun cs' => hthree rfl
  | long hbreak h =>
    rw [string?, hbreak.dropNewline_eq]
    exact longBasicRest?_complete h (hrest.stops_quote rfl)
  | longVerbatim hbreak h =>
    rw [string?, hbreak.dropNewline_eq]
    exact longLiteralRest?_complete h (hrest.stops_quote rfl)

/-! ## How it starts, and how much is left -/

/-- There is a character in front, and it has the property `p`. -/
def Starts (p : Char → Bool) (cs : List Char) : Prop := ∃ c cs', cs = c :: cs' ∧ p c = true

theorem Starts.stops {p q : Char → Bool} (h : Starts p cs) (hpq : ∀ c, p c = true → q c = false) :
    Stops q cs := by
  obtain ⟨c, cs', rfl, hc⟩ := h
  exact stops_cons.mpr (hpq c hc)

theorem Starts.imp {p q : Char → Bool} (h : Starts p cs) (hpq : ∀ c, p c = true → q c = true) :
    Starts q cs := by
  obtain ⟨c, cs', rfl, hc⟩ := h
  exact ⟨c, cs', rfl, hpq c hc⟩

theorem Starts.ne_cons {p : Char → Bool} (h : Starts p cs) {c : Char} (hc : p c = false) :
    cs ≠ c :: cs' := by
  obtain ⟨d, ds, rfl, hd⟩ := h
  rintro heq
  rw [(List.cons.inj heq).1] at hd
  exact Bool.false_ne_true (hc.symm.trans hd)

/-- What a key can start with. -/
def isKeyStart (c : Char) : Bool := isBareKey c || isQuote c

/-- What a key or a value can start with. -/
def isStart (c : Char) : Bool := isScalarChar c && !isBlank c || c == '[' || c == '{'

theorem isStart_of_keyStart (c : Char) (h : isKeyStart c = true) : isStart c = true := by
  have hscalar : isScalarChar c = true := by
    obtain h | h := Bool.or_eq_true_iff.mp h
    · exact isScalarChar_of_bare c h
    · exact isScalarChar_of_quote c h
  have hblank : isBlank c = false := isBlank_eq_false h (by decide) (by decide)
  simp [isStart, hscalar, hblank]

theorem isBlank_of_start (c : Char) (h : isStart c = true) : isBlank c = false :=
  isBlank_eq_false h (by decide) (by decide)

theorem startsSpace_of_start (c : Char) (h : isStart c = true) : startsSpace c = false := by
  rw [startsSpace, isBlank_of_start c h, not_contains_of_all h (by decide)]
  rfl

namespace Grammar

theorem LineString.starts {text : List Char} (h : LineString cs text rest) : Starts isQuote cs := by
  cases h with
  | basic => exact ⟨_, _, rfl, rfl⟩
  | verbatim => exact ⟨_, _, rfl, rfl⟩

theorem Basic.length_lt {text : List Char} (h : Basic cs text rest) : rest.length < cs.length := by
  induction h with
  | close => exact Nat.lt_succ_self _
  | plain _ _ _ _ ih => exact Nat.lt_succ_of_lt ih
  | escape hescape _ ih => exact Nat.lt_succ_of_lt (ih.trans hescape.length_lt)

theorem Verbatim.length_lt {text : List Char} (h : Verbatim cs text rest) :
    rest.length < cs.length := by
  induction h with
  | close => exact Nat.lt_succ_self _
  | plain _ _ _ ih => exact Nat.lt_succ_of_lt ih

theorem LineString.length_lt {text : List Char} (h : LineString cs text rest) :
    rest.length < cs.length := by
  cases h with
  | basic h => exact Nat.lt_succ_of_lt h.length_lt
  | verbatim h => exact Nat.lt_succ_of_lt h.length_lt

theorem LongItem.length_lt {text : List Char} (h : LongItem cs text rest) :
    rest.length < cs.length := by
  cases h with
  | plain | feed => exact Nat.lt_succ_self _
  | returnFeed => exact Nat.lt_add_of_pos_right Nat.two_pos
  | escape hescape => exact Nat.lt_succ_of_lt hescape.length_lt
  | hidden hblanks hbreak hhidden =>
    have := hhidden.length_le.trans_lt (hbreak.length_lt.trans_le hblanks.length_le)
    exact Nat.lt_succ_of_lt this

theorem LongVerbatimItem.length_lt {text : List Char} (h : LongVerbatimItem cs text rest) :
    rest.length < cs.length := by
  cases h with
  | plain | feed => exact Nat.lt_succ_self _
  | returnFeed => exact Nat.lt_add_of_pos_right Nat.two_pos

theorem Long.length_lt {quote : Char} {Item : Grammar (List Char)} {n : Nat} {text : List Char}
    (hitem : ∀ {cs text rest}, Item cs text rest → rest.length < cs.length)
    (h : Long quote Item n cs text rest) : rest.length < cs.length := by
  induction h with
  | close => exact Nat.lt_add_of_pos_right (Nat.succ_pos 2)
  | quote _ _ ih => exact Nat.lt_succ_of_lt ih
  | item hread _ ih => exact ih.trans (hitem hread)

theorem FirstBreak.length_le (h : FirstBreak cs rest) : rest.length ≤ cs.length := by
  cases h with
  | line hbreak => exact hbreak.length_lt.le
  | none => exact Nat.le_refl _

theorem Quoted.length_lt {text : List Char} (h : Quoted cs text rest) :
    rest.length < cs.length := by
  cases h with
  | line h => exact h.length_lt
  | long hbreak h =>
    have := (h.length_lt LongItem.length_lt).trans_le hbreak.length_le
    exact this.trans (Nat.lt_add_of_pos_right (Nat.succ_pos 2))
  | longVerbatim hbreak h =>
    have := (h.length_lt LongVerbatimItem.length_lt).trans_le hbreak.length_le
    exact this.trans (Nat.lt_add_of_pos_right (Nat.succ_pos 2))

theorem Key.length_lt {key : String} (h : Key cs key rest) : rest.length < cs.length := by
  cases h with
  | bare hne =>
    rw [List.length_append]
    exact Nat.lt_add_of_pos_left (List.length_pos_iff.mpr hne)
  | quoted h => exact h.length_lt

theorem Key.starts {key : String} (h : Key cs key rest) : Starts isKeyStart cs := by
  cases h with
  | @bare run _ hne hrun =>
    obtain ⟨c, run, rfl⟩ := List.exists_cons_of_ne_nil hne
    have hc : isBareKey c = true := List.all_eq_true.mp hrun c List.mem_cons_self
    exact ⟨c, run ++ rest, rfl, by simp [isKeyStart, hc]⟩
  | quoted h => exact h.starts.imp fun c hc => by simp [isKeyStart, hc]

theorem Keys.starts {keys : List String} (h : Keys cs keys rest) : Starts isKeyStart cs := by
  cases h with
  | last h => exact h.starts
  | dotted h => exact h.starts

theorem Space.length_le (h : Space cs rest) : rest.length ≤ cs.length := by
  induction h with
  | none => exact Nat.le_refl _
  | blank _ _ ih => exact Nat.le_succ_of_le ih
  | line hbreak _ ih => exact ih.trans hbreak.length_lt.le
  | comment _ hbreak _ ih =>
    have := ih.trans hbreak.length_lt.le
    rw [List.length_cons, List.length_append]
    omega

theorem Keys.length_lt {keys : List String} (h : Keys cs keys rest) : rest.length < cs.length := by
  induction h with
  | last h => exact h.length_lt
  | dotted hkey hdot hblanks _ ih =>
    have := hkey.length_lt
    have := hdot.length_le
    have := hblanks.length_le
    simp only [List.length_cons] at *
    omega

end Grammar

/-- Keys and values start with no blank. -/
theorem Starts.stops_blank (h : Starts isStart cs) : Stops isBlank cs := h.stops isBlank_of_start

/-! ## Keys -/

theorem key?_complete {key : String} (h : Key cs key rest) (hrest : Stops isBareKey rest) :
    key? cs = some (key, rest) := by
  cases h with
  | @bare run _ hne hrun =>
    rw [key?, takeWhile_run hrun hrest, dropWhile_run hrun hrest]
    split
    · contradiction
    · rfl
  | quoted h =>
    have hbare : cs.takeWhile isBareKey = [] := by
      obtain ⟨c, cs', rfl, hc⟩ := h.starts
      refine List.takeWhile_cons_of_neg fun hbare => ?_
      obtain rfl | rfl := isQuote_iff.mp hc <;> exact absurd hbare (by decide)
    rw [key?, hbare]
    dsimp only
    rw [lineString?_complete h]
    rfl

theorem Over.stops_bare (h : Over rest) : Stops isBareKey rest :=
  h.stops (by decide) (by decide) isScalarChar_of_bare

theorem keys?_complete {keys : List String} (h : Keys cs keys rest) (hrest : Over rest) :
    keys? cs = some (keys, skipBlanks rest) := by
  induction h with
  | last hkey =>
    rw [keys?, key?_complete hkey hrest.stops_bare]
    dsimp only
    split
    · rename_i hdot
      rw [Over, hdot] at hrest
      exact absurd (stops_cons.mp hrest) (by decide)
    · rfl
  | @dotted key keys cs cs₁ cs₂ cs₃ rest hkey hdot hblanks hkeys ih =>
    have hstop : Stops isBareKey cs₁ :=
      hdot.stops (by decide) (by decide) (stops_cons.mpr (by decide))
    have hskip : skipBlanks cs₁ = '.' :: cs₂ := by
      rw [hdot.skipBlanks_eq, skipBlanks_of_stops (stops_cons.mpr (by decide))]
    have hskip' : skipBlanks cs₂ = cs₃ := by
      have hstart := (hkeys.starts.imp isStart_of_keyStart).stops_blank
      rw [hblanks.skipBlanks_eq, skipBlanks_of_stops hstart]
    have hlength : cs₃.length < cs.length := by
      have := hkey.length_lt
      have := hdot.length_le
      have := hblanks.length_le
      simp only [List.length_cons] at *
      omega
    rw [keys?, key?_complete hkey hstop]
    simp only [hskip]
    rw [hskip', dif_pos hlength, ih hrest]
    rfl

theorem keyPath?_complete {path : List String} (h : Path cs path rest) (hrest : Over rest) :
    keyPath? cs = some (path, skipBlanks rest) := by
  rw [keyPath?, keys?_complete h.1 hrest]
  exact Option.filter_some_pos (decide_eq_true h.2)

end InterfaceCheck.Toml
