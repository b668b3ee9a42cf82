import InterfaceCheck.Proofs.Toml.Tokens
/-!
# TOML: the reader and the grammar

Every value, statement and document that the grammar generates is read for what it stands for. With
that, the reader reads just the well-formed documents (`statementsOf?_eq_some_iff`,
`parse?_eq_some_iff`); and since it is a function, no document can be understood in two ways.

A reader is complete for a grammar (`Complete`) if it gives what the grammar generates, up to blanks
behind it, wherever nothing follows that could belong to it. Lists, assignments and brackets make
complete readers of complete readers, and so `complete_value` is an induction on the depth.
-/

namespace InterfaceCheck.Toml

open Grammar

variable {cs cs' rest : List Char}

/-! ## Values -/

/-- The reader gives `a`, and blanks in front of `rest` may be gone with it. -/
def Gives {α : Type} (reader : Reader α) (cs : List Char) (a : α) (rest : List Char) : Prop :=
  ∃ rest', reader cs = some (a, rest') ∧ skipBlanks rest' = skipBlanks rest

/-- The reader gives whatever the grammar generates, where nothing follows that goes on with it.
Something is there, and it starts like a key or a value. -/
structure Complete {α : Type} (reader : Reader α) (G : Grammar α) : Prop where
  starts {cs : List Char} {a : α} {rest : List Char} : G cs a rest → Starts isStart cs
  length_lt {cs : List Char} {a : α} {rest : List Char} : G cs a rest → rest.length < cs.length
  gives {cs : List Char} {a : α} {rest : List Char} :
    G cs a rest → Over rest → Gives reader cs a rest

/-- What is skipped is what the grammar lets count for nothing. -/
structure Skips (skip? : List Char → Option (List Char)) (Gap : Filler) : Prop where
  length_le {cs rest : List Char} : Gap cs rest → rest.length ≤ cs.length
  isOver {cs rest : List Char} : Gap cs rest → Over rest → Over cs
  skipBlanks (cs : List Char) : skip? (skipBlanks cs) = skip? cs
  skip {c : Char} {cs rest : List Char} : Gap cs (c :: rest) → startsSpace c = false →
    skip? cs = some (c :: rest)

theorem skips_blanks : Skips (some ∘ skipBlanks) Blanks where
  length_le := Blanks.length_le
  isOver := Blanks.isOver
  skipBlanks cs := congrArg some (List.dropWhile_idempotent isBlank cs)
  skip h hc := by
    have hblank : isBlank _ = false := (Bool.or_eq_false_iff.mp hc).1
    exact congrArg some (h.skipBlanks_eq.trans (skipBlanks_of_stops (stops_cons.mpr hblank)))

theorem skips_space : Skips (skipSpace? false) Space where
  length_le := Space.length_le
  isOver := Space.isOver
  skipBlanks := skipSpace?_skipBlanks
  skip := skipSpace?_of_space

theorem scalarRun_run {run : List Char} {afterBlank : Bool} (hscalar : run.all isScalarChar = true)
    (hquotes : run.IsChain fun b c => isBlank b = true → isQuote c = false)
    (hstart : afterBlank = true → Stops isQuote run) (hrest : Stops isScalarChar rest) :
    scalarRun afterBlank (run ++ rest) = (run, rest) := by
  induction run generalizing afterBlank with
  | nil =>
    cases rest with
    | nil => rfl
    | cons c rest => simp [scalarRun, stops_cons.mp hrest]
  | cons c run ih =>
    obtain ⟨hc, hrun⟩ := Bool.and_eq_true_iff.mp hscalar
    obtain ⟨hmore, hchain⟩ := List.isChain_cons.mp hquotes
    have hgo : (isScalarChar c && !(afterBlank && isQuote c)) = true := by
      cases afterBlank with
      | false => simpa using hc
      | true => simp [hc, stops_cons.mp (hstart rfl)]
    have hread := ih hrun hchain fun hblank d hd => hmore d hd hblank
    rw [List.cons_append, scalarRun, if_pos hgo, hread]

theorem isChain_of_no_quote {run : List Char} (h : ∀ c ∈ run, isQuote c = false) :
    run.IsChain fun b c => isBlank b = true → isQuote c = false := by
  refine (List.pairwise_of_forall_mem_list ?_).isChain
  exact fun _ _ c hc _ => h c hc

/-- A word is read with the blanks behind it. -/
theorem scalar?_complete {v : Literal} (hword : IsWord cs) (hv : scalarOf? cs = some v)
    (hrest : Over rest) : scalar? (cs ++ rest) = some (v, skipBlanks rest) := by
  have hblanks : ∀ c ∈ rest.takeWhile isBlank, isBlank c = true :=
    fun c hc => List.mem_takeWhile_imp hc
  have hsplit : rest = rest.takeWhile isBlank ++ skipBlanks rest :=
    (List.takeWhile_append_dropWhile).symm
  have hafter : Stops isScalarChar (skipBlanks rest) := hrest
  generalize rest.takeWhile isBlank = blanks at hblanks hsplit
  generalize skipBlanks rest = after at hsplit hafter ⊢
  subst hsplit
  -- the run goes on over the blanks, which are trimmed off it
  have hscalar : (cs ++ blanks).all isScalarChar = true := by
    rw [List.all_append, hword.scalar, Bool.true_and]
    refine List.all_eq_true.mpr fun c hc => ?_
    obtain rfl | rfl := isBlank_iff.mp (hblanks c hc) <;> decide
  have hquotes : (cs ++ blanks).IsChain fun b c => isBlank b = true → isQuote c = false := by
    have hquote : ∀ c ∈ blanks, isQuote c = false := by
      intro c hc
      obtain rfl | rfl := isBlank_iff.mp (hblanks c hc) <;> decide
    exact List.isChain_append.mpr ⟨hword.quotes, isChain_of_no_quote hquote,
      fun b _ c hc _ => hquote c (List.mem_of_mem_head? hc)⟩
  have htrim : trimEnd (cs ++ blanks) = cs := by
    have hstops : Stops isBlank cs.reverse := fun c hc =>
      hword.ends c (List.head?_reverse ▸ hc)
    rw [trimEnd, List.reverse_append, List.dropWhile_append_of_pos, dropWhile_of_stops hstops,
      List.reverse_reverse]
    exact fun c hc => hblanks c (List.mem_reverse.mp hc)
  have hrun : scalarRun false (cs ++ blanks ++ after) = (cs ++ blanks, after) :=
    scalarRun_run hscalar hquotes (fun h => absurd h Bool.false_ne_true) hafter
  rw [scalar?, ← List.append_assoc, hrun]
  dsimp only
  rw [htrim, hv, Option.map_some]

namespace Grammar

theorem Quoted.starts {text : List Char} (h : Quoted cs text rest) : Starts isQuote cs := by
  cases h with
  | line h => exact h.starts
  | long => exact ⟨_, _, rfl, rfl⟩
  | longVerbatim => exact ⟨_, _, rfl, rfl⟩

/-- A word that stands for something is not empty. -/
theorem IsWord.exists_cons {v : Literal} (h : IsWord cs) (hv : scalarOf? cs = some v) :
    ∃ c cs', cs = c :: cs' ∧ isScalarChar c = true ∧ isBlank c = false ∧ isQuote c = false := by
  cases cs with
  | nil =>
    have hnone : scalarOf? [] = none := by decide
    exact nomatch hnone.symm.trans hv
  | cons c cs =>
    exact ⟨c, cs, rfl, List.all_eq_true.mp h.scalar c List.mem_cons_self, h.starts c rfl⟩

/-- A value without parts starts with no bracket. -/
theorem Simple.starts {v : Literal} (h : Simple cs v rest) :
    Starts (fun c => isScalarChar c && !isBlank c) cs := by
  cases h with
  | @word cs rest _ hword hv =>
    obtain ⟨c, cs, rfl, hscalar, hblank, -⟩ := hword.exists_cons hv
    exact ⟨c, cs ++ rest, rfl, by simp [hscalar, hblank]⟩
  | string h =>
    refine h.starts.imp fun c hc => ?_
    obtain rfl | rfl := isQuote_iff.mp hc <;> decide

theorem Simple.length_lt {v : Literal} (h : Simple cs v rest) : rest.length < cs.length := by
  cases h with
  | @word cs rest _ hword hv =>
    obtain ⟨c, cs, rfl, -⟩ := hword.exists_cons hv
    rw [List.length_append]
    exact Nat.lt_add_of_pos_left (Nat.succ_pos cs.length)
  | string h => exact h.length_lt

theorem Separated.length_lt {α : Type} {Item : Grammar α} {close : Char} {items : List α}
    (hitem : ∀ {cs a rest}, Item cs a rest → rest.length < cs.length)
    (h : Separated Item close cs items rest) : rest.length < cs.length := by
  induction h with
  | close hclose => exact hclose.length_le
  | last hfront hread hclose =>
    exact (Nat.lt_of_succ_le hclose.length_le).trans ((hitem hread).trans_le hfront.length_le)
  | more hfront hread hcomma _ ih =>
    have := (Nat.lt_of_succ_le hcomma.length_le).trans ((hitem hread).trans_le hfront.length_le)
    exact ih.trans this

end Grammar

theorem complete_simple : Complete (value? 0) Simple where
  starts h := h.starts.imp fun c hc => by simp_all [isStart]
  length_lt := Simple.length_lt
  gives {cs v rest} h hrest := by
    cases h with
    | @word cs rest _ hword hv =>
      refine ⟨skipBlanks rest, ?_, List.dropWhile_idempotent isBlank rest⟩
      obtain ⟨c, cs, rfl, -, -, hquote⟩ := hword.exists_cons hv
      -- a word is not taken for a string
      have hmark : ∀ {mark cs'}, isQuote mark = true → c :: (cs ++ rest) ≠ mark :: cs' := by
        rintro mark cs' hmark heq
        rw [(List.cons.inj heq).1] at hquote
        exact Bool.false_ne_true (hquote.symm.trans hmark)
      rw [List.cons_append, value?, ← List.cons_append, scalar?_complete hword hv hrest]
      · exact fun _ => hmark rfl
      · exact fun _ => hmark rfl
    | string h =>
      refine ⟨rest, ?_, rfl⟩
      have hread := string?_complete h hrest
      obtain ⟨c, cs, rfl, hc⟩ := h.starts
      obtain rfl | rfl := isQuote_iff.mp hc
      all_goals
        rw [value?, hread]
        rfl

/-- What closes a list is no part of an item, nor of what stands around items. -/
structure Closes (close : Char) : Prop where
  scalar : isScalarChar close = false
  start : isStart close = false
  space : startsSpace close = false
  comma : close ≠ ','

theorem separated?_complete {α : Type} {item : Reader α} {Item : Grammar α} {close : Char}
    (hitem : Complete item Item) (hclose : Closes close) {items : List α}
    (h : Separated Item close cs items rest) :
    separated? item close cs = some (items, rest) := by
  -- what is read of an item, and of the space behind it up to a mark
  have hitem' : ∀ {cs a after mark rest}, Item cs a after → Space after (mark :: rest) →
      isScalarChar mark = false → startsSpace mark = false →
      ∃ c cs' after', cs = c :: cs' ∧ startsSpace c = false ∧ c ≠ close ∧
        item (c :: cs') = some (a, after') ∧ skipSpace? false after' = some (mark :: rest) := by
    intro cs a after mark rest hread hbehind hmark hspace
    obtain ⟨c, cs', rfl, hc⟩ := hitem.starts hread
    obtain ⟨after', hgives, hblanks⟩ := hitem.gives hread (hbehind.isOver (.cons hmark))
    refine ⟨c, cs', after', rfl, startsSpace_of_start c hc, ?_, hgives, ?_⟩
    · rintro rfl
      exact Bool.false_ne_true (hclose.start.symm.trans hc)
    · rw [← skipSpace?_skipBlanks, hblanks, skipSpace?_skipBlanks,
        skipSpace?_of_space hbehind hspace]
  induction h with
  | close hfront =>
    rw [separated?, skipSpace?_of_space hfront hclose.space]
    exact if_pos rfl
  | last hfront hread hbehind =>
    obtain ⟨c, cs', after', rfl, hspace, hne, hgives, hskip⟩ :=
      hitem' hread hbehind hclose.scalar hclose.space
    rw [separated?, skipSpace?_of_space hfront hspace]
    simp only [hne, if_false, hgives, hskip, hclose.comma, if_true]
  | @more a items cs cs₁ cs₂ cs₃ rest hfront hread hbehind _ ih =>
    have hlength : cs₃.length < cs.length := by
      have := hitem.length_lt hread
      exact (Nat.lt_of_succ_le hbehind.length_le).trans (this.trans_le hfront.length_le)
    obtain ⟨c, cs', after', rfl, hspace, hne, hgives, hskip⟩ :=
      hitem' hread hbehind (by decide) (by decide)
    rw [separated?, skipSpace?_of_space hfront hspace]
    simp only [hne, if_false, hgives, hskip, if_true, hlength, dif_pos, ih, Option.map_some]

theorem complete_assignment {skip? : List Char → Option (List Char)} {Gap : Filler}
    (hskips : Skips skip? Gap) {value : Reader Literal} {Value : Grammar Literal}
    (hvalue : Complete value Value) :
    Complete (assignment? skip? value) (Assigned Gap Value) where
  starts h := by
    cases h with
    | mk hpath => exact hpath.1.starts.imp isStart_of_keyStart
  length_lt h := by
    cases h with
    | mk hpath hbefore hafter hv =>
      have := hpath.1.length_lt
      have := hskips.length_le hbefore
      have := hskips.length_le hafter
      have := hvalue.length_lt hv
      simp only [List.length_cons] at *
      omega
  gives {cs a rest} h hrest := by
    cases h with
    | @mk path v _ cs₁ cs₂ cs₃ _ hpath hbefore hafter hv =>
      obtain ⟨rest', hgives, hblanks⟩ := hvalue.gives hv hrest
      have hread := keyPath?_complete hpath (hskips.isOver hbefore (.cons (by decide)))
      have hsign : skip? (skipBlanks cs₁) = some ('=' :: cs₂) :=
        (hskips.skipBlanks cs₁).trans (hskips.skip hbefore (by decide))
      have hskip : skip? cs₂ = some cs₃ := by
        obtain ⟨c, cs₃, rfl, hc⟩ := hvalue.starts hv
        exact hskips.skip hafter (startsSpace_of_start c hc)
      refine ⟨rest', ?_, hblanks⟩
      simp only [assignment?, hread, hsign, hskip, hgives, mark?, Option.bind_eq_bind,
        Option.bind_some, if_true]
      rfl

theorem complete_value (depth : Nat) : Complete (value? depth) (Value depth) := by
  induction depth with
  | zero => exact complete_simple
  | succ depth ih =>
    have hfields := complete_assignment skips_space ih
    constructor
    case starts =>
      intro cs v rest h
      cases h with
      | simple h => exact complete_simple.starts h
      | array => exact ⟨_, _, rfl, by decide⟩
      | inlineTable => exact ⟨_, _, rfl, by decide⟩
    case length_lt =>
      intro cs v rest h
      cases h with
      | simple h => exact h.length_lt
      | array h => exact Nat.lt_succ_of_lt (h.length_lt ih.length_lt)
      | inlineTable h => exact Nat.lt_succ_of_lt (h.length_lt hfields.length_lt)
    case gives =>
      intro cs v rest h hrest
      cases h with
      | simple h =>
        have hscalar : Starts isScalarChar cs :=
          h.starts.imp fun c hc => (Bool.and_eq_true_iff.mp hc).1
        rw [Gives, value?_succ_of_simple (fun _ => hscalar.ne_cons rfl)
          fun _ => hscalar.ne_cons rfl]
        exact complete_simple.gives h hrest
      | array h =>
        have hread := separated?_complete ih ⟨rfl, rfl, rfl, by decide⟩ h
        exact ⟨rest, by rw [value?, hread]; rfl, rfl⟩
      | inlineTable h =>
        have hread := separated?_complete hfields ⟨rfl, rfl, rfl, by decide⟩ h
        exact ⟨rest, by rw [value?, hread]; rfl, rfl⟩

/-! ## Documents -/

theorem heading?_complete {more : List Char} {path : List String} {cs₁ cs₂ : List Char}
    (hbefore : Blanks cs cs₁) (hpath : Path cs₁ path cs₂)
    (hbehind : Blanks cs₂ (']' :: (more ++ rest))) :
    heading? (']' :: more) cs = some (path, rest) := by
  have hread := keyPath?_complete hpath (hbehind.isOver (.cons (by decide)))
  have hmark : Stops isBlank (']' :: (more ++ rest)) := stops_cons.mpr (by decide)
  have hstart := (hpath.1.starts.imp isStart_of_keyStart).stops_blank
  rw [hbehind.skipBlanks_eq, skipBlanks_of_stops hmark] at hread
  rw [heading?, hbefore.skipBlanks_eq, skipBlanks_of_stops hstart, hread]
  simp

theorem statement?_complete {s : Statement} (h : Stated cs s rest) (hrest : Over rest) :
    Gives statement? cs s rest := by
  cases h with
  | @table path cs cs₁ cs₂ _ hbefore hpath hbehind =>
    have hread : heading? [']'] cs = some (path, rest) :=
      heading?_complete hbefore hpath hbehind
    -- the heading of a table is not taken for that of an element
    have hbracket : ∀ cs', cs ≠ '[' :: cs' := by
      have hkey : Stops (· == '[') cs₁ := by
        refine hpath.1.starts.stops fun c hc => beq_eq_false_iff_ne.mpr ?_
        rintro rfl
        exact absurd hc (by decide)
      rintro cs' rfl
      exact absurd (stops_cons.mp (hbefore.stops (by decide) (by decide) hkey)) (by decide)
    refine ⟨rest, ?_, rfl⟩
    rw [statement?, hread]
    · rfl
    · exact hbracket
  | @element path cs cs₁ cs₂ _ hbefore hpath hbehind =>
    have hread : heading? [']', ']'] cs = some (path, rest) :=
      heading?_complete hbefore hpath hbehind
    refine ⟨rest, ?_, rfl⟩
    rw [statement?, hread]
    rfl
  | assign h =>
    have hassigned := complete_assignment skips_blanks (complete_value maxDepth)
    obtain ⟨rest', hread, hblanks⟩ := hassigned.gives h hrest
    -- nor is a key
    have hbracket : ∀ {cs'}, cs ≠ '[' :: cs' := by
      cases h with
      | mk hpath => exact fun {_} => hpath.1.starts.ne_cons rfl
    refine ⟨rest', ?_, hblanks⟩
    rw [statement?, hread]
    · rfl
    · exact fun cs' => hbracket
    · exact fun cs' => hbracket

namespace Grammar

/-- A statement starts like a key, or like a heading. -/
theorem Stated.starts {s : Statement} (h : Stated cs s rest) : Starts isStart cs := by
  cases h with
  | table | element => exact ⟨_, _, rfl, by decide⟩
  | assign h =>
    cases h with
    | mk hpath => exact hpath.1.starts.imp isStart_of_keyStart

theorem Remark.length_le (h : Remark cs rest) : rest.length ≤ cs.length := by
  cases h with
  | none => exact Nat.le_refl _
  | comment =>
    rw [List.length_cons, List.length_append]
    omega

theorem Stated.length_lt {s : Statement} (h : Stated cs s rest) : rest.length < cs.length := by
  cases h with
  | table hbefore hpath hbehind | element hbefore hpath hbehind =>
    have := hbefore.length_le
    have := hpath.1.length_lt
    have := hbehind.length_le
    simp only [List.length_cons] at *
    omega
  | assign h => exact (complete_assignment skips_blanks (complete_value maxDepth)).length_lt h

theorem Row.length_le {statements : List Statement} (h : Row cs statements rest) :
    rest.length ≤ cs.length := by
  cases h with
  | blank hblanks hremark => exact hremark.length_le.trans hblanks.length_le
  | stated hbefore hstated hbehind hremark =>
    calc rest.length
      _ ≤ _ := hremark.length_le
      _ ≤ _ := hbehind.length_le
      _ ≤ _ := hstated.length_lt.le
      _ ≤ cs.length := hbefore.length_le

/-- A line takes something off the text, if there is any. -/
theorem Ends.length_lt {more : List Char} (h : Ends rest more) (hle : rest.length ≤ cs.length)
    (hne : cs ≠ []) : more.length < cs.length := by
  cases h with
  | document => exact List.length_pos_iff.mpr hne
  | line hbreak => exact hbreak.length_lt.trans_le hle

end Grammar

theorem lineEnd?_congr (h : skipBlanks cs = skipBlanks cs') : lineEnd? cs = lineEnd? cs' := by
  rw [lineEnd?, h, ← lineEnd?]

/-- A line that starts with a statement is not over. -/
theorem lineEnd?_of_starts (h : Starts isStart cs) : lineEnd? cs = none := by
  have hstops := h.stops_blank
  obtain ⟨c, cs, rfl, hc⟩ := h
  have hspace := startsSpace_of_start c hc
  rw [startsSpace, Bool.or_eq_false_iff] at hspace
  obtain ⟨hfeed, hreturn, hcomment⟩ : c ≠ '\n' ∧ c ≠ '\r' ∧ c ≠ '#' := by simpa using hspace.2
  have hskip : skipComment (c :: cs) = c :: cs := by
    rw [skipComment]
    exact fun _ h => hcomment (List.cons.inj h).1
  rw [lineEnd?, skipBlanks_of_stops hstops, hskip]
  simp [newline?, hfeed, hreturn]

/-- A line gives its statements, and those of the text behind it follow. -/
theorem statements?_row {statements : List Statement} {ending more : List Char}
    (h : Row cs statements ending) (hend : Ends ending more) :
    statements? cs = (statements? more).map (statements ++ ·) := by
  have hlength : cs ≠ [] → more.length < cs.length := hend.length_lt h.length_le
  cases h with
  | blank hblanks hremark =>
    have hline := lineEnd?_of_ends hblanks hremark hend
    by_cases hempty : skipBlanks cs = []
    · -- the end of the document is reached, and no line end stands there
      rw [lineEnd?, hempty] at hline
      cases hline
      rw [statements?, if_pos hempty, statements?_nil]
      rfl
    · have hne : cs ≠ [] := by
        rintro rfl
        exact hempty rfl
      rw [statements?, if_neg hempty, hline]
      dsimp only
      rw [dif_pos (hlength hne)]
      exact Option.map_id'.symm
  | @stated s _ cs₁ cs₂ _ _ hbefore hstated hbehind hremark =>
    obtain ⟨rest, hread, hrest⟩ :=
      statement?_complete hstated (hbehind.isOver (hremark.isOver hend.isOver))
    have hskip : skipBlanks cs = cs₁ := by
      rw [hbefore.skipBlanks_eq, skipBlanks_of_stops hstated.starts.stops_blank]
    have hnone : lineEnd? cs = none := by
      rw [lineEnd?_congr hbefore.skipBlanks_eq, lineEnd?_of_starts hstated.starts]
    -- the reader of statements may have left fewer blanks than the grammar
    have hline : lineEnd? rest = some more := by
      rw [lineEnd?_congr hrest, lineEnd?_of_ends hbehind hremark hend]
    have hne : cs₁ ≠ [] := by
      obtain ⟨c, cs', rfl, -⟩ := hstated.starts
      exact List.cons_ne_nil c cs'
    have hne' : cs ≠ [] := by
      rintro rfl
      exact hne hskip.symm
    rw [statements?, hskip, if_neg hne, hnone]
    simp only [hread, hline]
    rw [dif_pos (hlength hne')]
    rfl

theorem statements?_complete {statements : List Statement} (h : Rows cs statements) :
    statements? cs = some statements := by
  induction h with
  | last hrow =>
    rw [statements?_row hrow .document, statements?_nil, Option.map_some, List.append_nil]
  | more hrow hbreak _ ih => rw [statements?_row hrow (.line hbreak), ih, Option.map_some]

/-- No line starts with a byte order mark. -/
theorem statements?_byteOrderMark (cs : List Char) : statements? ('\uFEFF' :: cs) = none := by
  have hpath : keyPath? ('\uFEFF' :: cs) = none := by
    rw [keyPath?, keys?]
    rfl
  have hstatement : statement? ('\uFEFF' :: cs) = none := by
    show (assignment? _ _ _).map _ = none
    rw [assignment?, hpath]
    rfl
  have hline : lineEnd? ('\uFEFF' :: cs) = none := lineEnd?_of_starts ⟨_, cs, rfl, by decide⟩
  have hskip : skipBlanks ('\uFEFF' :: cs) = '\uFEFF' :: cs :=
    skipBlanks_of_stops (stops_cons.mpr (by decide))
  rw [statements?, hskip, if_neg (List.cons_ne_nil _ _), hline]
  simp only [hstatement]

/-- The reader of a document looks for a byte order mark first. -/
theorem statementsOf?_complete {document : String} {statements : List Statement}
    (h : Says document statements) : statementsOf? document = some statements := by
  obtain ⟨text, htext, hrows⟩ := h
  have hread := statements?_complete hrows
  -- one mark is dropped, and another would belong to the first line
  have hmark : ∀ cs, text ≠ '\uFEFF' :: cs := by
    rintro cs rfl
    exact nomatch hread.symm.trans (statements?_byteOrderMark cs)
  unfold statementsOf?
  obtain htext | htext := htext
  · split
    case h_1 cs heq => exact absurd (htext.symm.trans heq) (hmark cs)
    case h_2 => rw [htext, hread]
  · rw [htext]
    exact hread

/-! ## The reader and the grammar -/

/-- **The reader reads what is well-formed, and nothing else.** -/
theorem statementsOf?_eq_some_iff {document : String} {statements : List Statement} :
    statementsOf? document = some statements ↔ Says document statements :=
  ⟨statementsOf?_sound, statementsOf?_complete⟩

theorem parse?_eq_some_iff {document : String} {t : Table Node} :
    parse? document = some t ↔ Denotes document t := by
  rw [parse?, Option.bind_eq_some_iff]
  exact exists_congr fun _ => and_congr_left' statementsOf?_eq_some_iff

end InterfaceCheck.Toml
