import InterfaceCheck.Proofs.Placeholders
/-!
# Templates put together

A template that is put together of two reads as the two read, wherever the cut is, unless the cut
goes through a placeholder (`Template.CutsPlaceholder`). The pieces of the two are then the pieces
of the whole (`Split.append`), and each piece has its rendering to itself. At a cut through a
placeholder the digits on both sides of it belong to one number, and the whole reads as its parts
for all arguments only if neither this number nor the one before the cut picks an argument
(`cut_iff`).

`formatMessage_append` says this of messages, and of templates put together of any number of parts.
-/

namespace InterfaceCheck.Template

/-! ## Cuts -/

/-- Whether a template ends in a placeholder: a percent sign with only digits after it. -/
def EndsInPlaceholder (a : List Char) : Prop :=
  ∃ before digits, a = before ++ '%' :: digits ∧ ∀ d ∈ digits, d.isDigit = true

/-- Whether the cut between two templates goes through a placeholder: the digits of the one that
the first ends in go on in the second. -/
def CutsPlaceholder (a b : List Char) : Prop :=
  EndsInPlaceholder a ∧ ∃ d ∈ b.head?, d.isDigit = true

theorem EndsInPlaceholder.append_left {a : List Char} (h : EndsInPlaceholder a)
    (front : List Char) : EndsInPlaceholder (front ++ a) := by
  obtain ⟨before, digits, rfl, hdigits⟩ := h
  exact ⟨front ++ before, digits, (List.append_assoc _ _ _).symm, hdigits⟩

/-- What follows a template goes with it as with the end of the template. -/
theorem CutsPlaceholder.append_left {a b : List Char} (h : CutsPlaceholder a b)
    (front : List Char) : CutsPlaceholder (front ++ a) b :=
  ⟨h.1.append_left front, h.2⟩

/-! ## Other cuts -/

/-- A run of digits at the end of a template stays maximal if no digit follows the template. -/
theorem MaximalRun.append_text {text digits rest b : List Char} (h : MaximalRun text digits rest)
    (hb : rest = [] → ∀ d ∈ b.head?, d.isDigit = false) :
    MaximalRun (text ++ b) digits (rest ++ b) where
  append := by rw [h.append, List.append_assoc]
  digits := h.digits
  maximal := by
    cases rest with
    | nil => exact hb rfl
    | cons c rest => exact h.maximal

/-- Unless the cut goes through a placeholder, the pieces of the parts are those of the whole. -/
theorem Split.append {a b : List Char} {ps qs : List Piece} (ha : Split a ps) (hb : Split b qs)
    (h : ¬ CutsPlaceholder a b) : Split (a ++ b) (ps ++ qs) := by
  induction ha with
  | nil => exact hb
  | @plain c rest ps hc _ ih => exact .plain hc (ih fun hcut => h (hcut.append_left [c]))
  | @placeholder text digits rest ps hrun _ ih =>
    have hwhole : '%' :: text = '%' :: digits ++ rest := congrArg ('%' :: ·) hrun.append
    refine .placeholder (hrun.append_text fun hrest d hd => ?_) (ih fun hcut => h ?_)
    · -- the first part ends with the digits, so none follows them in the second
      rw [← Bool.not_eq_true]
      intro hdigit
      refine h ⟨⟨[], digits, ?_, hrun.digits⟩, d, hd, hdigit⟩
      rw [hwhole, hrest, List.append_nil, List.nil_append]
    · rw [hwhole]
      exact hcut.append_left _

theorem fill_append {a b : List Char} (h : ¬ CutsPlaceholder a b) (args : List Value) :
    fill args (a ++ b) = fill args a ++ fill args b := by
  obtain ⟨ps, hps⟩ := exists_split a
  obtain ⟨qs, hqs⟩ := exists_split b
  rw [fill_of_split (hps.append hqs h), fill_of_split hps, fill_of_split hqs, List.flatMap_append]

/-- A template of many parts reads as its parts if no cut goes through a placeholder. -/
theorem fill_flatten {parts : List (List Char)}
    (h : ∀ before part after, parts = before ++ part :: after →
      ¬ CutsPlaceholder part after.flatten) (args : List Value) :
    fill args parts.flatten = parts.flatMap (fill args) := by
  induction parts with
  | nil => rw [List.flatten_nil, fill]; rfl
  | cons part parts ih =>
    have hparts := ih fun before part' after hsplit =>
      h (part :: before) part' after (congrArg (part :: ·) hsplit)
    rw [List.flatten_cons, fill_append (h [] part parts rfl), hparts, List.flatMap_cons]

/-! ## Cuts through a placeholder -/

/-- Whether a placeholder with these digits stands for itself whatever the arguments are: no digits,
the number 0, or a number past the words. -/
def StandsForItself (digits : List Char) : Prop :=
  digits = [] ∨ Nat.ofDigitChars 10 digits 0 = 0 ∨ UInt64.size ≤ Nat.ofDigitChars 10 digits 0

theorem render_of_standsForItself {digits : List Char} (h : StandsForItself digits)
    (args : List Value) : Piece.render args (.placeholder digits) = '%' :: digits :=
  if_pos h

/-- Any other placeholder is undefined where there are no arguments. -/
theorem render_of_not_standsForItself {digits : List Char} (h : ¬ StandsForItself digits) :
    Piece.render [] (.placeholder digits) = "undefined".toList := by
  exact (if_neg h).trans (dif_neg (Nat.not_lt_zero _))

/-- A placeholder reads by itself. -/
theorem fill_placeholder {text digits rest : List Char} (h : MaximalRun text digits rest)
    (args : List Value) :
    fill args ('%' :: text) = Piece.render args (.placeholder digits) ++ fill args rest := by
  obtain ⟨ps, hps⟩ := exists_split rest
  rw [fill_of_split (.placeholder h hps), fill_of_split hps, List.flatMap_cons]

/-- Digits that no percent sign stands before are characters like any others. -/
theorem fill_digits {digits : List Char} (h : ∀ d ∈ digits, d.isDigit = true) (rest : List Char)
    (args : List Value) : fill args (digits ++ rest) = digits ++ fill args rest := by
  induction digits with
  | nil => rfl
  | cons d digits ih =>
    have hd : d ≠ '%' := by
      rintro rfl
      exact absurd (h '%' List.mem_cons_self) (by decide)
    rw [List.cons_append, fill, if_neg hd, ih fun e he => h e (List.mem_cons_of_mem d he)]
    rfl

section
variable {before digits b more rest : List Char} (hdigits : ∀ d ∈ digits, d.isDigit = true)
  (hrun : MaximalRun b more rest)
include hdigits hrun

/-- The whole at a cut through a placeholder: the digits on both sides are one number. -/
theorem fill_joined (args : List Value) :
    fill args (before ++ '%' :: digits ++ b) =
      fill args before ++ Piece.render args (.placeholder (digits ++ more)) ++ fill args rest := by
  have hjoined : MaximalRun (digits ++ b) (digits ++ more) rest := by
    refine ⟨by rw [hrun.append, List.append_assoc], fun d hd => ?_, hrun.maximal⟩
    exact (List.mem_append.mp hd).elim (hdigits d) (hrun.digits d)
  have hcut : ¬ CutsPlaceholder before ('%' :: (digits ++ b)) := by
    rintro ⟨-, d, hd, hdigit⟩
    obtain rfl := Option.some.inj hd
    exact absurd hdigit (by decide)
  rw [List.append_assoc, List.cons_append, fill_append hcut, fill_placeholder hjoined,
    List.append_assoc]

/-- The parts at a cut through a placeholder: the digits after the cut stand for themselves. -/
theorem fill_parted (args : List Value) :
    fill args (before ++ '%' :: digits) ++ fill args b =
      fill args before ++ (Piece.render args (.placeholder digits) ++ more) ++ fill args rest := by
  have hempty : MaximalRun [] [] [] := ⟨rfl, nofun, nofun⟩
  have hfirst : fill args (before ++ '%' :: digits ++ []) =
      fill args before ++ Piece.render args (.placeholder (digits ++ [])) ++ fill args [] :=
    fill_joined hdigits hempty args
  simp only [List.append_nil] at hfirst
  rw [hfirst, hrun.append, fill_digits hrun.digits, fill]
  simp only [List.append_nil, List.append_assoc]

/-- **Cuts through a placeholder show.** The whole reads as its parts, for all arguments, iff the
placeholder stands for itself with the digits before the cut and with all of its digits. -/
theorem cut_iff (hmore : more ≠ []) :
    (∀ args, fill args (before ++ '%' :: digits ++ b) =
        fill args (before ++ '%' :: digits) ++ fill args b) ↔
      StandsForItself digits ∧ StandsForItself (digits ++ more) := by
  have hrender : (∀ args, fill args (before ++ '%' :: digits ++ b) =
        fill args (before ++ '%' :: digits) ++ fill args b) ↔
      ∀ args, Piece.render args (.placeholder (digits ++ more)) =
        Piece.render args (.placeholder digits) ++ more := by
    refine forall_congr' fun args => ?_
    rw [fill_joined hdigits hrun, fill_parted hdigits hrun]
    exact ⟨fun h => List.append_cancel_left (List.append_cancel_right h), fun h => by rw [h]⟩
  rw [hrender]
  constructor
  · intro h
    have hnone := h []
    by_cases hfirst : StandsForItself digits <;> by_cases hall : StandsForItself (digits ++ more)
    · exact ⟨hfirst, hall⟩
    · rw [render_of_standsForItself hfirst, render_of_not_standsForItself hall] at hnone
      exact absurd (List.cons.inj hnone).1 (by decide)
    · rw [render_of_not_standsForItself hfirst, render_of_standsForItself hall] at hnone
      exact absurd (List.cons.inj hnone).1 (by decide)
    · rw [render_of_not_standsForItself hfirst, render_of_not_standsForItself hall] at hnone
      exact absurd (List.self_eq_append_right.mp hnone) hmore
  · rintro ⟨hfirst, hall⟩ args
    rw [render_of_standsForItself hfirst, render_of_standsForItself hall, List.cons_append]

end

end InterfaceCheck.Template

namespace InterfaceCheck

open Template

/-- **Messages of templates that are put together.**

1. A message reads as the messages of two parts of its template, for all arguments, unless the cut
   between them goes through a placeholder.
2. So does a message of any number of parts.
3. At a cut through a placeholder it does so for all arguments only if the placeholder stands for
   itself, both with the digits before the cut and with those behind it as well. -/
theorem formatMessage_append :
    (∀ a b : String, ¬ CutsPlaceholder a.toList b.toList → ∀ args,
      formatMessage (a ++ b) args = formatMessage a args ++ formatMessage b args) ∧
    (∀ parts : List String,
      (∀ before part after, parts = before ++ part :: after →
        ¬ CutsPlaceholder part.toList (String.join after).toList) → ∀ args,
      formatMessage (String.join parts) args = String.join (parts.map (formatMessage · args))) ∧
    ∀ (a b : String) (before digits more rest : List Char),
      a.toList = before ++ '%' :: digits → (∀ d ∈ digits, d.isDigit = true) →
      MaximalRun b.toList more rest → more ≠ [] →
      ((∀ args, formatMessage (a ++ b) args = formatMessage a args ++ formatMessage b args) ↔
        StandsForItself digits ∧ StandsForItself (digits ++ more)) := by
  have htexts : ∀ (a b : String) (args : List Value),
      formatMessage (a ++ b) args = formatMessage a args ++ formatMessage b args ↔
        fill args (a.toList ++ b.toList) = fill args a.toList ++ fill args b.toList := by
    intro a b args
    unfold formatMessage
    rw [String.toList_append, ← String.ofList_append, String.ofList_inj]
  refine ⟨fun a b h args => (htexts a b args).mpr (fill_append h args), fun parts h args => ?_,
    fun a b before digits more rest ha hdigits hrun hmore => ?_⟩
  · have hjoin : ∀ l : List String, (String.join l).toList = (l.map String.toList).flatten :=
      fun l => String.toList_join.trans List.flatMap_def
    unfold formatMessage
    rw [← String.toList_inj, String.toList_ofList, hjoin, hjoin, fill_flatten, List.map_map,
      List.flatMap_map, List.flatMap_def]
    · congr
      funext part
      exact String.toList_ofList.symm
    · intro before part after hparts
      obtain ⟨before', rest, rfl, rfl, hrest⟩ := List.map_eq_append_iff.mp hparts
      obtain ⟨part', after', rfl, rfl, rfl⟩ := List.map_eq_cons_iff.mp hrest
      rw [← hjoin]
      exact h before' part' after' rfl
  · simp only [htexts, ha]
    exact cut_iff hdigits hrun hmore

/-- A cut between two percent signs, and one behind a number in front of a letter; an argument that
reads as a placeholder is not scanned. A cut between the digits of a number shows. -/
theorem formatMessage_append_percent :
    formatMessage ("%" ++ "%1x") [.string "%2"] = "%" ++ "%2x" ∧
      ¬ ∀ args, formatMessage ("%1" ++ "2") args =
        formatMessage "%1" args ++ formatMessage "2" args := by
  obtain ⟨happend, -, hcut⟩ := formatMessage_append
  refine ⟨?_, fun h => ?_⟩
  · have hpercent : ¬ CutsPlaceholder "%".toList "%1x".toList := by
      rintro ⟨-, d, hd, hdigit⟩
      obtain rfl := Option.some.inj hd
      exact absurd hdigit (by decide)
    have hfirst : Split "%".toList [.placeholder []] :=
      .placeholder (maximalRun_span "".toList) .nil
    have hsecond : Split "%1x".toList [.placeholder ['1'], .plain 'x'] :=
      .placeholder (maximalRun_span "1x".toList) (.plain (by decide) .nil)
    rw [happend "%" "%1x" hpercent, formatMessage, formatMessage, fill_of_split hfirst,
      fill_of_split hsecond]
    decide
  · have hstands := (hcut "%1" "2" [] ['1'] ['2'] [] rfl (by simp)
      (maximalRun_span "2".toList) (by simp)).mp h
    exact absurd hstands.1 (by unfold StandsForItself; decide)

end InterfaceCheck
