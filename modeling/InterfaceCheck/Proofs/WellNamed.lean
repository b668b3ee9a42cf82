import InterfaceCheck.Proofs.Writes
/-!
# Registries under validation

Where a registry is written by validated declarations only, through any number of scopes and in
any order, it holds nothing but interfaces under their own names, and the names are module names
(`Session.Leads.well_named`). Refused declarations go on in between and leave no trace in it.

One write of such a run binds an interface to the name that it was declared under
(`Session.Guarded.write`). The history of the registry consists of such writes, and the registry is
the map of its history.
-/

namespace InterfaceCheck

open Value

namespace Session

/-- Only declarations write to the registry, and all of them are validated. -/
structure Guarded (symbols : String) (steps : List Step) : Prop where
  unregistered : ∀ step ∈ steps, ∀ name value, step.command ≠ .register symbols name value
  validated : ∀ step ∈ steps, ∀ scope, declarer? step.command = some scope →
    (step.before.scope scope).symbols = symbols → (step.before.scope scope).settings.debug = true

variable {symbols : String} {steps : List Step} {s s' : Session}

/-! ## One step -/

/-- A declaration that is validated and succeeds has a module name, and its interface is called by
it. -/
theorem Step.DeclaresInto.name_eq {step : Step} {name : String} {d : Descriptor Value}
    (h : step.DeclaresInto symbols name d)
    (hstep : step.before.step? step.command = some step.outcome)
    (hvalidated : ∀ scope, declarer? step.command = some scope →
      (step.before.scope scope).symbols = symbols →
      (step.before.scope scope).settings.debug = true) :
    d.name = name ∧ isModuleName name = true := by
  obtain ⟨scope, source, hd, hsymbols, hreply⟩ := h
  have hdebug := hvalidated scope hd.declarer hsymbols
  cases hd.settled hstep with
  | refused _ _ _ hreply' _ _ _ =>
    rw [hreply] at hreply'
    cases hreply'
  | accepted d' hr hd' hreply' _ _ =>
    rw [hreply] at hreply'
    cases hreply'
    subst hd'
    refine ⟨rfl, ?_⟩
    unfold Settings.refusal? at hr
    rw [if_pos hdebug] at hr
    by_cases hname : isModuleName name = true
    · exact hname
    · rw [if_neg hname] at hr
      cases hr

/-- What a guarded step writes to the registry it has declared. -/
theorem Guarded.write (hguard : Guarded symbols steps) {step : Step} (hmem : step ∈ steps)
    (hstep : step.before.step? step.command = some step.outcome) {name : String} {v : Value}
    (hwrite : step.write? = some ⟨symbols, name, v⟩) :
    ∃ d, v = ofInterface d ∧ step.DeclaresInto symbols name d := by
  cases hscope : declarer? step.command with
  | none =>
    -- without a declarer only a registration writes, and these are excluded
    obtain ⟨before, command, outcome⟩ := step
    unfold Step.write? at hwrite
    cases command with
    | register symbols' name' value =>
      obtain ⟨w, -, hw⟩ := Option.map_eq_some_iff.mp hwrite
      cases hw
      exact absurd rfl (hguard.unregistered _ hmem name value)
    | declare _ _ _ _ | declareValue _ _ _ _ => cases hscope
    | _ => cases hwrite
  | some scope =>
    obtain ⟨name', source, hd⟩ := exists_declaration hstep hscope
    rw [hd.write?] at hwrite
    obtain ⟨d, hd', hw⟩ := Option.map_eq_some_iff.mp hwrite
    cases hw
    have hreply : step.outcome.reply = .interface (some d) := by
      cases hr : step.outcome.reply <;> rw [hr] at hd' <;> cases hd'
      rfl
    exact ⟨d, rfl, scope, source, hd, rfl, hreply⟩

/-- A refusal leaves every registry. -/
theorem registry_of_refused {step : Step}
    (hstep : step.before.step? step.command = some step.outcome) {refusal : Refusal}
    (hreply : step.outcome.reply = .refused refusal) (other : String) :
    step.outcome.session.registry other = step.before.registry other := by
  cases step?_access hstep with
  | leaves _ hregistry => exact hregistry other
  | writes w _ _ hreports =>
    unfold Outcome.Reports at hreports
    rw [hreply] at hreports
    exact hreports.elim

/-! ## Whole runs -/

/-- **Validated registries are well named.** Start with an empty registry, and take any steps that
write to it by validated declarations only. Then:

1. every bound name is a module name and gives an interface of that name, which displays by it;
2. the bound names are those for which some declaration has succeeded;
3. refused declarations left every registry as it was. -/
theorem Leads.well_named (h : Leads s steps s') (hempty : s.registry symbols = .empty)
    (hguard : Guarded symbols steps) :
    (∀ name ∈ (s'.registry symbols).names, isModuleName name = true ∧
      ∃ d, ((s'.registry symbols).interface? name).answer = some d ∧ d.name = name ∧
        (s'.registry symbols).resolve? name = some (ofInterface d) ∧
        (ofInterface d).display = "[Interface " ++ name ++ "]") ∧
    (∀ name, name ∈ (s'.registry symbols).names ↔
      ∃ step ∈ steps, ∃ d, step.DeclaresInto symbols name d) ∧
    ∀ step ∈ steps, ∀ refusal, step.outcome.reply = .refused refusal →
      ∀ other, step.outcome.session.registry other = step.before.registry other := by
  have hlast := h.lastWrites hempty
  refine ⟨fun name hname => ?_, fun name => ?_, fun step hmem refusal hreply other => ?_⟩
  · obtain ⟨v, hv⟩ := Table.exists_last ((hlast.names name).mp hname)
    have hmem : (name, v) ∈ history symbols steps := by
      obtain ⟨before, after, heq, -⟩ := hv
      rw [heq]
      exact List.mem_append_right _ List.mem_cons_self
    obtain ⟨step, hstep, hwrite⟩ := mem_history.mp hmem
    obtain ⟨d, rfl, hd⟩ := hguard.write hstep (h.step_of_mem step hstep) hwrite
    obtain ⟨rfl, hmodule⟩ :=
      hd.name_eq (h.step_of_mem step hstep) (hguard.validated step hstep)
    exact ⟨hmodule, d, (hlast.interface d.name d).mpr hv, rfl,
      (hlast.resolve d.name _).mpr hv, rfl⟩
  · rw [hlast.names, List.mem_map]
    constructor
    · rintro ⟨⟨name, v⟩, hmem, rfl⟩
      obtain ⟨step, hstep, hwrite⟩ := mem_history.mp hmem
      obtain ⟨d, -, hd⟩ := hguard.write hstep (h.step_of_mem step hstep) hwrite
      exact ⟨step, hstep, d, hd⟩
    · rintro ⟨step, hstep, d, hd⟩
      exact ⟨(name, ofInterface d), mem_history.mpr ⟨step, hstep, hd.write?⟩, rfl⟩
  · exact registry_of_refused (h.step_of_mem step hmem) hreply other

/-- A strict and a lenient scope share a registry. Of three declarations through the lenient one
only that of a good name from a map counts, and it takes the place of what the strict one declared
before. -/
theorem Leads.well_named_shared :
    ∃ steps s', Leads initial steps s' ∧ Guarded "shared" steps ∧
      steps.map (fun step => step.write?.map (·.name)) =
        [none, none, some "geo.Shape", none, none, some "geo.Shape"] ∧
      ∀ name, name ∈ (s'.registry "shared").names ↔
        ∃ step ∈ steps, ∃ d, step.DeclaresInto "shared" name d := by
  obtain ⟨steps, s', h, hguard, hwrites⟩ : ∃ steps s', Leads initial steps s' ∧
      Guarded "shared" steps ∧ steps.map (fun step => step.write?.map (·.name)) =
        [none, none, some "geo.Shape", none, none, some "geo.Shape"] := by
    have h : Leads initial
        [⟨_, .openScope "strict" "shared" none (some true) (some true), _⟩,
          ⟨_, .openScope "lenient" "shared" none (some true) (some false), _⟩,
          ⟨_, .declare "strict" "geo.Shape" ⟨[("area", .null)], none, none⟩ none, _⟩,
          ⟨_, .declareValue "lenient" "no name" (.map []) none, _⟩,
          ⟨_, .declareValue "lenient" "geo.Disc" .null none, _⟩,
          ⟨_, .declareValue "lenient" "geo.Shape" (.map []) none, _⟩] _ :=
      ⟨rfl, rfl, rfl, rfl, rfl, rfl, rfl, rfl, rfl, rfl, rfl, rfl, rfl⟩
    refine ⟨_, _, h, ⟨fun step hmem name value => ?_, fun step hmem scope hscope _ => ?_⟩, rfl⟩
    · simp only [List.mem_cons, List.not_mem_nil, or_false] at hmem
      rcases hmem with rfl | rfl | rfl | rfl | rfl | rfl <;> nofun
    · simp only [List.mem_cons, List.not_mem_nil, or_false] at hmem
      rcases hmem with rfl | rfl | rfl | rfl | rfl | rfl <;> cases hscope <;> rfl
  exact ⟨steps, s', h, hguard, hwrites, (h.well_named rfl hguard).2.1⟩

end Session

end InterfaceCheck
