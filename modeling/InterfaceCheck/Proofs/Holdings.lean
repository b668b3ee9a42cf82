import InterfaceCheck.Proofs.Effects
/-!
# What a session holds

A session holds values in its variables and in its registries. It *upholds* a property of values
(`Session.Upholds`) if the property holds throughout all of them. If the property holds of all that
expressions build, one step upholds it as soon as it holds of the interface that the step declares,
and then it also holds throughout what the step answers with (`Session.step?_upholds`).
-/

namespace InterfaceCheck

open Value

namespace Session

/-- The property holds throughout all values of the session. -/
structure Upholds (P : Value → Prop) (s : Session) : Prop where
  vars : ∀ v ∈ s.vars.values, Throughout P v
  registries : ∀ symbols, ∀ v ∈ (s.registry symbols).bindings.values, Throughout P v

variable {P : Value → Prop} {s : Session}

theorem upholds_initial (defaults : Settings) : Upholds P (initial defaults) where
  vars _ hv := (nomatch hv)
  registries _ _ hv := (nomatch hv)

theorem Upholds.offers (h : s.Upholds P) (hP : HoldsOfBuilt P) {v : Value} (hv : s.Offers v) :
    Throughout P v := by
  obtain ⟨w, hw, ⟨symbols, hbound⟩ | ⟨e, heval⟩⟩ := hv
  · exact (h.registries symbols w hbound).within hw
  · exact (Expr.eval?_throughout hP h.vars heval).within hw

/-! ## Updates -/

theorem Upholds.withVar (h : s.Upholds P) (name : String) {v : Value} (hv : Throughout P v) :
    (s.withVar name v).Upholds P where
  vars w hw := by
    rcases Table.mem_values_insert hw with rfl | hw
    · exact hv
    · exact h.vars w hw
  registries := h.registries

theorem Upholds.withResult (h : s.Upholds P) (target : Option String) {value : Option Value}
    (hv : ∀ v, value = some v → Throughout P v) : (s.withResult target value).Upholds P := by
  unfold Session.withResult
  split
  · exact h.withVar _ (hv _ rfl)
  · exact h

theorem Upholds.withRegistry (h : s.Upholds P) (symbols : String) {r : Registry}
    (hr : ∀ v ∈ r.bindings.values, Throughout P v) : (s.withRegistry symbols r).Upholds P where
  vars := h.vars
  registries other v hv := by
    rw [registry_withRegistry] at hv
    by_cases ho : other = symbols
    · rw [if_pos ho] at hv
      exact hr v hv
    · rw [if_neg ho] at hv
      exact h.registries other v hv

/-- A registry with one more binding holds nothing but what it held and what was bound. -/
theorem throughout_insert {r : Registry} {name : String} {v : Value}
    (hr : ∀ w ∈ r.bindings.values, Throughout P w) (hv : Throughout P v) :
    ∀ w ∈ (r.bindings.insert name v).values, Throughout P w := by
  intro w hw
  rcases Table.mem_values_insert hw with rfl | hw
  · exact hv
  · exact hr w hw

/-! ## Declarations -/

/-- The parts of the interface that a source declares are those of the source. -/
theorem throughout_declaredBy {settings : Settings} {name : String} {source : Source}
    (hsource : ∀ v ∈ source.toConfig.values, Throughout P v)
    (hd : P (ofInterface (Registry.declaredBy settings name source))) :
    Throughout P (ofInterface (Registry.declaredBy settings name source)) := by
  refine throughout_ofInterface hd (fun w hw => hsource w ?_) (fun w hw => hsource w ?_)
    (fun w hw => hsource w ?_)
  · exact List.mem_append_left _ (List.mem_append_left _ hw)
  · exact List.mem_append_left _ (List.mem_append_right _ (Option.mem_toList.mpr hw))
  · exact List.mem_append_right _ (Option.mem_toList.mpr hw)

/-- What comes of a declaration, once the property holds of the interface that it answers with. -/
theorem Upholds.declared (h : s.Upholds P) {symbols name : String} {target : Option String}
    {settings : Settings} (source : Source)
    (hsource : ∀ v ∈ source.toConfig.values, Throughout P v) {outcome : Outcome}
    (houtcome : outcome =
      s.declared symbols target ((s.registry symbols).declareFrom settings name source))
    (hdeclared : ∀ d, outcome.reply = .interface (some d) →
      d.strictArity = settings.strictArity → P (ofInterface d)) :
    outcome.session.Upholds P ∧ ∀ v ∈ outcome.reply.values, Throughout P v := by
  cases hr : settings.refusal? name source with
  | some refusal =>
    obtain ⟨event, -, hw⟩ := Registry.declareFrom_of_refused hr (s.registry symbols)
    subst houtcome
    rw [hw]
    -- a refusal puts the registry back as it was
    exact ⟨h.withRegistry symbols (h.registries symbols), fun v hv => (nomatch hv)⟩
  | none =>
    have hw := Registry.declareFrom_of_accepted hr (s.registry symbols)
    rw [hw] at houtcome
    subst houtcome
    have hd := throughout_declaredBy hsource (hdeclared _ rfl rfl)
    refine ⟨(h.withRegistry symbols (throughout_insert (h.registries symbols) hd)).withResult
      target fun v hv => Option.some.inj hv ▸ hd, fun v hv => ?_⟩
    obtain rfl := List.mem_singleton.mp hv
    exact hd

/-! ## One step -/

/-- **One step** upholds a property that holds of all that is built, once it holds of the interface
that the step declares. -/
theorem step?_upholds (hP : HoldsOfBuilt P) (h : s.Upholds P) {command : Command}
    {outcome : Outcome} (hstep : s.step? command = some outcome)
    (hdeclared : ∀ scope d, declarer? command = some scope →
      outcome.reply = .interface (some d) →
      d.strictArity = (s.scope scope).settings.strictArity → P (ofInterface d)) :
    outcome.session.Upholds P ∧ ∀ v ∈ outcome.reply.values, Throughout P v := by
  cases step?_effect hstep with
  | still _ _ hvars hregistries hreply =>
    refine ⟨⟨fun v hv => h.vars v (hvars ▸ hv), fun symbols v hv => ?_⟩,
      fun v hv => h.offers hP (hreply v hv)⟩
    refine h.registries symbols v ?_
    unfold registry at hv ⊢
    rwa [← hregistries]
  | result value _ _ hsession hvalue hreply =>
    have hoffered : ∀ v ∈ outcome.reply.values, Throughout P v :=
      fun v hv => h.offers hP (hreply v hv)
    exact ⟨hsession ▸ h.withResult _ fun v hv => hoffered v (hvalue v hv), hoffered⟩
  | registers symbols name v _ houtcome hv =>
    obtain rfl : outcome = s.registered symbols name v := houtcome
    exact ⟨h.withRegistry symbols (throughout_insert (h.registries symbols) (h.offers hP hv)),
      fun w hw => (nomatch hw)⟩
  | declares name scope source hscope _ houtcome hsource =>
    obtain ⟨declarer, hdeclarer, rfl⟩ := hscope
    exact h.declared source (fun v hv => h.offers hP (hsource v hv)) houtcome
      fun d hd hs => hdeclared declarer d hdeclarer hd hs

end Session

end InterfaceCheck
