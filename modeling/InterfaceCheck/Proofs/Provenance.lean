import InterfaceCheck.Proofs.Holdings
import InterfaceCheck.Proofs.Runs
/-!
# Where interfaces come from

No interface appears in a run but through a declaration. However values are nested, stored, looked
up and put together again, an interface that shows up anywhere is, part for part, one that an
earlier successful declaration of the run answered with, strict about arities iff the scope that
declared it was (`Session.Run.interface_declared`).

The invariant is `Session.Sound`: all that the variables and the registries hold is genuine with
respect to the interfaces declared so far. One step keeps it for the interfaces declared up to and
including the step (`Session.step?_sound`), and the induction over the run does the rest.
-/

namespace InterfaceCheck

open Value

/-! ## What a session holds -/

namespace Session

/-- `s.Holds v`: `v` is bound in a registry or is the value of a variable. -/
def Holds (s : Session) (v : Value) : Prop :=
  (∃ symbols, v ∈ (s.registry symbols).bindings.values) ∨ v ∈ s.vars.values

/-- `step.Declares d`: the step is a declaration that succeeded and answered with `d`, which is
strict about arities iff the scope that declared it was at that time. -/
def Step.Declares (step : Step) (d : Descriptor Value) : Prop :=
  ∃ scope, declarer? step.command = some scope ∧ step.outcome.reply = .interface (some d) ∧
    d.strictArity = (step.before.scope scope).settings.strictArity

/-- All values of the session are genuine. -/
structure Sound (known : Descriptor Value → Prop) (s : Session) : Prop where
  vars : ∀ v ∈ s.vars.values, Genuine known v
  registries : ∀ symbols, ∀ v ∈ (s.registry symbols).bindings.values, Genuine known v

variable {known : Descriptor Value → Prop} {s : Session}

theorem Sound.holds (h : Sound known s) {v : Value} (hv : s.Holds v) : Genuine known v := by
  rcases hv with ⟨symbols, hv⟩ | hv
  · exact h.registries symbols v hv
  · exact h.vars v hv

/-- A session is sound iff it upholds that interfaces are known. -/
theorem sound_iff_upholds : Sound known s ↔ s.Upholds (Known known) := by
  constructor
  · intro h
    exact ⟨fun v hv => genuine_iff_throughout.mp (h.vars v hv),
      fun symbols v hv => genuine_iff_throughout.mp (h.registries symbols v hv)⟩
  · intro h
    exact ⟨fun v hv => genuine_iff_throughout.mpr (h.vars v hv),
      fun symbols v hv => genuine_iff_throughout.mpr (h.registries symbols v hv)⟩

theorem Sound.mono {known' : Descriptor Value → Prop} (h : Sound known s)
    (hk : ∀ d, known d → known' d) : Sound known' s where
  vars v hv w d hw hd := hk d (h.vars v hv w d hw hd)
  registries symbols v hv w d hw hd := hk d (h.registries symbols v hv w d hw hd)

theorem sound_initial (defaults : Settings) : Sound known (initial defaults) :=
  sound_iff_upholds.mpr (upholds_initial defaults)

/-! ## One step -/

/-- **One step**: a sound session stays sound and its reply is genuine, once the interface that the
step declares is known. -/
theorem step?_sound (h : Sound known s) {command : Command} {outcome : Outcome}
    (hstep : s.step? command = some outcome)
    (hknown : ∀ d, Step.Declares ⟨s, command, outcome⟩ d → known d) :
    Sound known outcome.session ∧ ∀ v ∈ outcome.reply.values, Genuine known v := by
  obtain ⟨hsession, hreply⟩ := step?_upholds (known_holdsOfBuilt known)
    (sound_iff_upholds.mp h) hstep fun scope d hscope hd hs d' hd' => by
      rw [interface?_ofInterface] at hd'
      obtain rfl := Option.some.inj hd'
      exact hknown d ⟨scope, hscope, hd, hs⟩
  exact ⟨sound_iff_upholds.mpr hsession, fun v hv => genuine_iff_throughout.mpr (hreply v hv)⟩

/-! ## Variables -/

theorem get?_declared {x symbols : String} {target : Option String} (hx : target ≠ some x)
    (w : Written (Except Refusal (Descriptor Value))) :
    (s.declared symbols target w).session.vars.get? x = s.vars.get? x := by
  unfold Session.declared
  cases w.answer with
  | error refusal => rfl
  | ok d => exact get?_withResult hx _

/-- **A step leaves the variables that it does not set**, whatever it does to registries. -/
theorem step?_get? {command : Command} {outcome : Outcome}
    (hstep : s.step? command = some outcome) {x : String} (hx : target? command ≠ some x) :
    outcome.session.vars.get? x = s.vars.get? x := by
  cases step?_effect hstep with
  | still _ _ hvars _ _ => exact congrArg (·.get? x) hvars
  | result value _ _ hsession _ _ =>
    obtain ⟨session, reply, events⟩ := outcome
    obtain rfl : session = s.withResult (target? command) value := hsession
    exact get?_withResult hx value
  | registers symbols name v _ houtcome _ =>
    obtain rfl : outcome = s.registered symbols name v := houtcome
    rfl
  | declares name scope source _ _ houtcome _ =>
    dsimp only at houtcome
    subst houtcome
    exact get?_declared hx _

theorem Leads.get? {s' : Session} {x : String} :
    ∀ {steps : List Step} {s : Session}, Leads s steps s' →
      (∀ step ∈ steps, target? step.command ≠ some x) → s'.vars.get? x = s.vars.get? x
  | [], _, h, _ => by rw [h]
  | step :: steps, s, ⟨_, hstep, h⟩, hx => by
    rw [h.get? fun later hl => hx later (List.mem_cons_of_mem _ hl)]
    exact step?_get? hstep (hx step List.mem_cons_self)

/-! ## Whole runs -/

/-- Along a run, all that the session holds and all that the last step gave is genuine with
respect to the interfaces declared so far. -/
theorem Run.sound {past : List Step} (h : Run past s) :
    Sound (fun d => ∃ step ∈ past, step.Declares d) s ∧
      ∀ last ∈ past.getLast?, ∀ v ∈ last.outcome.reply.values,
        Genuine (fun d => ∃ step ∈ past, step.Declares d) v := by
  induction h with
  | start defaults => exact ⟨sound_initial defaults, fun last hl => (nomatch hl)⟩
  | @next past s command outcome _ hstep ih =>
    -- what was declared before the step stays declared, and the step may add to it
    have hmono : Sound (fun d => ∃ step ∈ past ++ [⟨s, command, outcome⟩], step.Declares d) s :=
      ih.1.mono fun d ⟨step, hs, hd⟩ => ⟨step, List.mem_append_left _ hs, hd⟩
    have hnew := step?_sound hmono hstep fun d hd =>
      ⟨_, List.mem_append_right _ List.mem_cons_self, hd⟩
    refine ⟨hnew.1, fun last hl => ?_⟩
    rw [List.getLast?_concat, Option.mem_some_iff] at hl
    subst hl
    exact hnew.2

/-- **Interfaces come from declarations and never change.** After any run:

1. an interface within a value that a registry or a variable holds, or that the last step gave, is
   exactly the one that some declaration of the run answered with, strict about arities iff the
   scope that declared it was;
2. whatever is run afterwards, a variable that no later command sets keeps its value, so an
   interface in it stays as it is. -/
theorem Run.interface_declared {past : List Step} (h : Run past s) :
    (∀ v, (s.Holds v ∨ ∃ last ∈ past.getLast?, v ∈ last.outcome.reply.values) →
      ∀ w d, Within w v → w.interface? = some d → ∃ step ∈ past, step.Declares d) ∧
    ∀ later s', Leads s later s' → ∀ x, (∀ step ∈ later, target? step.command ≠ some x) →
      s'.vars.get? x = s.vars.get? x := by
  refine ⟨?_, fun later s' hl x hx => hl.get? hx⟩
  rintro v (hv | ⟨last, hlast, hv⟩) w d hw hd
  · exact h.sound.1.holds hv w d hw hd
  · exact h.sound.2 last hlast v hv w d hw hd

/-- An interface that a lenient scope declares goes into an array, and the array into a registry
under another name: what is found there is the interface that was declared. -/
theorem Run.interface_declared_within_array :
    ∃ past s v w d, Run past s ∧ (s.registry "main").resolve? "kept" = some v ∧ Within w v ∧
      w ≠ v ∧ w.interface? = some d ∧ ∃ step ∈ past, step.Declares d := by
  let d : Descriptor Value :=
    Registry.declaredBy ⟨true, false⟩ "geo.Shape"
      (.config ⟨.ofList [("area", .function ⟨0, false⟩)], none, none⟩)
  have hwithin : Within (ofInterface d) (.array [.null, ofInterface d]) :=
    .step (.refl _) (.item (List.mem_cons_of_mem _ List.mem_cons_self))
  obtain ⟨past, s, h, hkept⟩ : ∃ past s, Run past s ∧
      (s.registry "main").resolve? "kept" = some (.array [.null, ofInterface d]) := by
    have h : Run
        [⟨_, .openScope "lenient" "main" none none (some false), _⟩,
          ⟨_, .declare "lenient" "geo.Shape" ⟨[("area", .function ⟨0, false⟩)], none, none⟩
            (some "shape"), _⟩,
          ⟨_, .register "main" "kept" (.array [.null, .var "shape"]), _⟩] _ :=
      (Run.start (.standard true)).append ⟨rfl, rfl, rfl, rfl, rfl, rfl, rfl⟩
    exact ⟨_, _, h, rfl⟩
  have hheld : s.Holds (.array [.null, ofInterface d]) :=
    .inl ⟨"main", Table.mem_values_of_get? hkept⟩
  exact ⟨past, s, _, _, d, h, hkept, hwithin, nofun, rfl,
    h.interface_declared.1 _ (.inl hheld) _ _ hwithin rfl⟩

end Session

end InterfaceCheck
