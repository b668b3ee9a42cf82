import InterfaceCheck.Proofs.Checking
import InterfaceCheck.Proofs.Holdings
import InterfaceCheck.Proofs.Writes
import Mathlib.Data.List.Dedup
/-!
# The log is faithful

The events of a run, one after the other, are its log (`Session.log`). Where all writes go to one
registry the log tells what is in it: the names that were registered are the names of the registry,
and a name that is replaced was registered before. Each declaration and each check that compares a
class reports itself in full and once, and nothing else does (`Session.Run.log_faithful`). Checks
that are refused are not reported (`Session.Run.checks_not_all_reported`).

Every step reports the write that it makes, the verdict that it reaches, or neither
(`Session.step?_report`). So the names that the log registers grow just as the keys of the registry
do (`Session.Run.keys_eq_created`), and what the log says of names follows from what tables do with
keys.
-/

namespace InterfaceCheck

open Value

/-! ## Events of writes -/

/-- The event that reports a write of a name, for the first time or `again`. -/
def Event.written (name : String) (again : Bool) : Event :=
  if again then .replaced name else .registered name

theorem Event.isWrite_written (name : String) (again : Bool) :
    (written name again).isWrite = true := by
  cases again <;> rfl

theorem Event.isVerdict_written (name : String) (again : Bool) :
    (written name again).isVerdict = false := by
  cases again <;> rfl

/-- The names that events report as new. -/
def created (events : List Event) : List String :=
  events.filterMap fun
    | .registered name => some name
    | _ => none

theorem created_append (events later : List Event) :
    created (events ++ later) = created events ++ created later :=
  List.filterMap_append

theorem mem_created {events : List Event} {name : String} :
    name ∈ created events ↔ .registered name ∈ events := by
  unfold created
  rw [List.mem_filterMap]
  constructor
  · rintro ⟨e, he, hname⟩
    cases e with
    | registered symbol =>
      obtain rfl := Option.some.inj hname
      exact he
    | _ => cases hname
  · intro h
    exact ⟨_, h, rfl⟩

/-- Events that report no write report no new name. -/
theorem created_of_no_write {events : List Event} (h : ∀ e ∈ events, e.isWrite = false) :
    created events = [] := by
  refine List.filterMap_eq_nil_iff.mpr fun e he => ?_
  have hwrite := h e he
  cases e with
  | registered symbol => cases hwrite
  | _ => rfl

theorem created_cons_written (name : String) (again : Bool) (events : List Event) :
    created (.written name again :: events) =
      (if again then [] else [name]) ++ created events := by
  cases again <;> rfl

namespace Session

variable {s s' : Session} {symbols : String}

/-! ## One step -/

/-- What a step reports: the write that it makes, what comes of a check, or other things. -/
inductive Step.Report (step : Step) : Prop where
  | writes (w : Write) :
      step.write? = some w →
      step.outcome.Reports w.name ((step.before.registry w.symbols).contains w.name) →
      Report step
  | checks {target : Value} {found : Option (Descriptor Value)} :
      step.write? = none → step.Checks target found → Report step
  | remarks :
      step.write? = none →
      (∀ e ∈ step.outcome.events, e.isWrite = false ∧ e.isVerdict = false) → Report step

theorem Step.Report.silent {step : Step} (hwrite : step.write? = none)
    (h : step.outcome.events = []) : step.Report := by
  refine .remarks hwrite fun e he => ?_
  rw [h] at he
  cases he

/-- A refused declaration reports neither a write nor a verdict. -/
theorem Step.Declaration.report_of_no_write {step : Step} {scope name : String} {source : Source}
    (h : step.Declaration scope name source)
    (hstep : step.before.step? step.command = some step.outcome) (hwrite : step.write? = none) :
    step.Report := by
  cases h.settled hstep with
  | refused refusal event _ _ hevents hreported _ =>
    refine .remarks hwrite fun e he => ?_
    rw [hevents] at he
    obtain rfl := List.mem_singleton.mp he
    cases hreported <;> exact ⟨rfl, rfl⟩
  | accepted d _ _ hreply _ _ =>
    rw [h.write?, hreply] at hwrite
    cases hwrite

/-- The assertion that a step runs reports nothing, or it checks. -/
theorem report_checkAssertion {scope : Option String} {name : String} {args : List Expr}
    {outcome : Outcome} (hplain : (s.assertionsOf scope).Plain)
    (hstep : s.step? (.checkAssertion scope name args) = some outcome) :
    Step.Report ⟨s, .checkAssertion scope name args, outcome⟩ := by
  obtain ⟨values, hvalues, houtcome⟩ := Option.bind_eq_some_iff.mp hstep
  obtain rfl := Option.some.inj houtcome
  cases hget : (s.assertionsOf scope).table.get? name with
  | none =>
    refine .silent rfl ?_
    show ((s.assertionsOf scope).check name values).events = []
    simp [Assertions.check, hget]
  | some x =>
    have hevents : ((s.assertionsOf scope).check name values).events = (x.holds values).events :=
      Assertions.check_events hget
    cases hplain x (Table.mem_values_of_get? hget) with
    | quiet holds template => exact .silent rfl hevents
    | implements template =>
      match values, hvalues, hevents with
      | target :: interface :: rest, hvalues, _ => exact .checks rfl (.assertion rfl hvalues hget)
      | [], _, hevents | [_], _, hevents => exact .silent rfl hevents

/-- **Every step reports** its write, its check, or neither of the two. -/
theorem step?_report (hplain : ∀ scope, (s.assertionsOf scope).Plain) {command : Command}
    {outcome : Outcome} (hstep : s.step? command = some outcome) :
    Step.Report ⟨s, command, outcome⟩ := by
  cases step?_access hstep with
  | writes w hwrite _ hreports => exact .writes w hwrite hreports
  | leaves hwrite _ =>
    cases command with
    | register symbols name value =>
      obtain ⟨v, hv, -⟩ := Option.bind_eq_some_iff.mp hstep
      have hsome : Step.write? ⟨s, .register symbols name value, outcome⟩ =
          some ⟨symbols, name, v⟩ := congrArg (Option.map _) hv
      rw [hsome] at hwrite
      cases hwrite
    | declare scope name config target | declareValue scope name config target =>
      obtain ⟨name, source, hd⟩ := exists_declaration hstep rfl
      exact hd.report_of_no_write hstep hwrite
    | lookup scope name target =>
      obtain rfl := Option.some.inj hstep
      refine .remarks hwrite fun e he => ?_
      obtain rfl := List.mem_singleton.mp he
      exact ⟨rfl, rfl⟩
    | checkImplements route target interface =>
      obtain ⟨t, ht, hrest⟩ := Option.bind_eq_some_iff.mp hstep
      obtain ⟨v, hv, -⟩ := Option.bind_eq_some_iff.mp hrest
      exact .checks hwrite (.direct rfl ht hv)
    | checkNamed scope name target =>
      obtain ⟨t, ht, -⟩ := Option.bind_eq_some_iff.mp hstep
      exact .checks hwrite (.named rfl ht)
    | checkAssertion scope name args => exact report_checkAssertion (hplain scope) hstep
    | openScope name symbols document debug strictArity =>
      simp only [step?] at hstep
      split at hstep <;> cases hstep <;> exact .silent hwrite rfl
    | assign _ _ | describe _ _ | readConfig _ | asInterface _ =>
      obtain ⟨v, -, hrest⟩ := Option.bind_eq_some_iff.mp hstep
      obtain rfl := Option.some.inj hrest
      exact .silent hwrite rfl
    | resolve _ _ _ | contains _ _ | listSymbols _ | settingsOf _ | symbolsOf _
    | summarizeScope _ | newTable _ _ | addInterfaceAssertions | addAssertion _ _ _
    | summarizeTable _ | hasAssertion _ _ | templateOf _ _ =>
      obtain rfl := Option.some.inj hstep
      exact .silent hwrite rfl

/-- A write is reported first, and what is reported besides is neither a write nor a verdict. -/
theorem Outcome.Reports.events {outcome : Outcome} {name : String} {again : Bool}
    (h : outcome.Reports name again) :
    ∃ rest, outcome.events = .written name again :: rest ∧
      ∀ e ∈ rest, e.isWrite = false ∧ e.isVerdict = false := by
  obtain ⟨session, reply, events⟩ := outcome
  cases reply with
  | insertion i => exact ⟨[], h.2, fun e he => (nomatch he)⟩
  | interface d =>
    cases d with
    | none => exact h.elim
    | some d =>
      refine ⟨[.declared name d.members.size again], h, ?_⟩
      intro e he
      obtain rfl := List.mem_singleton.mp he
      exact ⟨rfl, rfl⟩
  | _ => exact h.elim

/-- A registration replies what it reports. -/
theorem Outcome.Reports.insertion {outcome : Outcome} {name : String} {again : Bool}
    (h : outcome.Reports name again) {i : Insertion} (hreply : outcome.reply = .insertion i) :
    i = if again then .replaced else .added := by
  unfold Reports at h
  rw [hreply] at h
  exact h.1

variable {step : Step}

/-- A step that writes nothing reports no write. -/
theorem Step.Report.isWrite (h : step.Report)
    (hstep : step.before.step? step.command = some step.outcome) (hwrite : step.write? = none) :
    ∀ e ∈ step.outcome.events, e.isWrite = false := by
  cases h with
  | writes w hsome _ =>
    rw [hwrite] at hsome
    cases hsome
  | checks _ hchecks => exact (hchecks.judges hstep).isWrite
  | remarks _ hevents => exact fun e he => (hevents e he).1

/-- A step that writes reports that once. -/
theorem Step.Report.exists_written (h : step.Report)
    (hstep : step.before.step? step.command = some step.outcome) {w : Write}
    (hwrite : step.write? = some w) :
    ∃ again, step.outcome.events.filter (·.isWrite) = [.written w.name again] ∧
      ∀ symbols name value, step.command = .register symbols name value →
        step.outcome.reply = .insertion (if again then .replaced else .added) := by
  cases h with
  | writes w' hsome hreports =>
    obtain rfl := Option.some.inj (hwrite.symm.trans hsome)
    obtain ⟨rest, hevents, hrest⟩ := hreports.events
    have hnone : rest.filter (·.isWrite) = [] := by
      rw [List.filter_eq_nil_iff]
      intro e he
      rw [(hrest e he).1]
      exact Bool.false_ne_true
    refine ⟨(step.before.registry w.symbols).contains w.name, ?_, ?_⟩
    · rw [hevents, List.filter_cons_of_pos (Event.isWrite_written _ _), hnone]
    · intro symbols name value hcommand
      rw [hcommand] at hstep
      obtain ⟨v, -, houtcome⟩ := Option.bind_eq_some_iff.mp hstep
      have hreply : ∃ i, step.outcome.reply = .insertion i := by
        rw [← Option.some.inj houtcome]
        exact ⟨_, rfl⟩
      obtain ⟨i, hi⟩ := hreply
      rw [hi, hreports.insertion hi]
  | checks hnone _ | remarks hnone _ =>
    rw [hwrite] at hnone
    cases hnone

/-- A step that checks nothing reports no verdict. -/
theorem Step.Report.isVerdict (h : step.Report)
    (hno : ∀ target found, ¬ step.Checks target found) :
    ∀ e ∈ step.outcome.events, e.isVerdict = false := by
  cases h with
  | writes w _ hreports =>
    obtain ⟨rest, hevents, hrest⟩ := hreports.events
    rw [hevents]
    intro e he
    rcases List.mem_cons.mp he with rfl | he
    · exact Event.isVerdict_written _ _
    · exact (hrest e he).2
  | checks _ hchecks => exact absurd hchecks (hno _ _)
  | remarks _ hevents => exact fun e he => (hevents e he).2

/-! ## Declarations -/

/-- What a declaration replies, and what it reports in the course of it. -/
inductive Step.DeclarationReport (step : Step) (name : String) (source : Source) : Prop where
  /-- The write comes first, and both events say the same of the name. -/
  | declared (d : Descriptor Value) (again : Bool) :
      step.outcome.reply = .interface (some d) →
      step.outcome.events =
        [.written name again, .declared name d.members.keys.dedup.length again] →
      DeclarationReport step name source
  | refused (refusal : Refusal) (event : Event) :
      step.outcome.reply = .refused refusal → refusal.ReportedBy source event →
      step.outcome.events = [event] → DeclarationReport step name source

/-- No map repeats a key. -/
def KeysOnce (v : Value) : Prop := ∀ entries, v = .map entries → entries.keys.Nodup

theorem keysOnce_holdsOfBuilt : HoldsOfBuilt KeysOnce := fun _ _ h => h

/-- Along a run no map repeats a key. -/
theorem Run.keysOnce {past : List Step} (h : Run past s) : s.Upholds KeysOnce := by
  induction h with
  | start defaults => exact upholds_initial defaults
  | next _ hstep ih =>
    refine (step?_upholds keysOnce_holdsOfBuilt ih hstep ?_).1
    exact fun _ _ _ _ _ _ hmap => (nomatch hmap)

/-- The members that are read off a map without repetitions come without repetitions. -/
theorem nodup_members_ofValue {v : Value} (h : Throughout KeysOnce v) :
    (Config.ofValue v).members.keys.Nodup := by
  show (((v.get? "members").bind (·.entries?)).getD .empty).keys.Nodup
  cases hmembers : (v.get? "members").bind (·.entries?) with
  | none => exact List.nodup_nil
  | some t =>
    obtain ⟨m, hm, ht⟩ := Option.bind_eq_some_iff.mp hmembers
    have hwithin : Within m v := .step (.refl m) (partOf_of_get? hm)
    exact h m hwithin t (entries?_eq_some_iff.mp ht)

/-- What a declaration declares requires each member once. -/
theorem Step.Declaration.nodup_members {scope name : String} {source : Source}
    (h : step.Declaration scope name source) (honce : step.before.Upholds KeysOnce) :
    source.toConfig.members.keys.Nodup := by
  cases h with
  | config _ _ _ _ => exact Table.nodup_keys_ofList _
  | value _ hv =>
    exact nodup_members_ofValue (Expr.eval?_throughout keysOnce_holdsOfBuilt honce.vars hv)

/-- **A declaration reports itself.** -/
theorem Step.Declaration.report {scope name : String} {source : Source}
    (h : step.Declaration scope name source)
    (hstep : step.before.step? step.command = some step.outcome)
    (honce : step.before.Upholds KeysOnce) : step.DeclarationReport name source := by
  cases h.settled hstep with
  | refused refusal event _ hreply hevents hreported _ =>
    exact .refused refusal event hreply hreported hevents
  | accepted d _ hd hreply hevents _ =>
    have hmembers : d.members.keys.Nodup := by
      rw [hd]
      exact h.nodup_members honce
    have hsize : d.members.size = d.members.keys.dedup.length := by
      rw [hmembers.dedup]
      exact (List.length_map _).symm
    have hname : d.name = name := by
      rw [hd]
      rfl
    rw [Registry.bind_events, register_events, hsize, hname] at hevents
    exact .declared d _ hreply hevents

/-! ## Whole runs -/

/-- What the steps report, one after the other. -/
def log (steps : List Step) : List Event := steps.flatMap (·.outcome.events)

theorem log_append (steps later : List Step) : log (steps ++ later) = log steps ++ log later :=
  List.flatMap_append

theorem log_singleton (step : Step) : log [step] = step.outcome.events :=
  List.flatMap_singleton _ _

/-- All writes of the steps go to one registry. -/
def WriteOnlyTo (symbols : String) (steps : List Step) : Prop :=
  ∀ step ∈ steps, ∀ w, step.write? = some w → w.symbols = symbols

/-- A step adds to the keys of the registry what it reports as new. -/
theorem Step.Report.keys (h : step.Report)
    (hstep : step.before.step? step.command = some step.outcome)
    (hone : ∀ w, step.write? = some w → w.symbols = symbols) :
    (step.outcome.session.registry symbols).bindings.keys =
      (step.before.registry symbols).bindings.keys ++ created step.outcome.events := by
  cases step?_access hstep with
  | leaves hwrite hregistry =>
    rw [hregistry, created_of_no_write (h.isWrite hstep hwrite), List.append_nil]
  | writes w hwrite hregistry hreports =>
    obtain rfl := hone w hwrite
    obtain ⟨rest, hevents, hrest⟩ := hreports.events
    have hnew : created step.outcome.events =
        if (step.before.registry w.symbols).contains w.name then [] else [w.name] := by
      have hnone := created_of_no_write fun e he => (hrest e he).1
      rw [hevents, created_cons_written, hnone, List.append_nil]
    rw [hregistry, if_pos rfl, hnew]
    exact Table.keys_insert _ w.name w.value

/-- A step replaces a name only if the registry knows the name. -/
theorem Step.Report.mem_keys_of_replaced (h : step.Report)
    (hstep : step.before.step? step.command = some step.outcome)
    (hone : ∀ w, step.write? = some w → w.symbols = symbols) {name : String}
    (hreplaced : .replaced name ∈ step.outcome.events) :
    name ∈ (step.before.registry symbols).bindings.keys := by
  cases step?_access hstep with
  | leaves hwrite _ =>
    have hno : Event.isWrite (.replaced name) = false := h.isWrite hstep hwrite _ hreplaced
    cases hno
  | writes w hwrite _ hreports =>
    obtain rfl := hone w hwrite
    obtain ⟨rest, hevents, hrest⟩ := hreports.events
    rw [hevents] at hreplaced
    rcases List.mem_cons.mp hreplaced with heq | hmem
    · -- the event of the write says that the name is known only if it is
      cases hc : (step.before.registry w.symbols).contains w.name with
      | false =>
        rw [hc] at heq
        cases heq
      | true =>
        rw [hc] at heq
        obtain rfl := Event.replaced.inj heq
        exact Table.contains_iff.mp hc
    · have hno : Event.isWrite (.replaced name) = false := (hrest _ hmem).1
      cases hno

/-- Every step of a run reports its write, its check, or neither of the two. -/
theorem Run.report {past : List Step} (h : Run past s) {step : Step} (hmem : step ∈ past) :
    step.Report := by
  obtain ⟨⟨earlier, hearlier⟩, hstep⟩ := h.of_mem hmem
  exact step?_report hearlier.plain hstep

variable {past : List Step}

/-- **The log registers the names of the registry**, in the order of their first writes. -/
theorem Run.keys_eq_created (h : Run past s) (hone : WriteOnlyTo symbols past) :
    (s.registry symbols).bindings.keys = created (log past) := by
  induction h with
  | start => rfl
  | @next past s command outcome hrun hstep ih =>
    have hreport : Step.Report ⟨s, command, outcome⟩ := step?_report hrun.plain hstep
    have hpast := ih fun step hmem => hone step (List.mem_append_left _ hmem)
    have hlast := hone _ (List.mem_append_right _ List.mem_cons_self)
    rw [log_append, created_append, log_singleton, ← hpast]
    exact hreport.keys hstep hlast

/-- **What the log replaces it has registered before.** -/
theorem Run.registered_of_replaced (h : Run past s) (hone : WriteOnlyTo symbols past)
    {earlier later : List Event} {name : String}
    (hlog : log past = earlier ++ .replaced name :: later) : .registered name ∈ earlier := by
  induction h generalizing earlier later with
  | start =>
    have hmem : Event.replaced name ∈ log [] := by
      rw [hlog]
      exact List.mem_append_right _ List.mem_cons_self
    cases hmem
  | @next past s command outcome hrun hstep ih =>
    have hreport : Step.Report ⟨s, command, outcome⟩ := step?_report hrun.plain hstep
    have hpast : WriteOnlyTo symbols past :=
      fun step hmem => hone step (List.mem_append_left _ hmem)
    have hlast := hone _ (List.mem_append_right _ List.mem_cons_self)
    have hknown : .replaced name ∈ outcome.events → .registered name ∈ log past := by
      intro hmem
      have hkeys := hreport.mem_keys_of_replaced hstep hlast hmem
      rw [hrun.keys_eq_created hpast] at hkeys
      exact mem_created.mp hkeys
    rw [log_append, log_singleton] at hlog
    -- the last step reports the replacement, or it is found in what was reported before
    rcases List.append_eq_append_iff.mp hlog with ⟨mid, rfl, hevents⟩ | ⟨mid, hbefore, hevents⟩
    · refine List.mem_append_left _ (hknown ?_)
      rw [hevents]
      exact List.mem_append_right _ List.mem_cons_self
    · cases mid with
      | nil =>
        rw [List.append_nil] at hbefore
        rw [← hbefore]
        refine hknown ?_
        rw [show outcome.events = .replaced name :: later from hevents.symm]
        exact List.mem_cons_self
      | cons e mid =>
        obtain ⟨rfl, -⟩ := List.cons.inj hevents
        exact ih hpast hbefore

/-- **The log is faithful.** Take any run that writes to one registry only. Then:

1. every write is reported once, as new or as a replacement, which is what a registration replies;
   the names that are reported as new are distinct and are the names of the registry, and a name
   is replaced only after it has been reported as new;
2. a declaration that succeeds reports the write and then the declaration, with the number of
   distinct members and with the same said of the name; one that is refused reports its refusal;
3. a check that compares a class with an interface reports one verdict, under the class's and the
   interface's own name and as the reply has it; all other checks fail without a verdict, and no
   other step reports one. -/
theorem Run.log_faithful (h : Run past s) (hone : WriteOnlyTo symbols past) :
    ((∀ step ∈ past,
        (∀ w, step.write? = some w → ∃ again,
          step.outcome.events.filter (·.isWrite) = [.written w.name again] ∧
          ∀ into name value, step.command = .register into name value →
            step.outcome.reply = .insertion (if again then .replaced else .added)) ∧
        (step.write? = none → ∀ e ∈ step.outcome.events, e.isWrite = false)) ∧
      (created (log past)).Nodup ∧
      (∀ name, name ∈ created (log past) ↔ name ∈ (s.registry symbols).names) ∧
      ∀ earlier later name, log past = earlier ++ .replaced name :: later →
        .registered name ∈ earlier) ∧
    (∀ step ∈ past, ∀ scope name source, step.Declaration scope name source →
      step.DeclarationReport name source) ∧
    ∀ step ∈ past,
      (∀ target found, step.Checks target found →
        (∀ c d, target.class? = some c → found = some d → ∃ answer,
          Conveys answer step.outcome.reply ∧
          step.outcome.events.filter (·.isVerdict) = [.verdict c.name d.name answer]) ∧
        (target.class? = none ∨ found = none → ∃ violation,
          Conveys (.error violation) step.outcome.reply ∧
          step.outcome.events.filter (·.isVerdict) = [])) ∧
      ((∀ target found, ¬ step.Checks target found) →
        ∀ e ∈ step.outcome.events, e.isVerdict = false) := by
  have hkeys := h.keys_eq_created hone
  refine ⟨⟨?_, ?_, ?_, ?_⟩, ?_, ?_⟩
  · intro step hmem
    have hstep := (h.of_mem hmem).2
    exact ⟨fun w hwrite => (h.report hmem).exists_written hstep hwrite,
      (h.report hmem).isWrite hstep⟩
  · rw [← hkeys, (run_iff_leads.mp h).bindings]
    have hempty : ((initial s.defaults).registry symbols).bindings.keys.Nodup := List.nodup_nil
    exact Table.nodup_keys_insertAll hempty _
  · intro name
    rw [← hkeys]
    exact Table.mem_sortedKeys.symm
  · intro earlier later name hlog
    exact h.registered_of_replaced hone hlog
  · intro step hmem scope name source hd
    obtain ⟨⟨earlier, hearlier⟩, hstep⟩ := h.of_mem hmem
    exact hd.report hstep hearlier.keysOnce
  · intro step hmem
    refine ⟨?_, (h.report hmem).isVerdict⟩
    intro target found hchecks
    exact (hchecks.judges (h.of_mem hmem).2).verdicts

/-- A name is registered, declared twice, once with a repeated member, and checked by name; a
declaration under a bad name is refused in between. -/
theorem Run.log_faithful_mixed :
    ∃ past s, Run past s ∧ WriteOnlyTo "main" past ∧
      created (log past) = ["geo", "geo.Shape"] ∧ (created (log past)).Nodup ∧
      ∀ earlier later name, log past = earlier ++ .replaced name :: later →
        .registered name ∈ earlier := by
  obtain ⟨past, s, h, hone, hcreated⟩ : ∃ past s, Run past s ∧ WriteOnlyTo "main" past ∧
      created (log past) = ["geo", "geo.Shape"] := by
    have h : Run
        [⟨_, .register "main" "geo" .null, _⟩,
          ⟨_, .declare "any" "geo.Shape" ⟨[("area", .null)], none, none⟩ none, _⟩,
          ⟨_, .declareValue "any" "geo Shape" (.map []) none, _⟩,
          ⟨_, .declare "any" "geo.Shape" ⟨[("area", .null), ("area", .null)], none, none⟩ none, _⟩,
          ⟨_, .checkNamed "any" "geo.Shape" (.cls "Disc" ⟨0, false⟩ [] none), _⟩] _ :=
      (Run.start (.standard true)).append ⟨rfl, rfl, rfl, rfl, rfl, rfl, rfl, rfl, rfl, rfl, rfl⟩
    refine ⟨_, _, h, ?_, rfl⟩
    intro step hmem w hwrite
    simp only [List.mem_cons, List.not_mem_nil, or_false] at hmem
    rcases hmem with rfl | rfl | rfl | rfl | rfl <;> cases hwrite <;> rfl
  have hfaithful := h.log_faithful hone
  exact ⟨past, s, h, hone, hcreated, hfaithful.1.2.1, hfaithful.1.2.2.2⟩

/-- **A refused check reports nothing**: a class that is checked against no interface at all. So not
every check reports a verdict. -/
theorem Run.checks_not_all_reported :
    ¬ ∀ past s symbols, Run past s → WriteOnlyTo symbols past → ∀ step ∈ past,
      ∀ target found, step.Checks target found →
        ∃ e, step.outcome.events.filter (·.isVerdict) = [e] := by
  intro hall
  obtain ⟨past, s, h, hone, step, hmem, target, found, hchecks, hno⟩ : ∃ past s, Run past s ∧
      WriteOnlyTo "main" past ∧ ∃ step ∈ past, ∃ target found, step.Checks target found ∧
        step.outcome.events.filter (·.isVerdict) = [] := by
    have h : Run
        [⟨_, .checkImplements .values (.cls "Disc" ⟨0, false⟩ [] none) .null, _⟩] _ :=
      (Run.start (.standard true)).append ⟨rfl, rfl, rfl⟩
    refine ⟨_, _, h, ?_, _, List.mem_cons_self, _, _, .direct rfl rfl rfl, rfl⟩
    intro step hmem w hwrite
    obtain rfl := List.mem_singleton.mp hmem
    cases hwrite
  obtain ⟨e, he⟩ := hall past s "main" h hone step hmem target found hchecks
  rw [hno] at he
  cases he

end Session

end InterfaceCheck
