import InterfaceCheck.Proofs.ByteOrder
import InterfaceCheck.Proofs.Declaring
/-!
# The last write wins

A registry is written by registrations and by declarations, through any number of scopes that share
it. Whatever else happens between the writes, the registry is at all times the map of the last
writes so far, and every write reports whether its name had been written before
(`Session.Leads.last_write_wins`).

The writes are read off the steps (`Session.Step.write?`), so the history of a registry is a list of
bindings. One step inserts what it writes and leaves the other registries (`Session.step?_access`);
along any steps the registry is then the table of its history (`Session.Leads.bindings`), and the
rest is what a table remembers.
-/

namespace InterfaceCheck

open Value

/-! ## The map of the last writes -/

/-- `r.LastWrites history`: to every observer `r` is the map of the last writes in `history`. -/
structure Registry.LastWrites (r : Registry) (history : List (String × Value)) : Prop where
  /-- A name resolves to what the last write to exactly that name bound it to. -/
  resolve : ∀ name v, r.resolve? name = some v ↔ Table.Last history name v
  unwritten : ∀ name, r.resolve? name = none ↔ name ∉ history.map (·.1)
  contains : ∀ name, r.contains name = true ↔ (r.resolve? name).isSome = true
  /-- The listing ascends strictly in the order of the names' UTF-8 bytes. -/
  ascending : r.names.Pairwise (fun a b => utf8Bytes a < utf8Bytes b)
  names : ∀ name, name ∈ r.names ↔ name ∈ history.map (·.1)
  size : r.size = r.names.length
  isEmpty : r.isEmpty = true ↔ r.size = 0
  /-- A name gives an interface iff the last write to it bound it to that interface. -/
  interface : ∀ name d,
    (r.interface? name).answer = some d ↔ Table.Last history name (ofInterface d)

/-- A registry that has been filled by the writes of a history, one after the other, is the map of
its last writes. -/
theorem Registry.lastWrites_of_bindings {r : Registry} {history : List (String × Value)}
    (h : r.bindings = .ofList history) : r.LastWrites history where
  resolve name v := by
    unfold resolve?
    rw [h]
    exact Table.get?_ofList_eq_some_iff
  unwritten name := by
    unfold resolve?
    rw [h]
    exact Table.get?_ofList_eq_none_iff
  contains name := Iff.rfl
  ascending := by
    unfold names
    rw [h]
    exact Table.sortedKeys_bytes (Table.nodup_keys_ofList history)
  names name := by
    unfold names
    rw [h, Table.mem_sortedKeys]
    exact Table.mem_keys_ofList
  size := (Table.length_sortedKeys r.bindings).symm
  isEmpty := beq_iff_eq
  interface name d := by
    rw [← Table.get?_ofList_eq_some_iff, ← h, interface?_eq]
    constructor
    · intro hd
      obtain ⟨v, hv, hd⟩ := Option.bind_eq_some_iff.mp hd
      rw [← interface?_eq_some_iff.mp hd]
      exact hv
    · intro hv
      exact Option.bind_eq_some_iff.mpr ⟨_, hv, interface?_eq_some_iff.mpr rfl⟩

namespace Session

/-! ## Writes -/

/-- The bindings that steps write to one registry, in order. -/
def history (symbols : String) (steps : List Step) : List (String × Value) :=
  ((steps.filterMap Step.write?).filter (·.symbols = symbols)).map fun w => (w.name, w.value)

/-- What the outcome of a write says of its name: whether it was bound `before`. A registration
says so in its reply, and a declaration in an event of its own. -/
def Outcome.Reports (outcome : Outcome) (name : String) (before : Bool) : Prop :=
  let written : Event := if before then .replaced name else .registered name
  match outcome.reply with
  | .insertion i => i = (if before then .replaced else .added) ∧ outcome.events = [written]
  | .interface (some d) => outcome.events = [written, .declared name d.members.size before]
  | _ => False

/-- What a step does to the registries: it leaves them all, or it binds a name in one of them and
reports whether the name was bound there. -/
inductive Step.Access (step : Step) : Prop where
  | leaves :
      step.write? = none →
      (∀ symbols, step.outcome.session.registry symbols = step.before.registry symbols) →
      Access step
  | writes (w : Write) :
      step.write? = some w →
      (∀ symbols, step.outcome.session.registry symbols = if symbols = w.symbols then
        ((step.before.registry w.symbols).register w.name w.value).registry
        else step.before.registry symbols) →
      step.outcome.Reports w.name ((step.before.registry w.symbols).contains w.name) →
      Access step

variable {s s' : Session} {symbols : String}

/-! ## One step -/

theorem register_events (r : Registry) (name : String) (v : Value) :
    (r.register name v).events =
      [if r.contains name then .replaced name else .registered name] := by
  unfold Registry.register Registry.contains Table.insertion
  cases r.bindings.contains name <;> rfl

/-- A declaration is one access to the registry of its scope: it binds what it answers with, or it
is refused and leaves all registries. -/
theorem Step.Declaration.access {step : Step} {scope name : String} {source : Source}
    (h : step.Declaration scope name source)
    (hstep : step.before.step? step.command = some step.outcome) : step.Access := by
  have hwrite := h.write?
  cases h.settled hstep with
  | refused refusal event _ hreply _ _ hregistry =>
    rw [hreply] at hwrite
    exact .leaves hwrite hregistry
  | accepted d _ hd hreply hevents hregistry =>
    subst hd
    rw [hreply] at hwrite
    refine .writes _ hwrite hregistry ?_
    unfold Outcome.Reports
    rw [hreply, hevents, Registry.bind_events, register_events]
    rfl

/-- **One step** leaves the registries or makes one write. -/
theorem step?_access {command : Command} {outcome : Outcome}
    (hstep : s.step? command = some outcome) : Step.Access ⟨s, command, outcome⟩ := by
  cases step?_effect hstep with
  | still hwrite _ _ hregistries _ =>
    refine .leaves hwrite fun symbols => ?_
    show outcome.session.registry symbols = s.registry symbols
    unfold registry
    rw [show outcome.session.registries = s.registries from hregistries]
  | result value hwrite _ hsession _ _ =>
    refine .leaves hwrite fun symbols => ?_
    rw [hsession]
    exact registry_withResult s _ value symbols
  | registers symbols name v hwrite houtcome _ =>
    obtain rfl : outcome = s.registered symbols name v := houtcome
    exact .writes _ hwrite (fun other => registry_withRegistry s symbols other _)
      ⟨rfl, register_events (s.registry symbols) name v⟩
  | declares _ _ _ hscope _ _ _ =>
    obtain ⟨declarer, hdeclarer, -⟩ := hscope
    obtain ⟨name, source, hd⟩ := exists_declaration hstep hdeclarer
    exact hd.access hstep

/-! ## Whole runs -/

theorem history_append (symbols : String) (steps later : List Step) :
    history symbols (steps ++ later) = history symbols steps ++ history symbols later := by
  unfold history
  rw [List.filterMap_append, List.filter_append, List.map_append]

/-- The history of a registry is what the steps write to it. -/
theorem mem_history {symbols name : String} {v : Value} {steps : List Step} :
    (name, v) ∈ history symbols steps ↔ ∃ step ∈ steps, step.write? = some ⟨symbols, name, v⟩ := by
  unfold history
  rw [List.mem_map]
  constructor
  · rintro ⟨w, hw, heq⟩
    obtain ⟨hmem, hsymbols⟩ := List.mem_filter.mp hw
    obtain ⟨step, hstep, hwrite⟩ := List.mem_filterMap.mp hmem
    obtain ⟨rfl, rfl⟩ := Prod.mk.inj heq
    obtain rfl := of_decide_eq_true hsymbols
    exact ⟨step, hstep, hwrite⟩
  · rintro ⟨step, hstep, hwrite⟩
    have hmem := List.mem_filterMap.mpr ⟨step, hstep, hwrite⟩
    exact ⟨_, List.mem_filter.mpr ⟨hmem, decide_eq_true rfl⟩, rfl⟩

/-- A step makes of a registry what inserting its write makes of it. -/
theorem Step.Access.bindings {step : Step} (h : step.Access) (symbols : String) :
    (step.outcome.session.registry symbols).bindings =
      (step.before.registry symbols).bindings.insertAll (history symbols [step]) := by
  cases h with
  | leaves hwrite hregistry =>
    rw [hregistry, history, List.filterMap_cons_none hwrite]
    rfl
  | writes w hwrite hregistry _ =>
    rw [hregistry, history, List.filterMap_cons_some hwrite]
    by_cases hs : symbols = w.symbols
    · simp [hs, Registry.register, Table.insertAll]
    · simp [hs, Ne.symm hs, Table.insertAll]

/-- Along any steps a registry takes in its history. -/
theorem Leads.bindings :
    ∀ {steps : List Step} {s : Session}, Leads s steps s' → ∀ symbols,
      (s'.registry symbols).bindings =
        (s.registry symbols).bindings.insertAll (history symbols steps)
  | [], _, h, symbols => by
    rw [h]
    rfl
  | step :: steps, s, ⟨hb, hstep, h⟩, symbols => by
    subst hb
    have hcons : step :: steps = [step] ++ steps := rfl
    rw [hcons, history_append, Table.insertAll_append, h.bindings,
      (step?_access hstep).bindings symbols]

/-- Along any steps an empty registry becomes the map of the last writes to it. -/
theorem Leads.lastWrites {steps : List Step} (h : Leads s steps s')
    (hempty : s.registry symbols = .empty) :
    (s'.registry symbols).LastWrites (history symbols steps) := by
  refine Registry.lastWrites_of_bindings ?_
  rw [h.bindings, hempty]
  rfl

/-- **The last write wins.** Start with an empty registry and take any steps whatever. Then:

1. to every observer the registry is the map of the last writes to it;
2. each write on the way reported that it replaced a binding iff its name had been written to the
   registry before;
3. through every scope over the registry, whatever its settings, a name finds the interface that
   the last write to the name bound, and nothing if that write bound something else. -/
theorem Leads.last_write_wins {steps : List Step} (h : Leads s steps s')
    (hempty : s.registry symbols = .empty) :
    (s'.registry symbols).LastWrites (history symbols steps) ∧
    (∀ before step after w, steps = before ++ step :: after → step.write? = some w →
      w.symbols = symbols → ∃ again, step.outcome.Reports w.name again ∧
        (again = true ↔ w.name ∈ (history symbols before).map (·.1))) ∧
    ∀ scope, (s'.scope scope).symbols = symbols → ∀ name target, ∃ found outcome,
      s'.step? (.lookup scope name target) = some outcome ∧ outcome.reply = .interface found ∧
        ∀ d, found = some d ↔ Table.Last (history symbols steps) name (ofInterface d) := by
  refine ⟨h.lastWrites hempty, ?_, ?_⟩
  · rintro before step after w rfl hwrite rfl
    obtain ⟨m, hbefore, rfl, hstep, -⟩ := leads_append.mp h
    have hlast := hbefore.lastWrites hempty
    cases step?_access hstep with
    | leaves hnone _ =>
      rw [hwrite] at hnone
      cases hnone
    | writes w' hwrite' _ hreports =>
      -- before the step the registry is the map of what was written until then
      obtain rfl : w = w' := Option.some.inj (hwrite.symm.trans hwrite')
      refine ⟨_, hreports, ?_⟩
      rw [hlast.contains, Option.isSome_iff_ne_none, ne_eq, hlast.unwritten, Decidable.not_not]
  · rintro scope rfl name target
    exact ⟨_, _, rfl, rfl, (h.lastWrites hempty).interface name⟩

/-- Two scopes share a registry: what the first declares the second declares again, and a
registration of the prefix of the dotted name comes in between. -/
theorem Leads.last_write_wins_shared :
    ∃ steps s', Leads initial steps s' ∧
      (history "shared" steps).map (·.1) = ["geo.Shape", "geo", "geo.Shape"] ∧
      (s'.registry "shared").LastWrites (history "shared" steps) := by
  have h : Leads initial
      [⟨_, .openScope "loose" "shared" none none (some false), _⟩,
        ⟨_, .openScope "strict" "shared" none none (some true), _⟩,
        ⟨_, .declare "loose" "geo.Shape" ⟨[("area", .function ⟨0, false⟩)], none, none⟩ none, _⟩,
        ⟨_, .register "shared" "geo" .null, _⟩,
        ⟨_, .declareValue "strict" "geo.Shape" (.map []) none, _⟩] _ :=
    ⟨rfl, rfl, rfl, rfl, rfl, rfl, rfl, rfl, rfl, rfl, rfl⟩
  exact ⟨_, _, h, rfl, (h.last_write_wins rfl).1⟩

end Session

end InterfaceCheck
