import InterfaceCheck.Proofs.Declaration
import InterfaceCheck.Proofs.Table
/-!
# Writes to different names commute

A registry is written by registrations and by declarations of either kind, each through settings of
its own (`Operation`). What an operation answers and reports depends on the registry only by whether
its own name is bound (`Registry.response_congr`), and it changes the binding of this name alone
(`Registry.registry_perform`). So every name lives by itself: what happens to it in a sequence of
operations is what happens in the operations on that name alone (`Registry.responses_filter`,
`Registry.resolve?_performAll_filter`).

Two registries are alike (`Registry.Alike`) if nothing that can be asked of a registry tells them
apart, and nothing that can be done with it later. The order in which names came into a table does
not show, since they are listed in ascending order (`Registry.Alike.of_resolve?`).

- `Registry.writes_commute`: two operations on different names may change places, and two sequences
  that agree in the order of the operations on each name come to the same.
-/

namespace InterfaceCheck

open Value

/-! ## Operations -/

/-- An operation that writes to a registry, unless it is refused. -/
inductive Operation where
  | register (name : String) (value : Value)
  | declare (settings : Settings) (name : String) (config : Config)
  | declareValue (settings : Settings) (name : String) (config : Value)

namespace Operation

/-- The name that the operation writes to. -/
def name : Operation → String
  | .register name _ | .declare _ name _ | .declareValue _ name _ => name

/-- What an operation answers: what a registration did to the name, or what a declaration made. -/
inductive Answer where
  | insertion (i : Insertion)
  | declaration (d : Except Refusal (Descriptor Value))

/-- What came of an operation on a name. -/
structure Response where
  name : String
  answer : Answer
  events : List Event

/-- What a declaration binds its name to, if it is not refused. -/
def declared? (s : Settings) (name : String) (source : Source) : Option Value :=
  match s.refusal? name source with
  | none => some (ofInterface (Registry.declaredBy s name source))
  | some _ => none

/-- What the operation binds its name to, if it is not refused. -/
def value? : Operation → Option Value
  | .register _ value => some value
  | .declare s name config => declared? s name (.config config)
  | .declareValue s name config => declared? s name (.value config)

end Operation

namespace Registry

open Operation

/-- Performs an operation. -/
def perform (r : Registry) : Operation → Written Answer
  | .register name value =>
    let w := r.register name value
    ⟨.insertion w.answer, w.registry, w.events⟩
  | .declare s name config =>
    let w := r.declare s name config
    ⟨.declaration w.answer, w.registry, w.events⟩
  | .declareValue s name config =>
    let w := r.declareValue s name config
    ⟨.declaration w.answer, w.registry, w.events⟩

/-- What an operation answers and reports. -/
def response (r : Registry) (op : Operation) : Response :=
  ⟨op.name, (r.perform op).answer, (r.perform op).events⟩

/-- The registry after all operations, one after the other. -/
def performAll (r : Registry) (ops : List Operation) : Registry :=
  ops.foldl (fun r op => (r.perform op).registry) r

/-- What the operations answer and report, each in the registry that those before it leave. -/
def responses (r : Registry) : List Operation → List Response
  | [] => []
  | op :: ops => r.response op :: (r.perform op).registry.responses ops

/-! ## One operation -/

variable {r r' : Registry}

theorem contains_eq_of_resolve? {name : String} (h : r.resolve? name = r'.resolve? name) :
    r.contains name = r'.contains name :=
  congrArg Option.isSome h

/-- Binding a name in two registries is answered and reported in the same way if both or neither
had it bound. -/
theorem register_congr {name : String} (h : r.contains name = r'.contains name) (value : Value) :
    (r.register name value).answer = (r'.register name value).answer ∧
      (r.register name value).events = (r'.register name value).events := by
  have hinsertion : r.bindings.insertion name = r'.bindings.insertion name :=
    congrArg (fun bound : Bool => if bound then Insertion.replaced else .added) h
  unfold register
  rw [hinsertion]
  exact ⟨rfl, rfl⟩

/-- The registry with a name bound, if there is something to bind it to. -/
def withBinding (r : Registry) (name : String) : Option Value → Registry
  | none => r
  | some value => ⟨r.bindings.insert name value⟩

theorem registry_declareFrom (r : Registry) (s : Settings) (name : String) (source : Source) :
    (r.declareFrom s name source).registry = r.withBinding name (declared? s name source) := by
  unfold declared?
  cases hrefusal : s.refusal? name source with
  | none =>
    rw [declareFrom_of_accepted hrefusal]
    rfl
  | some refusal =>
    obtain ⟨event, -, hw⟩ := declareFrom_of_refused hrefusal r
    rw [hw]
    rfl

theorem declareFrom_congr {name : String} (h : r.contains name = r'.contains name) (s : Settings)
    (source : Source) :
    (r.declareFrom s name source).answer = (r'.declareFrom s name source).answer ∧
      (r.declareFrom s name source).events = (r'.declareFrom s name source).events := by
  cases hrefusal : s.refusal? name source with
  | none =>
    rw [declareFrom_of_accepted hrefusal, declareFrom_of_accepted hrefusal, bind_events,
      bind_events]
    have hname : (declaredBy s name source).name = name := rfl
    rw [hname, (register_congr h _).2, h]
    exact ⟨rfl, rfl⟩
  | some refusal =>
    obtain ⟨event, hevent, hw⟩ := declareFrom_of_refused hrefusal r
    obtain ⟨event', hevent', hw'⟩ := declareFrom_of_refused hrefusal r'
    rw [hw, hw', hevent.unique hevent']
    exact ⟨rfl, rfl⟩

/-- **An operation binds its name** to its value, if it has one, and no other name. -/
theorem registry_perform (r : Registry) (op : Operation) :
    (r.perform op).registry = r.withBinding op.name op.value? := by
  cases op with
  | register name value => rfl
  | declare s name config => exact r.registry_declareFrom s name (.config config)
  | declareValue s name config => exact r.registry_declareFrom s name (.value config)

/-- **What an operation answers and reports** depends on whether its name is bound, and on nothing
else in the registry. -/
theorem response_congr {op : Operation} (h : r.contains op.name = r'.contains op.name) :
    r.response op = r'.response op := by
  have hsame : (r.perform op).answer = (r'.perform op).answer ∧
      (r.perform op).events = (r'.perform op).events := by
    cases op with
    | register name value =>
      have hw := register_congr h value
      exact ⟨congrArg Answer.insertion hw.1, hw.2⟩
    | declare s name config =>
      have hw := declareFrom_congr h s (.config config)
      exact ⟨congrArg Answer.declaration hw.1, hw.2⟩
    | declareValue s name config =>
      have hw := declareFrom_congr h s (.value config)
      exact ⟨congrArg Answer.declaration hw.1, hw.2⟩
  unfold response
  rw [hsame.1, hsame.2]

theorem resolve?_perform_of_ne {op : Operation} {name : String} (h : name ≠ op.name)
    (r : Registry) : (r.perform op).registry.resolve? name = r.resolve? name := by
  rw [registry_perform]
  cases op.value? with
  | none => rfl
  | some value => exact Table.get?_insert_of_ne r.bindings h value

/-- What a name is bound to after an operation depends on what it was bound to before. -/
theorem resolve?_perform_congr {name : String} (h : r.resolve? name = r'.resolve? name)
    (op : Operation) :
    (r.perform op).registry.resolve? name = (r'.perform op).registry.resolve? name := by
  by_cases hname : name = op.name
  · subst hname
    rw [registry_perform, registry_perform]
    cases op.value? with
    | none => exact h
    | some value =>
      exact (Table.get?_insert_self r.bindings op.name value).trans
        (Table.get?_insert_self r'.bindings op.name value).symm
  · rw [resolve?_perform_of_ne hname, resolve?_perform_of_ne hname, h]

/-! ## Sequences of operations -/

theorem performAll_cons (r : Registry) (op : Operation) (ops : List Operation) :
    r.performAll (op :: ops) = (r.perform op).registry.performAll ops := rfl

theorem resolve?_performAll_congr {name : String} :
    ∀ {ops : List Operation} {r r' : Registry}, r.resolve? name = r'.resolve? name →
      (r.performAll ops).resolve? name = (r'.performAll ops).resolve? name
  | [], _, _, h => h
  | op :: ops, r, r', h => by
    rw [performAll_cons, performAll_cons]
    exact resolve?_performAll_congr (resolve?_perform_congr h op)

/-- Operations are answered and reported alike wherever their names are bound alike. -/
theorem responses_congr :
    ∀ {ops : List Operation} {r r' : Registry},
      (∀ op ∈ ops, r.resolve? op.name = r'.resolve? op.name) → r.responses ops = r'.responses ops
  | [], _, _, _ => rfl
  | op :: ops, r, r', h => by
    have hhead : r.response op = r'.response op :=
      response_congr (contains_eq_of_resolve? (h op List.mem_cons_self))
    have htail : (r.perform op).registry.responses ops = (r'.perform op).registry.responses ops :=
      responses_congr fun other hother =>
        resolve?_perform_congr (h other (List.mem_cons_of_mem op hother)) op
    rw [responses, responses, hhead, htail]

/-- **A name lives by itself**: it is bound to what the operations on it alone would bind it to. -/
theorem resolve?_performAll_filter (name : String) :
    ∀ (ops : List Operation) (r : Registry),
      (r.performAll ops).resolve? name =
        (r.performAll (ops.filter (·.name = name))).resolve? name
  | [], _ => rfl
  | op :: ops, r => by
    have ih := resolve?_performAll_filter name ops (r.perform op).registry
    by_cases hname : op.name = name
    · rw [List.filter_cons_of_pos (by simpa using hname)]
      exact ih
    · rw [List.filter_cons_of_neg (by simpa using hname)]
      exact ih.trans (resolve?_performAll_congr (resolve?_perform_of_ne (Ne.symm hname) r))

/-- **A name lives by itself**: the operations on it are answered and reported as they would be
without the others. -/
theorem responses_filter (name : String) :
    ∀ (ops : List Operation) (r : Registry),
      (r.responses ops).filter (·.name = name) = r.responses (ops.filter (·.name = name))
  | [], _ => rfl
  | op :: ops, r => by
    have ih := responses_filter name ops (r.perform op).registry
    by_cases hname : op.name = name
    · rw [List.filter_cons_of_pos (by simpa using hname), responses, responses,
        List.filter_cons_of_pos (by exact decide_eq_true hname), ih]
    · rw [List.filter_cons_of_neg (by simpa using hname), responses,
        List.filter_cons_of_neg (by exact fun h => hname (of_decide_eq_true h)), ih]
      -- without the operation the name is bound as it is with it
      refine responses_congr fun other hother => ?_
      obtain rfl : other.name = name := of_decide_eq_true (List.mem_filter.mp hother).2
      exact resolve?_perform_of_ne (Ne.symm hname) r

/-- Operations leave the names that are bound where they are, and add new ones, each once. -/
theorem exists_fresh_keys :
    ∀ (ops : List Operation) (r : Registry), ∃ fresh,
      (r.performAll ops).bindings.keys = r.bindings.keys ++ fresh ∧ fresh.Nodup ∧
        ∀ name ∈ fresh, name ∉ r.bindings.keys
  | [], r => ⟨[], (List.append_nil _).symm, .nil, nofun⟩
  | op :: ops, r => by
    obtain ⟨fresh, hkeys, hnodup, hfresh⟩ := exists_fresh_keys ops (r.perform op).registry
    -- one operation adds its own name, or it adds nothing
    have hstep : (r.perform op).registry.bindings.keys = r.bindings.keys ∨
        op.name ∉ r.bindings.keys ∧
          (r.perform op).registry.bindings.keys = r.bindings.keys ++ [op.name] := by
      rw [registry_perform]
      cases op.value? with
      | none => exact .inl rfl
      | some value =>
        by_cases hmem : op.name ∈ r.bindings.keys
        · exact .inl (Table.keys_insert_of_mem _ value hmem)
        · exact .inr ⟨hmem, Table.keys_insert_of_not_mem _ value hmem⟩
    rcases hstep with hsame | ⟨hnew, hadded⟩
    · rw [hsame] at hkeys hfresh
      exact ⟨fresh, hkeys, hnodup, hfresh⟩
    · rw [hadded] at hkeys hfresh
      refine ⟨op.name :: fresh, hkeys.trans (List.append_assoc _ [op.name] fresh), ?_, ?_⟩
      · refine List.nodup_cons.mpr ⟨fun hmem => hfresh op.name hmem ?_, hnodup⟩
        exact List.mem_append_right _ (List.mem_singleton.mpr rfl)
      · intro name hname
        rcases List.mem_cons.mp hname with rfl | hname
        · exact hnew
        · exact fun hmem => hfresh name hname (List.mem_append_left _ hmem)

/-! ## Registries that cannot be told apart -/

/-- Whatever is asked and whatever is written later, the two registries answer and report the
same. -/
structure Alike (r r' : Registry) : Prop where
  resolve : ∀ name, r.resolve? name = r'.resolve? name
  contains : ∀ name, r.contains name = r'.contains name
  names : r.names = r'.names
  size : r.size = r'.size
  isEmpty : r.isEmpty = r'.isEmpty
  summary : r.summary = r'.summary
  interface : ∀ name, r.interface? name = r'.interface? name
  checkNamed : ∀ name target, r.checkNamed name target = r'.checkNamed name target
  later : ∀ ops, r.responses ops = r'.responses ops

/-- Registries with the same names, each bound to the same, are alike in whatever order their names
came. -/
theorem Alike.of_resolve? (h : ∀ name, r.resolve? name = r'.resolve? name)
    (hkeys : r.bindings.keys.Perm r'.bindings.keys) : r.Alike r' := by
  have hsize : r.size = r'.size := by
    have hlength := hkeys.length_eq
    unfold Table.keys at hlength
    rwa [List.length_map, List.length_map] at hlength
  have hinterface : ∀ name, r.interface? name = r'.interface? name := by
    intro name
    rw [interface?_eq, interface?_eq, h]
  refine ⟨h, fun name => contains_eq_of_resolve? (h name), Table.sortedKeys_eq_of_perm hkeys,
    hsize, ?_, ?_, hinterface, fun name target => ?_, fun ops => responses_congr fun op _ => h _⟩
  · unfold Registry.isEmpty
    rw [hsize]
  · unfold Registry.summary
    rw [hsize]
  · unfold Registry.checkNamed
    rw [hinterface]

/-- **Only the order of the operations on each name counts** for what a registry becomes. -/
theorem alike_performAll {ops ops' : List Operation}
    (h : ∀ name, ops.filter (·.name = name) = ops'.filter (·.name = name))
    (hresolve : ∀ name, r.resolve? name = r'.resolve? name)
    (hkeys : r.bindings.keys.Perm r'.bindings.keys) :
    (r.performAll ops).Alike (r'.performAll ops') := by
  have hafter : ∀ name, (r.performAll ops).resolve? name = (r'.performAll ops').resolve? name := by
    intro name
    rw [resolve?_performAll_filter, h, resolve?_performAll_congr (hresolve name),
      ← resolve?_performAll_filter]
  refine .of_resolve? hafter ?_
  obtain ⟨fresh, hall, hnodup, hfresh⟩ := exists_fresh_keys ops r
  obtain ⟨fresh', hall', hnodup', hfresh'⟩ := exists_fresh_keys ops' r'
  have hbound : ∀ name, name ∈ r.bindings.keys ++ fresh ↔ name ∈ r'.bindings.keys ++ fresh' := by
    intro name
    rw [← hall, ← hall', ← Table.contains_iff, ← Table.contains_iff]
    exact Bool.eq_iff_iff.mp (contains_eq_of_resolve? (hafter name))
  -- the names that are new are the same in both, since the old ones are
  have hnew : ∀ name, name ∈ fresh ↔ name ∈ fresh' := by
    intro name
    constructor
    · intro hname
      have hmem := (hbound name).mp (List.mem_append_right _ hname)
      exact (List.mem_append.mp hmem).resolve_left fun hold =>
        hfresh name hname (hkeys.mem_iff.mpr hold)
    · intro hname
      have hmem := (hbound name).mpr (List.mem_append_right _ hname)
      exact (List.mem_append.mp hmem).resolve_left fun hold =>
        hfresh' name hname (hkeys.mem_iff.mp hold)
  rw [hall, hall']
  exact hkeys.append ((List.perm_ext_iff_of_nodup hnodup hnodup').mpr hnew)

/-- Alike registries stay alike under the same operations. -/
theorem Alike.performAll (h : r.Alike r') (ops : List Operation) :
    (r.performAll ops).Alike (r'.performAll ops) := by
  refine alike_performAll (fun _ => rfl) h.resolve ?_
  have hnames : r.bindings.sortedKeys = r'.bindings.sortedKeys := h.names
  exact r.bindings.sortedKeys_perm.symm.trans (hnames ▸ r'.bindings.sortedKeys_perm)

/-- **Writes to different names commute**, in every registry:

1. two operations on different names, each through whatever settings, answer and report the same in
   either order, and lead to registries that are alike;
2. if two sequences of operations contain the same operations on each name in the same order, then
   these answer and report the same in both, name by name, and the registries they lead to are
   alike;
3. registries that are alike stay so, whatever is written to both. -/
theorem writes_commute (r : Registry) :
    (∀ a b : Operation, a.name ≠ b.name →
      (r.perform b).registry.response a = r.response a ∧
      (r.perform a).registry.response b = r.response b ∧
      ((r.perform a).registry.perform b).registry.Alike
        ((r.perform b).registry.perform a).registry) ∧
    (∀ ops ops' : List Operation,
      (∀ name, ops.filter (·.name = name) = ops'.filter (·.name = name)) →
      (∀ name, (r.responses ops).filter (·.name = name) =
        (r.responses ops').filter (·.name = name)) ∧
      (r.performAll ops).Alike (r.performAll ops')) ∧
    ∀ r' : Registry, r.Alike r' →
      ∀ ops : List Operation, (r.performAll ops).Alike (r'.performAll ops) := by
  refine ⟨fun a b hne => ⟨?_, ?_, ?_⟩, fun ops ops' h => ⟨fun name => ?_, ?_⟩,
    fun r' h ops => h.performAll ops⟩
  · exact response_congr (contains_eq_of_resolve? (resolve?_perform_of_ne hne r))
  · exact response_congr (contains_eq_of_resolve? (resolve?_perform_of_ne hne.symm r))
  · -- on each name at most one of the two operations works
    have h : ∀ name, [a, b].filter (·.name = name) = [b, a].filter (·.name = name) := by
      intro name
      by_cases ha : a.name = name
      · have hb : ¬ b.name = name := fun hb => hne (ha.trans hb.symm)
        simp [ha, hb]
      · simp [ha, List.filter_cons]
    exact alike_performAll h (fun _ => rfl) (.refl _)
  · rw [responses_filter, responses_filter, h]
  · exact alike_performAll h (fun _ => rfl) (.refl _)

/-- Two declarations of one name and two operations on a prefix of it, the last of them refused:
the two on each name keep their order, and the two names change places. -/
theorem writes_commute_prefix :
    let shape : List Operation := [.declare (.standard true) "geo.Shape" { events := some .null },
      .declareValue (.standard false) "geo.Shape" .undefined]
    let geo : List Operation :=
      [.register "geo" (.bool true), .declareValue (.standard true) "geo" (.array [])]
    let r : Registry := ⟨.ofList [("geo.Disc", .null)]⟩
    (∀ name, (shape ++ geo).filter (·.name = name) = (geo ++ shape).filter (·.name = name)) ∧
      (r.responses (shape ++ geo)).map (·.name) = ["geo.Shape", "geo.Shape", "geo", "geo"] ∧
      (r.performAll (shape ++ geo)).bindings.keys = ["geo.Disc", "geo.Shape", "geo"] ∧
      (r.performAll (geo ++ shape)).bindings.keys = ["geo.Disc", "geo", "geo.Shape"] ∧
      (r.performAll (shape ++ geo)).Alike (r.performAll (geo ++ shape)) := by
  intro shape geo r
  have hshape : ∀ op ∈ shape, op.name = "geo.Shape" := by simp [shape, Operation.name]
  have hgeo : ∀ op ∈ geo, op.name = "geo" := by simp [geo, Operation.name]
  have h : ∀ name,
      (shape ++ geo).filter (·.name = name) = (geo ++ shape).filter (·.name = name) := by
    intro name
    rw [List.filter_append, List.filter_append]
    by_cases hname : name = "geo"
    · have hnone : shape.filter (·.name = name) = [] := by
        refine List.filter_eq_nil_iff.mpr fun op hop => ?_
        simp [hshape op hop, hname]
      rw [hnone, List.nil_append, List.append_nil]
    · have hnone : geo.filter (·.name = name) = [] := by
        refine List.filter_eq_nil_iff.mpr fun op hop => ?_
        simp [hgeo op hop, Ne.symm hname]
      rw [hnone, List.nil_append, List.append_nil]
  exact ⟨h, rfl, rfl, rfl, ((writes_commute r).2.1 _ _ h).2⟩

end Registry

end InterfaceCheck
