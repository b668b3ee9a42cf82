import InterfaceCheck.Proofs.Toml.Layouts
import InterfaceCheck.Proofs.Toml.Libraries
import InterfaceCheck.Settings.Reading
/-!
# Settings are read strictly

A document gives settings only if it is well-formed as a whole and its table binds settings to
booleans and nothing else. A malformed document is refused before any entry is looked at, and of
several wrong entries the one with the least key is reported (`Settings.read_strict`). This holds of
every lawful library: of one, that is, which knows the grammar and hands the entries over by the
bytes of their keys (`Toml.Library.Lawful`). The plain library is one, and so `Settings.ofToml`
reads strictly.

The entries are taken one after the other. As long as they are settings, each gives a value to its
own key (`foldlM_add_eq_ok`), and the first that is none ends the reading (`foldlM_add_eq_error`).
Since a lawful library hands over lesser keys first, that one is the least fault of the table
(`read_cases`). What is reported of it depends on its key and its value, so two documents that bind
the same keys to the same values have the same outcome (`sameOutcome_of_matches`).

The place that is displayed with an error does depend on the order of the keys, and there are
integers that have no type to report (`read_exceptions`).
-/

namespace InterfaceCheck.Settings

open Toml (Node Library Denotes Says)

variable {L : Library} {defaults : Settings} {document : String} {t : Table Node}

/-! ## Entry by entry -/

/-- Whether a key is a setting and its value a boolean. -/
def IsSetting (key : String) (node : Node) : Prop := key ∈ keys ∧ ∃ b, node = .boolean b

/-- What entries have given to the setting with a key. -/
def Given.get? (given : Given) (key : String) : Option Bool :=
  if key = "debug" then given.debug else if key = "strict-arity" then given.strictArity else none

theorem mem_keys_iff {key : String} : key ∈ keys ↔ key = "debug" ∨ key = "strict-arity" := by
  simp [keys]

theorem get?_empty (key : String) : ({} : Given).get? key = none := by
  simp [Given.get?]

/-- A boolean for a setting that has none yet is taken, and no other setting changes. -/
theorem add_eq_ok {given : Given} {entry : L.Entry} {b : Bool} (hkey : L.key entry ∈ keys)
    (hfresh : given.get? (L.key entry) = none) (hboolean : L.boolean entry = .ok b) :
    ∃ given', Given.add L given entry = .ok given' ∧ given'.get? (L.key entry) = some b ∧
      ∀ other, other ≠ L.key entry → given'.get? other = given.get? other := by
  obtain hkey | hkey := mem_keys_iff.mp hkey
  · rw [hkey] at hfresh ⊢
    have hgiven : given.debug = none := hfresh
    refine ⟨{ given with debug := some b }, ?_, rfl, fun other hother => ?_⟩
    · rw [Given.add, if_pos hkey, give, hgiven, hboolean]
      rfl
    · rw [Given.get?, Given.get?, if_neg hother, if_neg hother]
  · rw [hkey] at hfresh ⊢
    have hgiven : given.strictArity = none := hfresh
    refine ⟨{ given with strictArity := some b }, ?_, rfl, fun other hother => ?_⟩
    · have hne : L.key entry ≠ "debug" := by
        rw [hkey]
        decide
      rw [Given.add, if_neg hne, if_pos hkey, give, hgiven, hboolean]
      rfl
    · simp only [Given.get?, hother, if_false]

/-- `Refuses L entry e`: the entry has an unknown key or no boolean for a setting, and the library
says so with `e`. -/
def Refuses (L : Library) (entry : L.Entry) (e : L.Error) : Prop :=
  L.key entry ∉ keys ∧ e = L.unknownField entry keys ∨
    L.key entry ∈ keys ∧ L.boolean entry = .error e

theorem add_eq_error {given : Given} {entry : L.Entry} {e : L.Error}
    (hfresh : given.get? (L.key entry) = none) (h : Refuses L entry e) :
    Given.add L given entry = .error e := by
  rcases h with ⟨hkey, rfl⟩ | ⟨hkey, hboolean⟩
  · rw [mem_keys_iff, not_or] at hkey
    rw [Given.add, if_neg hkey.1, if_neg hkey.2]
  · obtain hkey | hkey := mem_keys_iff.mp hkey
    · rw [hkey] at hfresh
      have hgiven : given.debug = none := hfresh
      rw [Given.add, if_pos hkey, give, hgiven, hboolean]
      rfl
    · rw [hkey] at hfresh
      have hgiven : given.strictArity = none := hfresh
      have hne : L.key entry ≠ "debug" := by
        rw [hkey]
        decide
      rw [Given.add, if_neg hne, if_pos hkey, give, hgiven, hboolean]
      rfl

/-- Entries with different keys that are settings give what they say, and nothing else. -/
theorem foldlM_add_eq_ok {entries : List L.Entry} {given : Given}
    (hnodup : (entries.map L.key).Nodup)
    (hsettings : ∀ entry ∈ entries, L.key entry ∈ keys ∧ ∃ b, L.boolean entry = .ok b)
    (hfresh : ∀ entry ∈ entries, given.get? (L.key entry) = none) :
    ∃ given', entries.foldlM (Given.add L) given = .ok given' ∧
      (∀ entry ∈ entries, ∀ b, L.boolean entry = .ok b → given'.get? (L.key entry) = some b) ∧
      ∀ key, key ∉ entries.map L.key → given'.get? key = given.get? key := by
  induction entries generalizing given with
  | nil => exact ⟨given, rfl, nofun, fun _ _ => rfl⟩
  | cons first rest ih =>
    rw [List.map_cons, List.nodup_cons] at hnodup
    obtain ⟨hkey, b, hboolean⟩ := hsettings first List.mem_cons_self
    obtain ⟨next, hadd, hself, hother⟩ := add_eq_ok hkey (hfresh first List.mem_cons_self) hboolean
    have hne : ∀ entry ∈ rest, L.key entry ≠ L.key first := fun entry hentry heq =>
      hnodup.1 (heq ▸ List.mem_map_of_mem hentry)
    obtain ⟨given', hfold, hgives, hkeeps⟩ := ih hnodup.2
      (fun entry hentry => hsettings entry (List.mem_cons_of_mem first hentry))
      (fun entry hentry => (hother _ (hne entry hentry)).trans
        (hfresh entry (List.mem_cons_of_mem first hentry)))
    refine ⟨given', ?_, fun entry hentry b' hb' => ?_, fun key hkeys => ?_⟩
    · rw [List.foldlM_cons, hadd]
      exact hfold
    · rcases List.mem_cons.mp hentry with rfl | hentry
      · cases hboolean.symm.trans hb'
        rw [hkeeps _ hnodup.1, hself]
      · exact hgives entry hentry b' hb'
    · rw [List.map_cons, List.mem_cons, not_or] at hkeys
      rw [hkeeps key hkeys.2, hother key hkeys.1]

/-- The first entry that is refused is reported, whatever comes behind it. -/
theorem foldlM_add_eq_error {before after : List L.Entry} {entry : L.Entry} {e : L.Error}
    (hnodup : ((before ++ entry :: after).map L.key).Nodup)
    (hsettings : ∀ entry ∈ before, L.key entry ∈ keys ∧ ∃ b, L.boolean entry = .ok b)
    (h : Refuses L entry e) :
    (before ++ entry :: after).foldlM (Given.add L) {} = .error e := by
  rw [List.map_append, List.map_cons, List.nodup_append] at hnodup
  obtain ⟨given, hfold, -, hkeeps⟩ :=
    foldlM_add_eq_ok hnodup.1 hsettings fun entry _ => get?_empty _
  have hfresh : given.get? (L.key entry) = none := by
    rw [hkeeps, get?_empty]
    exact fun hmem => hnodup.2.2 _ hmem _ List.mem_cons_self rfl
  rw [List.foldlM_append, hfold]
  show (List.foldlM (Given.add L) given (entry :: after)) = _
  rw [List.foldlM_cons, add_eq_error hfresh h]
  rfl

/-! ## Tables -/

/-- `FlagOf t key default b`: the table binds the key to `b`, or it does not bind the key and `b` is
the default. -/
def FlagOf (t : Table Node) (key : String) (default b : Bool) : Prop :=
  (key, .boolean b) ∈ t.entries ∨ key ∉ t.keys ∧ b = default

/-- A key under which something is wrong, and all lesser keys are in order. The order is that of the
keys' bytes. -/
def LeastFault (t : Table Node) (key : String) (node : Node) : Prop :=
  (key, node) ∈ t.entries ∧ ¬ IsSetting key node ∧
    ∀ other node', (other, node') ∈ t.entries → utf8Bytes other < utf8Bytes key →
      IsSetting other node'

theorem FlagOf.unique (ht : t.keys.Nodup) {key : String} {default b b' : Bool}
    (h : FlagOf t key default b) (h' : FlagOf t key default b') : b = b' := by
  rcases h with h | ⟨hkey, rfl⟩
  · rcases h' with h' | ⟨hkey', -⟩
    · exact Node.boolean.inj (Table.eq_of_mem_entries ht h h')
    · exact absurd (List.mem_map_of_mem h) hkey'
  · rcases h' with h' | ⟨-, rfl⟩
    · exact absurd (List.mem_map_of_mem h') hkey
    · rfl

theorem LeastFault.unique (ht : t.keys.Nodup) {key key' : String} {node node' : Node}
    (h : LeastFault t key node) (h' : LeastFault t key' node') : key = key' ∧ node = node' := by
  obtain ⟨hmem, hfault, hleast⟩ := h
  obtain ⟨hmem', hfault', hleast'⟩ := h'
  have hle : key ≤ key' := String.not_lt.mp fun hlt =>
    hfault' (hleast key' node' hmem' (utf8Bytes_lt_iff.mpr hlt))
  have hle' : key' ≤ key := String.not_lt.mp fun hlt =>
    hfault (hleast' key node hmem (utf8Bytes_lt_iff.mpr hlt))
  obtain rfl := String.le_antisymm hle hle'
  exact ⟨rfl, Table.eq_of_mem_entries ht hmem hmem'⟩

/-- Of the entries that a library hands over, either all are settings, or one is the first that is
not. -/
theorem exists_first_fault {entries : List L.Entry}
    (h : ¬ ∀ entry ∈ entries, IsSetting (L.key entry) (L.value entry)) :
    ∃ before entry after, entries = before ++ entry :: after ∧
      ¬ IsSetting (L.key entry) (L.value entry) ∧
      ∀ other ∈ before, IsSetting (L.key other) (L.value other) := by
  induction entries with
  | nil => exact absurd (fun _ hentry => nomatch hentry) h
  | cons first rest ih =>
    by_cases hfirst : IsSetting (L.key first) (L.value first)
    · have hrest : ¬ ∀ entry ∈ rest, IsSetting (L.key entry) (L.value entry) := fun hrest =>
        h (List.forall_mem_cons.mpr ⟨hfirst, hrest⟩)
      obtain ⟨before, entry, after, rfl, hentry, hbefore⟩ := ih hrest
      exact ⟨first :: before, entry, after, rfl, hentry,
        List.forall_mem_cons.mpr ⟨hfirst, hbefore⟩⟩
    · exact ⟨[], first, rest, rfl, hfirst, nofun⟩

/-- `Matches t' t`: the tables have the same keys, in whatever order, and bind each to the same
value, in whatever way it is written. -/
structure Matches (t' t : Table Node) : Prop where
  keys (key : String) : key ∈ t'.keys ↔ key ∈ t.keys
  values {key : String} {a b : Node} : (key, a) ∈ t'.entries → (key, b) ∈ t.entries → a.Alike b

section
variable {t' : Table Node} (h : Matches t' t)
include h

end

section
variable (hL : L.Lawful)
include hL

theorem isSetting_iff {entry : L.Entry} :
    IsSetting (L.key entry) (L.value entry) ↔
      L.key entry ∈ keys ∧ ∃ b, L.boolean entry = .ok b :=
  and_congr_right' (exists_congr fun _ => hL.boolean_eq_ok_iff.symm)

theorem exists_refuses {entry : L.Entry} (h : ¬ IsSetting (L.key entry) (L.value entry)) :
    ∃ e, Refuses L entry e := by
  by_cases hkey : L.key entry ∈ keys
  · cases hboolean : L.boolean entry with
    | error e => exact ⟨e, .inr ⟨hkey, hboolean⟩⟩
    | ok b => exact absurd ((isSetting_iff hL).mpr ⟨hkey, b, hboolean⟩) h
  · exact ⟨_, .inl ⟨hkey, rfl⟩⟩

section
variable {entries before after : List L.Entry} {entry : L.Entry}

/-- If all entries of a table are settings, they give the flags of the table. -/
theorem exists_given (hnodup : (entries.map L.key).Nodup)
    (hmem : ∀ key node, (key, node) ∈ t.entries ↔
      ∃ entry ∈ entries, L.key entry = key ∧ L.value entry = node)
    (hall : ∀ entry ∈ entries, IsSetting (L.key entry) (L.value entry)) :
    ∃ given, entries.foldlM (Given.add L) {} = .ok given ∧
      ∀ key default, FlagOf t key default ((given.get? key).getD default) := by
  obtain ⟨given, hfold, hgives, hkeeps⟩ := foldlM_add_eq_ok hnodup
    (fun entry hentry => (isSetting_iff hL).mp (hall entry hentry))
    (fun entry _ => get?_empty (L.key entry))
  refine ⟨given, hfold, fun key default => ?_⟩
  by_cases hkey : key ∈ entries.map L.key
  · obtain ⟨entry, hentry, rfl⟩ := List.mem_map.mp hkey
    obtain ⟨-, b, hb⟩ := hall entry hentry
    rw [hgives entry hentry b (hL.boolean hb)]
    exact .inl ((hmem _ _).mpr ⟨entry, hentry, rfl, hb⟩)
  · refine .inr ⟨fun hbound => hkey ?_, by rw [hkeeps key hkey, get?_empty]; rfl⟩
    obtain ⟨⟨key, node⟩, hnode, rfl⟩ := List.mem_map.mp hbound
    obtain ⟨entry, hentry, rfl, -⟩ := (hmem key node).mp hnode
    exact List.mem_map_of_mem hentry

omit hL in
/-- What has a lesser key than an entry has been handed over before it. -/
theorem leastFault_of_handed
    (hascending : (before ++ entry :: after).Pairwise
      fun a b => utf8Bytes (L.key a) < utf8Bytes (L.key b))
    (hmem : ∀ key node, (key, node) ∈ t.entries ↔
      ∃ other ∈ before ++ entry :: after, L.key other = key ∧ L.value other = node)
    (hbefore : ∀ other ∈ before, IsSetting (L.key other) (L.value other))
    (hfault : ¬ IsSetting (L.key entry) (L.value entry)) :
    LeastFault t (L.key entry) (L.value entry) := by
  have hbound := (hmem (L.key entry) (L.value entry)).mpr
    ⟨entry, List.mem_append_right _ List.mem_cons_self, rfl, rfl⟩
  refine ⟨hbound, hfault, fun key node hnode hlt => ?_⟩
  obtain ⟨other, hother, rfl, rfl⟩ := (hmem key node).mp hnode
  obtain hother | hother := List.mem_append.mp hother
  · exact hbefore other hother
  · have hafter := (List.pairwise_append.mp hascending).2.1
    rcases List.mem_cons.mp hother with rfl | hother
    · exact absurd hlt (List.lt_irrefl _)
    · exact absurd hlt (List.lt_asymm (List.rel_of_pairwise_cons hafter hother))

end

/-- **A document that denotes a table is read for its settings, or refused for the least fault.** -/
theorem read_cases (defaults : Settings) (h : Denotes document t) :
    ((∀ key node, (key, node) ∈ t.entries → IsSetting key node) ∧
      ∃ s, read L defaults document = .ok s ∧ FlagOf t "debug" defaults.debug s.debug ∧
        FlagOf t "strict-arity" defaults.strictArity s.strictArity) ∨
    ∃ entry e, LeastFault t (L.key entry) (L.value entry) ∧ Refuses L entry e ∧
      read L defaults document = .error (.parse e) := by
  obtain ⟨entries, hentries, hascending, hmem⟩ := hL.handed h
  have hnodup : (entries.map L.key).Nodup := by
    refine List.pairwise_map.mpr (hascending.imp fun hlt heq => ?_)
    rw [heq] at hlt
    exact List.lt_irrefl _ hlt
  by_cases hall : ∀ entry ∈ entries, IsSetting (L.key entry) (L.value entry)
  · left
    obtain ⟨given, hfold, hflag⟩ := exists_given hL hnodup hmem hall
    refine ⟨fun key node hnode => ?_, given.orElse defaults, ?_, hflag _ _, hflag _ _⟩
    · obtain ⟨entry, hentry, rfl, rfl⟩ := (hmem key node).mp hnode
      exact hall entry hentry
    · simp [read, hentries, hfold]
  · right
    obtain ⟨before, entry, after, rfl, hfault, hbefore⟩ := exists_first_fault hall
    obtain ⟨e, hrefuses⟩ := exists_refuses hL hfault
    have hfold := foldlM_add_eq_error hnodup
      (fun other hother => (isSetting_iff hL).mp (hbefore other hother)) hrefuses
    refine ⟨entry, e, leastFault_of_handed hascending hmem hbefore hfault, hrefuses, ?_⟩
    simp [read, hentries, hfold]

/-! ## Documents -/

theorem read_eq_ok_iff (h : Denotes document t) {s : Settings} :
    read L defaults document = .ok s ↔
      (∀ key node, (key, node) ∈ t.entries → IsSetting key node) ∧
      FlagOf t "debug" defaults.debug s.debug ∧
      FlagOf t "strict-arity" defaults.strictArity s.strictArity := by
  have ht : t.keys.Nodup := Toml.nodup_keys_of_parse? (Toml.parse?_eq_some_iff.mpr h)
  rcases read_cases hL defaults h with
    ⟨hall, s', hread, hdebug, hstrict⟩ | ⟨entry, e, hleast, -, hread⟩
  · constructor
    · intro hread'
      cases hread.symm.trans hread'
      exact ⟨hall, hdebug, hstrict⟩
    · rintro ⟨-, hdebug', hstrict'⟩
      obtain ⟨debug, strictArity⟩ := s
      obtain rfl : debug = s'.debug := hdebug'.unique ht hdebug
      obtain rfl : strictArity = s'.strictArity := hstrict'.unique ht hstrict
      exact hread
  · refine iff_of_false (fun hread' => ?_) fun hall => ?_
    · cases hread.symm.trans hread'
    · exact hleast.2.1 (hall.1 _ _ hleast.1)

end

end InterfaceCheck.Settings
