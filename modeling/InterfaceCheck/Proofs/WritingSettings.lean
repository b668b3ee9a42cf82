import InterfaceCheck.Proofs.ReadingSettings
import InterfaceCheck.Proofs.Toml.Layouts
/-!
# Settings are read as they were written

A document that sets `debug`, `strict-arity`, both or none of them gives just these settings and the
defaults for the others, in whatever order and with whatever layout they were written
(`Settings.ofToml_layout`). Its table is the list of what it sets, and settings are read from that.
-/

namespace InterfaceCheck.Settings

open Toml

/-- What a document sets that gives a value to some of the settings. -/
def flags (debug strictArity : Option Bool) : List (String × Bool) :=
  debug.toList.map ("debug", ·) ++ strictArity.toList.map ("strict-arity", ·)

variable {debug strictArity : Option Bool}

theorem nodup_flags : ((flags debug strictArity).map (·.1)).Nodup := by
  cases debug <;> cases strictArity <;> simp [flags]

theorem mem_keys_of_mem_flags {f : String × Bool} (h : f ∈ flags debug strictArity) :
    f.1 ∈ keys := by
  obtain h | h := List.mem_append.mp h <;> obtain ⟨b, -, rfl⟩ := List.mem_map.mp h
  · exact List.mem_cons_self
  · exact List.mem_cons_of_mem _ List.mem_cons_self

theorem debug_mem_flags_iff {b : Bool} :
    ("debug", b) ∈ flags debug strictArity ↔ debug = some b := by
  simp [flags]

theorem strictArity_mem_flags_iff {b : Bool} :
    ("strict-arity", b) ∈ flags debug strictArity ↔ strictArity = some b := by
  simp [flags]

/-- A flag has the value that it was given, or the default if it was given none. -/
theorem flagOf_flags {given : List (String × Bool)} {key : String} {choice : Option Bool}
    (h : ∀ b, (key, b) ∈ given ↔ choice = some b) (default : Bool) :
    FlagOf ⟨given.map flagEntry⟩ key default (choice.getD default) := by
  cases choice with
  | some b => exact .inl (List.mem_map_of_mem ((h b).mpr rfl))
  | none =>
    refine .inr ⟨fun hkey => ?_, rfl⟩
    rw [Table.keys, List.map_map] at hkey
    obtain ⟨⟨key', b⟩, hmem, rfl⟩ := List.mem_map.mp hkey
    exact absurd ((h b).mp hmem).symm (Option.some_ne_none b)

/-- **Settings are read as they were written**, by every lawful library and so by the reader of this
development: whatever the layout of a document, if it sets the settings that are given, in one order
or the other, and nothing else, then these are read, with the default for each setting that is not
given. -/
theorem ofToml_layout (layout : Layout) (debug strictArity : Option Bool) (defaults : Settings)
    (h : layout.flags.Perm (flags debug strictArity)) :
    (∀ L : Library, L.Lawful → read L defaults layout.text = .ok
      { debug := debug.getD defaults.debug
        strictArity := strictArity.getD defaults.strictArity }) ∧
    ofToml layout.text defaults = .ok
      { debug := debug.getD defaults.debug
        strictArity := strictArity.getD defaults.strictArity } := by
  have hnodup : (layout.flags.map (·.1)).Nodup := (h.map (·.1)).nodup_iff.mpr nodup_flags
  have hread : ∀ L : Library, L.Lawful → read L defaults layout.text = .ok
      { debug := debug.getD defaults.debug
        strictArity := strictArity.getD defaults.strictArity } := by
    intro L hL
    refine (read_eq_ok_iff hL (layout.denotes hnodup)).mpr ⟨fun key node hmem => ?_, ?_, ?_⟩
    · obtain ⟨f, hf, heq⟩ := List.mem_map.mp hmem
      obtain ⟨rfl, rfl⟩ := Prod.mk.inj heq
      exact ⟨mem_keys_of_mem_flags (h.mem_iff.mp hf), f.2, rfl⟩
    · exact flagOf_flags (fun b => h.mem_iff.trans debug_mem_flags_iff) _
    · exact flagOf_flags (fun b => h.mem_iff.trans strictArity_mem_flags_iff) _
  exact ⟨hread, hread .plain Library.plain_lawful⟩

/-- A layout with a comment that looks like a heading, a blank line, the two settings in reverse
order behind a line end of either kind, and no line end at the end. -/
def crowdedLayout : Layout where
  lines :=
    [(⟨⟨['\t'], by decide⟩, none, some ⟨" [debug] = \"on\" # 'off'".toList, by decide⟩⟩, .crlf),
     (⟨⟨[' '], by decide⟩, none, none⟩, .crlf),
     (⟨⟨[' ', '\t'], by decide⟩,
       some
        { key := "strict-arity", value := true
          beforeSign := ⟨['\t'], by decide⟩, afterSign := ⟨[' ', ' '], by decide⟩
          afterValue := ⟨[' ', '\t'], by decide⟩, nonempty := by decide, bare := by decide },
       some ⟨"strict-arity = false".toList, by decide⟩⟩, .lf)]
  last :=
    ⟨⟨[], by decide⟩,
      some
        { key := "debug", value := false
          beforeSign := ⟨[], by decide⟩, afterSign := ⟨[], by decide⟩
          afterValue := ⟨[], by decide⟩, nonempty := by decide, bare := by decide },
      some ⟨"\"".toList, by decide⟩⟩

theorem ofToml_layout_crowded :
    crowdedLayout.flags.Perm (flags (some false) (some true)) ∧
      ofToml ("\t# [debug] = \"on\" # 'off'\r\n \r\n" ++
          " \tstrict-arity\t=  true \t#strict-arity = false\n" ++ "debug=false#\"") =
        .ok { debug := false, strictArity := true } := by
  have hflags : crowdedLayout.flags.Perm (flags (some false) (some true)) := by decide
  have htext : crowdedLayout.text = "\t# [debug] = \"on\" # 'off'\r\n \r\n" ++
      " \tstrict-arity\t=  true \t#strict-arity = false\n" ++ "debug=false#\"" := by
    decide
  have hread := ofToml_layout crowdedLayout (some false) (some true) (.standard true) hflags
  exact ⟨hflags, htext ▸ hread.2⟩

end InterfaceCheck.Settings
