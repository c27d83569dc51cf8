import TrapStub.Proofs.Survey.Walk

/-!
# Constants that are carried over

A macro is carried over when every identifier of its body is known by then: as an enumerator or a typedef that
the walk has found, as a name of common headers, or as a macro that is carried over itself.

* `Findings.Accounted`: the invariant of what constants rely on. The enumerators that are noted are those of the
  table, and no two macros share a name. `Source.Surveys.accounted`: it holds after both passes.
* `carriedMacros`: the macros behind the constants. `mem_carried`: **what the identifiers of such a macro are.**
* `Source.carried`, `Source.interface_carried`: those of a source, and what their identifiers are in its table.
-/

namespace TrapStub

variable {s t : Findings} {m : Macro} {macros waiting : List Macro} {known names : List Text} {name : Text}

/-! ## What the walk notes -/

theorem Macro.map_name_insert (macros : List Macro) (m : Macro) :
    (Macro.insert macros m).map Macro.name =
      if m.name ∈ macros.map Macro.name then macros.map Macro.name else macros.map Macro.name ++ [m.name] := by
  have hany : (macros.any fun other => other.name == m.name) = true ↔ m.name ∈ macros.map Macro.name := by
    simp
  unfold Macro.insert
  by_cases hm : m.name ∈ macros.map Macro.name
  · -- the later macro takes the place of the earlier one, under the same name
    rw [if_pos (hany.2 hm), if_pos hm, List.map_map]
    refine List.map_congr_left fun other _ => ?_
    by_cases hname : other.name = m.name
    · simp [hname]
    · simp [hname]
  · rw [if_neg (mt hany.1 hm), if_neg hm, List.map_append, List.map_singleton]

theorem Macro.insert_nodup (h : (macros.map Macro.name).Nodup) (m : Macro) :
    ((Macro.insert macros m).map Macro.name).Nodup := by
  rw [Macro.map_name_insert]
  split
  · exact h
  · next hm =>
    rw [← List.concat_eq_append]
    exact h.concat hm

/-- What constants rely on is accounted for. -/
structure Findings.Accounted (s : Findings) : Prop where
  keys : s.table.keys.Nodup
  /-- Every enumerator that is noted is one of the table. -/
  enumerators : ∀ name ∈ s.enumerators, ∃ d ∈ s.table.entries, name ∈ d.enumerators
  macros : (s.macros.map Macro.name).Nodup

namespace Findings.Accounted

theorem empty : Findings.empty.Accounted :=
  ⟨List.nodup_nil, fun _ hname => absurd hname List.not_mem_nil, List.nodup_nil⟩

theorem register {d stored : TypeDef} {table : TypeTable} (hs : s.Accounted)
    (hr : s.table.register d = .ok (table, stored)) : ({ s with table } : Findings).Accounted := by
  have hcases := TypeTable.register_cases hr
  refine ⟨hcases.keys_nodup hs.keys, fun name hname => ?_, hs.macros⟩
  obtain ⟨d, hd, hmem⟩ := hs.enumerators name hname
  exact hcases.enumerators hs.keys (Or.inl hd) hmem

/-- An enum enters the table together with the note of its enumerators. -/
theorem enumerate {e : Enumeration} {stored : TypeDef} {table : TypeTable} (hs : s.Accounted)
    (hr : s.table.register (.enumeration e) = .ok (table, stored)) :
    ({ s with enumerators := s.enumerators ++ e.variants.map (·.1), table } : Findings).Accounted := by
  have htable := hs.register hr
  refine ⟨htable.keys, fun name hname => ?_, hs.macros⟩
  rcases List.mem_append.1 hname with hname | hname
  · exact htable.enumerators name hname
  · exact (TypeTable.register_cases hr).enumerators hs.keys (Or.inr rfl) hname

theorem beside (hs : s.Accounted) (h : s.Beside t) : t.Accounted := by
  cases h with
  | nothing => exact hs
  | prototype id => exact ⟨hs.keys, hs.enumerators, hs.macros⟩
  | definition m => exact ⟨hs.keys, hs.enumerators, Macro.insert_nodup hs.macros m⟩
  | numbers values => exact ⟨hs.keys, hs.enumerators, hs.macros⟩

end Findings.Accounted

/-- Every change that a walk makes keeps the account. -/
theorem steady_accounted : Survey.Steady fun s t => s.Accounted → t.Accounted where
  refl _ := id
  trans hst htu hs := htu (hst hs)
  register _ _ _ _ hr hs := hs.register hr
  start _ _ hs := ⟨hs.keys, hs.enumerators, hs.macros⟩
  stop _ _ hs := ⟨hs.keys, hs.enumerators, hs.macros⟩
  finish _ _ hs := ⟨hs.keys, hs.enumerators, hs.macros⟩
  enumerate _ _ _ _ hr hs := hs.enumerate hr
  beside h hs := hs.beside h

theorem Source.Surveys.accounted {source : Source} {top : List CursorId} (h : source.Surveys top .empty t) :
    t.Accounted :=
  h.preserves steady_accounted .empty

/-! ## What is carried over -/

theorem reachable_of_ready (h : readyMacros known waiting ≠ []) :
    reachable known waiting = (readyMacros known waiting).map (·.name) ++
      reachable (known ++ (readyMacros known waiting).map (·.name)) (blockedMacros known waiting) := by
  rw [reachable, dif_neg h]

/-- **A name that is reached** is that of a waiting macro which uses known names and reached ones only. -/
theorem reachable_uses (h : name ∈ reachable known waiting) :
    ∃ m ∈ waiting, m.name = name ∧ ∀ i ∈ m.identifiers, i ∈ known ∨ i ∈ reachable known waiting := by
  induction known, waiting using reachable.induct with
  | case1 known waiting hready =>
    rw [reachable, dif_pos hready] at h
    cases h
  | case2 known waiting hready names _ ih =>
    rw [reachable_of_ready hready] at h ⊢
    rcases List.mem_append.1 h with h | h
    · -- a macro that is ready uses known names
      obtain ⟨m, hm, rfl⟩ := List.mem_map.1 h
      obtain ⟨hwaiting, huses⟩ := List.mem_filter.1 hm
      refine ⟨m, hwaiting, rfl, fun i hi => Or.inl ?_⟩
      have hknown := List.all_eq_true.1 huses i hi
      simpa using hknown
    · obtain ⟨m, hm, hname, huses⟩ := ih h
      refine ⟨m, (List.mem_filter.1 hm).1, hname, fun i hi => ?_⟩
      rcases huses i hi with hi | hi
      · exact (List.mem_append.1 hi).imp_right (List.mem_append_left _)
      · exact Or.inr (List.mem_append_right _ hi)

/-- The macros that are carried over. -/
def carriedMacros (names : List Text) (macros : List Macro) : List Macro :=
  (constantCandidates macros).filter fun m =>
    (reachable (names ++ universalNames) (constantCandidates macros)).contains m.name

theorem exportedConstants_eq (names : List Text) (macros : List Macro) :
    exportedConstants names macros = (carriedMacros names macros).map fun m => (m.name, m.body) := rfl

/-- **Every identifier of a macro that is carried over** is one of the names, a universal name or a macro that is
carried over. -/
theorem mem_carried (hn : (macros.map Macro.name).Nodup) (hm : m ∈ carriedMacros names macros)
    (hi : name ∈ m.identifiers) :
    name ∈ names ∨ name ∈ universalNames ∨ ∃ c ∈ carriedMacros names macros, c.name = name := by
  obtain ⟨hcandidate, hreached⟩ := List.mem_filter.1 hm
  have hreached : m.name ∈ reachable (names ++ universalNames) (constantCandidates macros) := by
    simpa using hreached
  obtain ⟨other, hother, hname, huses⟩ := reachable_uses hreached
  -- no other candidate has that name
  have hsub : (constantCandidates macros).Sublist macros := List.filter_sublist
  obtain rfl : other = m := List.inj_on_of_nodup_map (hn.sublist (hsub.map _)) hother hcandidate hname
  rcases huses name hi with hknown | hcarried
  · exact (List.mem_append.1 hknown).imp_right Or.inl
  · obtain ⟨c, hc, rfl, -⟩ := reachable_uses hcarried
    exact Or.inr (Or.inr ⟨c, List.mem_filter.2 ⟨hc, by simpa using hcarried⟩, rfl⟩)

namespace Source

/-- The macros of a source whose bodies its interface carries. -/
def carried (source : Source) : List Macro :=
  match (do source.visitAll; source.declarations).run .empty with
  | .ok (_, state) => carriedMacros (constantNames state) state.macros
  | .error _ => []

variable {source : Source} {interface : Interface}

/-- **The constants of an interface are the macros that are carried over.** Their identifiers are enumerators or
typedefs of the table, universal names or such macros. -/
theorem interface_carried (h : source.interface = .ok interface) :
    interface.constants = source.carried.map (fun m => (m.name, m.body)) ∧
      ∀ m ∈ source.carried, ∀ i ∈ m.identifiers,
        (∃ d ∈ interface.table.entries, i ∈ d.enumerators) ∨
        (∃ a, .typedef a ∈ interface.table.entries ∧ a.key = i) ∨
        i ∈ universalNames ∨ ∃ c ∈ source.carried, c.name = i := by
  obtain ⟨ds, t, hrun, rfl⟩ := interface_eq_ok h
  have haccount : t.Accounted := (surveys_of_passes hrun).accounted
  have hcarried : source.carried = carriedMacros (constantNames t) t.macros := by
    unfold carried
    rw [StateT.run, hrun]
  rw [hcarried]
  refine ⟨exportedConstants_eq _ _, fun m hm i hi => ?_⟩
  rcases mem_carried haccount.macros hm hi with hname | huniversal | hmacro
  · rcases List.mem_append.1 hname with henumerator | htypedef
    · exact Or.inl (haccount.enumerators i henumerator)
    · obtain ⟨d, hd, hkey⟩ := List.mem_filterMap.1 htypedef
      cases d with
      | record r => cases hkey
      | enumeration e => cases hkey
      | typedef a => exact Or.inr (Or.inl ⟨a, hd, Option.some.inj hkey⟩)
  · exact Or.inr (Or.inr (Or.inl huniversal))
  · exact Or.inr (Or.inr (Or.inr hmacro))

end Source

end TrapStub
