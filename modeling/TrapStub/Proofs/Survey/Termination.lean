import TrapStub.Proofs.Survey.Course

/-!
# Walks end

Where types lead back to themselves only through the members of a record, both passes end before the bound
on types inside each other is met, and a larger bound makes no difference: what ends the recursion is that
each record is started once. Records that refer to each other in circles, through whatever typedefs, pointers,
arrays and functions and in whatever order, have their members converted once in the whole run.

* `Survey.Approximates`: a step that does what another one does, or meets its bound.
* `Source.convertWithin_stable`: **beyond the bound no conversion changes.**
* `Source.unrolled_of_ranked`: a way to see that types come to an end.
* `Source.walk_ends`: **a walk ends, and converts the members of each record once.**
-/

namespace TrapStub

variable {α β : Type} {s t : Findings}

/-- No argument of an attribute makes a walk endless. -/
theorem Alignment.ofArgument_fault {argument : Option Text} {fault : Fault}
    (h : Alignment.ofArgument argument = .error fault) : fault ≠ .endless := by
  unfold ofArgument at h
  split at h
  · cases h
  · cases h
  · unfold number? at h
    dsimp only at h
    split at h
    · cases h
    · split at h
      · cases h
        exact Fault.noConfusion
      · split at h
        · cases h
          exact Fault.noConfusion
        · cases h
    · cases h

namespace Survey

/-- The second step does what the first one does, unless that meets its bound. -/
def Approximates (x y : Survey α) : Prop := ∀ s, x s = .error .endless ∨ y s = x s

theorem approximates_refl (x : Survey α) : Approximates x x := fun _ => Or.inr rfl

theorem Approximates.bind {x y : Survey α} {f g : α → Survey β} (hxy : Approximates x y)
    (hfg : ∀ a, Approximates (f a) (g a)) : Approximates (x >>= f) (y >>= g) := by
  intro s
  rw [bind_run, bind_run]
  rcases hxy s with hx | hx
  · rw [hx]
    exact Or.inl rfl
  · rw [hx]
    cases x s with
    | error fault => exact Or.inr rfl
    | ok r => exact hfg r.1 r.2

theorem Approximates.mapM {f g : α → Survey β} (h : ∀ a, Approximates (f a) (g a)) (l : List α) :
    Approximates (l.mapM f) (l.mapM g) := by
  induction l with
  | nil => exact approximates_refl _
  | cons a l ih =>
    rw [List.mapM_cons, List.mapM_cons]
    exact (h a).bind fun b => ih.bind fun bs => approximates_refl _

end Survey

namespace Source

open Survey

variable {source : Source} {below below' : Conversion}

section Layer

variable (hb : ∀ t byValue, Approximates (below t byValue) (below' t byValue))

include hb

theorem convertWith_approximates (t : TypeId) (byValue : Bool) :
    Approximates (source.convertWith below t byValue) (source.convertWith below' t byValue) :=
  (hb t byValue).bind fun _ => approximates_refl _

theorem member_approximates (c : Cursor) : Approximates (source.member below c) (source.member below' c) :=
  (approximates_refl _).bind fun _ => (convertWith_approximates hb _ _).bind fun _ => approximates_refl _

theorem record_approximates (c : Cursor) : Approximates (source.record below c) (source.record below' c) := by
  unfold record
  dsimp only
  refine (approximates_refl _).bind fun state => ?_
  split
  · exact approximates_refl _
  · cases c.definition with
    | none => exact approximates_refl _
    | some id =>
      refine (approximates_refl _).bind fun _ => ?_
      refine (Approximates.mapM (fun field => member_approximates hb _) _).bind fun members => ?_
      exact approximates_refl _

theorem recordNamed_approximates (c : Cursor) :
    Approximates (source.recordNamed below c) (source.recordNamed below' c) := by
  unfold recordNamed
  dsimp only
  split
  · exact record_approximates hb c
  · exact approximates_refl _

theorem typedef_approximates (c : Cursor) (byValue : Bool) :
    Approximates (source.typedef below c byValue) (source.typedef below' c byValue) := by
  unfold typedef
  refine (approximates_refl _).bind fun state => ?_
  split
  · exact approximates_refl _
  · exact (convertWith_approximates hb _ _).bind fun target => approximates_refl _

/-- One layer of a conversion does the same above conversions that do the same. -/
theorem baseStep_approximates (t : TypeId) (byValue : Bool) :
    Approximates (source.baseStep below t byValue) (source.baseStep below' t byValue) := by
  have hconvert : ∀ t byValue, Approximates (source.convertWith below t byValue)
    (source.convertWith below' t byValue) := convertWith_approximates hb
  unfold baseStep
  dsimp only
  split
  · exact hconvert _ _
  · split
    · exact typedef_approximates hb _ _
    · split
      · exact approximates_refl _
      · exact (hconvert _ _).bind fun _ => approximates_refl _
  · exact (hconvert _ _).bind fun _ => approximates_refl _
  · split
    · exact record_approximates hb _
    · exact recordNamed_approximates hb _
  · exact approximates_refl _
  · exact (hconvert _ _).bind fun _ => approximates_refl _
  · exact (hconvert _ _).bind fun _ => approximates_refl _
  · exact (hconvert _ _).bind fun _ => approximates_refl _
  · refine (hconvert _ _).bind fun result => ?_
    exact (Approximates.mapM (fun a => hconvert a false) _).bind fun _ => approximates_refl _
  · exact (hconvert _ _).bind fun _ => approximates_refl _
  · exact approximates_refl _
  · exact approximates_refl _
  · split
    · exact approximates_refl _
    · exact hb _ _

end Layer

/-- One more type inside each other makes no difference where the bound is not met. -/
theorem convertWithin_approximates (limit : Nat) : ∀ t byValue,
    Approximates (source.convertWithin limit t byValue) (source.convertWithin (limit + 1) t byValue) := by
  induction limit with
  | zero => exact fun t byValue s => Or.inl rfl
  | succ limit ih => exact baseStep_approximates ih

section Run

variable (hunrolled : source.Unrolled)

include hunrolled

theorem convertWithin_ends {limit : Nat} (hlimit : source.limit ≤ limit) (hs : s.table.frozen = false) (t : TypeId)
    (byValue : Bool) : source.convertWithin limit t byValue s ≠ .error .endless := by
  intro hrun
  have hfails : FailsWith (· ≠ Fault.endless) (source.convertWithin limit t byValue) s :=
    convertWithin_fails (fun r => Fault.noConfusion) (fun c id hid fault h => Alignment.ofArgument_fault h) hunrolled
      limit t byValue s [] hs (fun p hp => absurd hp List.not_mem_nil)
      ((source.weight_lt_limit _ _).trans_le hlimit)
  exact hfails _ hrun rfl

/-- **Beyond the bound no conversion changes.** -/
theorem convertWithin_stable {limit : Nat} (hlimit : source.limit ≤ limit) (hs : s.table.frozen = false) (t : TypeId)
    (byValue : Bool) : source.convertWithin limit t byValue s = source.base t byValue s := by
  induction limit, hlimit using Nat.le_induction with
  | base => rfl
  | succ limit hle ih =>
    rcases convertWithin_approximates limit t byValue s with hend | hsame
    · exact absurd hend (convertWithin_ends hunrolled hle hs t byValue)
    · exact hsame.trans ih

/-- **A walk ends, and converts the members of each record once.** Where types lead back to themselves only through
the members of a record, neither the passes nor any conversion on the way meets the bound, and a larger bound
changes nothing. Whether the run answers or fails, no key has its members converted twice; if it answers, every
complete record of the table has had them converted. -/
theorem walk_ends : source.interface ≠ .error .endless ∧
    (∀ limit, source.limit ≤ limit → ∀ t byValue, ∀ s : Findings, s.table.frozen = false →
      source.convertWithin limit t byValue s = source.base t byValue s ∧
        source.base t byValue s ≠ .error .endless) ∧
    (source.course.filterMap Event.record?).Nodup ∧
    ∀ interface, source.interface = .ok interface → ∀ key, interface.table.Complete key →
      .members key ∈ source.course := by
  refine ⟨fun h => ?_, fun limit hlimit t byValue s hs => ?_, source.passes_charts.once _,
    fun interface h key hkey => ?_⟩
  · exact interface_fails (P := (· ≠ Fault.endless)) (fun r => Fault.noConfusion)
      (fun c id hid fault h => Alignment.ofArgument_fault h) hunrolled h rfl
  · exact ⟨convertWithin_stable hunrolled hlimit hs t byValue, convertWithin_ends hunrolled (Nat.le_refl _) hs t byValue⟩
  · obtain ⟨ds, t, hrun, rfl⟩ := interface_eq_ok h
    refine (source.passes_charts.completed _ ds t hrun key hkey).resolve_left ?_
    rintro ⟨r, hget, -⟩
    cases hget

end Run

/-- Types come to an end if each of them that leads to another one stands above it. -/
theorem unrolled_of_ranked (rank : TypeId → Nat)
    (hparts : ∀ i < source.unit.types.size, ∀ byValue, ∀ p ∈ source.parts (some i) byValue, rank p.1 < rank (some i))
    (htypedefs : ∀ i < source.unit.types.size, (source.unit.type (some i)).kind = .typedef →
      rank (source.declared (some i)).underlying < rank (some i)) : source.Unrolled := by
  have hlower : ∀ t next, source.Leads t next → rank next < rank t := by
    intro t next h
    obtain ⟨i, rfl, hi⟩ := h.index
    cases h with
    | part hp => exact hparts i hi _ _ hp.mem_parts
    | underlying hk => exact htypedefs i hi hk
  have hcycle : ∀ t next, Relation.TransGen source.Leads t next → rank next < rank t := by
    intro t next h
    induction h with
    | single h => exact hlower _ _ h
    | tail _ h ih => exact (hlower _ _ h).trans ih
  exact fun t h => Nat.lt_irrefl _ (hcycle t t h)

end Source

/-! The header `typedef struct r r_t; struct r { r_t *next; r_t *ring[2]; };`, whose typedef is visited again while
its target is being defined. -/

def ringSource : Source :=
  { staged := ⟨[], [("a.h", [])], []⟩
    unit :=
      { top := [some 0, some 1], diagnostics := []
        cursors := #[
          { kind := .typedefDecl, spelling := "r_t", file := some "corpus/a.h", underlying := some 0 },
          { kind := .structDecl, spelling := "r", file := some "corpus/a.h", isDefinition := true
            definition := some 1, type := some 0 },
          { spelling := "next", type := some 1, fieldOffset := 0 },
          { spelling := "ring", type := some 3, fieldOffset := 32 }]
        types := #[
          { kind := .record, size := 12, align := 4, declaration := some 1, fields := [some 2, some 3] },
          { kind := .pointer, size := 4, align := 4, pointee := some 2 },
          { kind := .typedef, size := 12, align := 4, declaration := some 0 },
          { kind := .constantArray, size := 8, align := 4, element := some 1, count := 2 }] } }

theorem ringSource_unrolled : ringSource.Unrolled := by
  refine Source.unrolled_of_ranked (fun t => [0, 2, 1, 3].getD (t.getD 0) 0) ?_ ?_
  · decide
  · decide

def ringR : Record :=
  { key := "struct r", kind := .struct, size := 12, align := 4, packed := false, aligned := false, pack := none
    anonymous := false, origin := "a.h", comment := none
    members := some [⟨"next", .pointer (.named "r_t"), none, some 0, false, none⟩,
      ⟨"ring", .array (.pointer (.named "r_t")) (some 2), none, some 32, false, none⟩] }

theorem ringSource_ends : ringSource.Unrolled ∧ ringSource.interface ≠ .error .endless ∧
    (∃ interface, ringSource.interface = .ok interface ∧ interface.table.Complete "struct r") ∧
    .members "struct r" ∈ ringSource.course ∧ (ringSource.course.filterMap Event.record?).Nodup := by
  obtain ⟨hends, -, honce, hcompleted⟩ := Source.walk_ends ringSource_unrolled
  have hfound : ringSource.interface.toOption.map (fun i => i.table.get? "struct r") = some (some (.record ringR)) := by
    decide +kernel
  obtain ⟨interface, hinterface, hget⟩ := exists_of_toOption_map hfound
  have hcomplete : interface.table.Complete "struct r" := ⟨ringR, hget, rfl⟩
  exact ⟨ringSource_unrolled, hends, ⟨interface, hinterface, hcomplete⟩, hcompleted interface hinterface _ hcomplete,
    honce⟩

end TrapStub
