import TrapStub.Proofs.Survey.Mentions
import TrapStub.Proofs.Survey.Typedefs

/-!
# What is held by value stands before

A struct or union that a member holds by value is defined before the record of the member enters the
table. A member that holds it by a typedef finds the typedef done, and that may have happened behind a
pointer, before the definition of the struct.

* `Source.Needs`, `Source.CompletedBefore`: the order in which C has structs and unions completed.
* `Source.ordered_governs`: what a member holds directly is complete before its record.
* `Source.embedded_before`: **what a record holds is complete before it**, by typedefs also if it is
  defined in time.
-/

namespace TrapStub

namespace Source

open Survey

variable {source : Source} {s t u : Findings} {c d : Cursor} {type : CType} {place : Text → Nat}

/-- The type needs the definition of the struct or union: it is used by value, or has no tag. -/
inductive Needs (source : Source) : TypeId → Bool → Cursor → Prop
  | record {t : TypeId} {byValue : Bool} (hk : (source.unit.type t).kind = .record)
      (hv : byValue = true ∨ source.isUntagged (source.declared t) = true) : Needs source t byValue (source.declared t)
  | part {t next : TypeId} {byValue w : Bool} {c : Cursor} (hp : source.Part t byValue next w)
      (h : Needs source next w c) : Needs source t byValue c
  | typedef {t : TypeId} {byValue : Bool} {c : Cursor} (hk : (source.unit.type t).kind = .typedef)
      (ho : (source.originOf? (source.declared t)).isSome = true)
      (h : Needs source (source.declared t).underlying byValue c) : Needs source t byValue c

/-- As C asks for, the structs and unions that members need have definitions, and these are completed before. -/
def CompletedBefore (source : Source) (place : Text → Nat) : Prop :=
  ∀ c ∈ source.records, c.definition.isSome = true → ∀ field ∈ source.fieldsOf c, ∀ d,
    source.Needs (source.typeOf field) true d →
      d.definition.isSome = true ∧ place (source.recordKey d) < place (source.recordKey c)

/-- All structs and unions that a type needs pass a test, found through at most `limit` types inside each other. -/
def needsOnly (source : Source) (p : Cursor → Bool) : (limit : Nat) → TypeId → Bool → Bool
  | 0, _, _ => false
  | limit + 1, t, byValue =>
    let kind := (source.unit.type t).kind
    let c := source.declared t
    (!(kind = .record && (byValue || source.isUntagged c)) || p c) &&
      (source.parts t byValue).all (fun next => needsOnly source p limit next.1 next.2) &&
      (!(kind = .typedef && (source.originOf? c).isSome) || needsOnly source p limit c.underlying byValue)

theorem needsOnly_cases {p : Cursor → Bool} {limit : Nat} {t : TypeId} {byValue : Bool}
    (h : source.needsOnly p limit t byValue = true) : ∃ below,
      ((source.unit.type t).kind = .record → byValue = true ∨ source.isUntagged (source.declared t) = true →
        p (source.declared t) = true) ∧
      (∀ next ∈ source.parts t byValue, source.needsOnly p below next.1 next.2 = true) ∧
      ((source.unit.type t).kind = .typedef → (source.originOf? (source.declared t)).isSome = true →
        source.needsOnly p below (source.declared t).underlying byValue = true) := by
  cases limit with
  | zero => cases h
  | succ limit =>
    simp only [needsOnly, Bool.and_eq_true] at h
    obtain ⟨⟨hrecord, hparts⟩, htypedef⟩ := h
    refine ⟨limit, fun hk hv => ?_, List.all_eq_true.1 hparts, fun hk ho => by simpa [hk, ho] using htypedef⟩
    have hv : (byValue || source.isUntagged (source.declared t)) = true := by simpa using hv
    simpa [hk, hv] using hrecord

theorem Needs.passes {p : Cursor → Bool} {t : TypeId} {byValue : Bool} (h : source.Needs t byValue c) :
    ∀ {limit : Nat}, source.needsOnly p limit t byValue = true → p c = true := by
  induction h with
  | record hk hv =>
    intro limit hp
    obtain ⟨_, hrecord, -, -⟩ := needsOnly_cases hp
    exact hrecord hk hv
  | part hpart _ ih =>
    intro limit hp
    obtain ⟨_, -, hparts, -⟩ := needsOnly_cases hp
    exact ih (hparts _ hpart.mem_parts)
  | typedef hk ho _ ih =>
    intro limit hp
    obtain ⟨_, -, -, htypedef⟩ := needsOnly_cases hp
    exact ih (htypedef hk ho)

/-- The order of completion can be checked. -/
theorem completedBefore_of_needsOnly (limit : Nat) (h : ∀ c ∈ source.records, ∀ field ∈ source.fieldsOf c,
    source.needsOnly (fun d => d.definition.isSome && decide (place (source.recordKey d) < place (source.recordKey c)))
      limit (source.typeOf field) true = true) : source.CompletedBefore place := by
  intro c hc _ field hf d hneeds
  simpa using hneeds.passes (h c hc field hf)

/-- What the members of a record hold directly stands before it. -/
def MembersFirst (source : Source) (table : TypeTable) : Prop :=
  ∀ d ∈ table.entries, ∀ key ∈ d.holds, (d.isRecord = true ∧ ∃ c, source.recordKey c = key) → table.CompleteBefore key d

/-- Conversions define what members hold before their records. -/
def ordered (source : Source) (place : Text → Nat) : Contract where
  invariant s := source.Recorded s ∧ source.MembersFirst s.table
  admits t v started := ∀ c, source.Needs t v c →
    (started ≠ [] → c.definition.isSome = true) ∧ ∀ key ∈ started, place (source.recordKey c) < place key
  enters c started := c ∈ source.records ∧ ∀ key ∈ started, place (source.recordKey c) < place key
  names c := Glyph.char ' ' ∉ c.spelling
  answers _ v type s := v = true → s.started ≠ [] → ∀ c,
    type.held = some (source.recordKey c) → source.recordKey c ∈ s.done

theorem ordered_governs (hw : source.WellNamed) (hplace : source.CompletedBefore place) :
    (source.ordered place).Governs source where
  empty := ⟨.empty, List.forall_mem_nil _⟩
  sameTypes hs h := ⟨hs.1.congr h, h.table ▸ hs.2⟩
  grows hst h hv hstarted c hheld := hst.done _ (h hv (hst.started ▸ hstarted) c hheld)
  allows id hid := ⟨fun hk => ⟨top_mem_records hid hk, List.forall_mem_nil _⟩,
    fun hk => ⟨hw.typedef _ (top_mem_typedefs hid hk), fun c _ => ⟨fun h => absurd rfl h, List.forall_mem_nil _⟩⟩⟩
  idle t c _ := ⟨fun h => absurd rfl h, List.forall_mem_nil _⟩
  part hp h c hc := h c (.part hp hc)
  underlying hk ho h := ⟨hw.typedef _ (declared_mem_typedefs hk), fun c hc => h c (.typedef hk ho hc)⟩
  enter hk hv h := ⟨declared_mem_records hk, (h _ (.record hk hv)).2⟩
  member := by
    intro c started field hc hd hn hf d hneeds
    obtain ⟨hdefined, hbefore⟩ := hplace c hc.1 hd field hf d hneeds
    refine ⟨fun _ => hdefined, List.forall_mem_cons.2 ⟨hbefore, fun key hk => ?_⟩⟩
    exact hbefore.trans (hc.2 key hk)
  leaf _ hkeys _ _ c hheld := by
    cases (CType.held_of_no_keys hkeys).symm.trans hheld
  unqualified ha h hv hstarted c hheld := ha hv hstarted c ((CType.held_of_unqualified h).symm.trans hheld)
  passes _ h := h
  array _ h := h
  pointer _ _ _ _ _ hheld := by cases hheld
  function _ _ _ _ _ _ _ hheld := by cases hheld
  reached := by
    intro t v s hk _ h hreached hv hstarted c hheld
    rw [← Option.some.inj hheld]
    obtain ⟨hdefined, hbefore⟩ := h _ (.record hk (Or.inl hv))
    cases hreached with
    | defined _ hdone => exact hdone
    | started _ hmem => exact absurd (hbefore _ hmem) (lt_irrefl _)
    | undefined _ hnone _ =>
      have hsome := hdefined hstarted
      rw [hnone] at hsome
      cases hsome
    | named hfalse => rw [hv] at hfalse; cases hfalse
  typedefDone hk _ _ _ _ _ c hheld :=
    absurd (Option.some.inj hheld).symm (recordKey_ne_of_space (hw.typedef _ (declared_mem_typedefs hk)) c)
  enumerationDone _ _ _ _ _ c hheld := absurd (Option.some.inj hheld).symm (source.recordKey_ne_enum c _)
  start hs _ _ _ _ := ⟨⟨hs.1.nodup, hs.1.complete⟩, hs.2⟩
  name hs _ hr := ⟨hs.1.register hr, (TypeTable.register_cases hr).holds_before hs.1.nodup hs.2 (List.forall_mem_nil _)⟩
  define := by
    intro c members started table stored u hu hc hd hstarted hn hmembers hr
    refine ⟨hu.1.define hr rfl, (TypeTable.register_cases hr).holds_before hu.1.nodup hu.2 ?_⟩
    rintro key hkey ⟨-, d, rfl⟩
    obtain ⟨m, hm, hheld⟩ := List.mem_filterMap.1 hkey
    obtain ⟨⟨m, demanded⟩, hmember, rfl⟩ := List.mem_map.1 hm
    obtain ⟨field, -, hanswer⟩ := forall₂_exists_of_mem_right hmembers hmember
    exact hu.1.complete d (hanswer rfl (by rw [hstarted]; exact List.cons_ne_nil _ _) d hheld)
  defineTypedef hu hc _ hr :=
    ⟨hu.1.defineTypedef hr hc, (TypeTable.register_cases hr).holds_before hu.1.nodup hu.2
      fun _ _ hrecord => absurd hrecord.1 Bool.false_ne_true⟩
  defineEnumeration hs _ hr :=
    ⟨hs.1.defineEnumeration hr, (TypeTable.register_cases hr).holds_before hs.1.nodup hs.2 (List.forall_mem_nil _)⟩

/-- A struct or union that is defined in time stands complete before all that hold it. -/
theorem Surveys.embedded (h : source.Surveys source.unit.top .empty t) (hw : source.WellNamed)
    (hplace : source.CompletedBefore place) {k : Cursor} (hk : source.InTime k) {d : TypeDef} {key : Text}
    (hembeds : t.table.Embeds d key) (hkey : key = source.recordKey k) (hd : d ∈ t.table.entries) :
    t.table.CompleteBefore key d := by
  obtain ⟨⟨⟨hrecorded, hfirst⟩, -⟩, -⟩ := (ordered_governs hw hplace).surveys h
  induction hembeds with
  | @held d key hheld =>
    cases d with
    | record r => exact hfirst _ hd _ hheld ⟨rfl, k, hkey.symm⟩
    | enumeration e => cases hheld
    | typedef a =>
      subst hkey
      exact h.precedes hw hk a hd (Option.mem_toList.1 hheld)
  | @typedef d a key ha hheld _ ih =>
    -- the typedef on the way stands before
    obtain ⟨e, hget, hbefore⟩ := h.mentioned hd (TypeDef.mentions_of_holds hheld)
    obtain rfl := Option.some.inj ((TypeTable.get?_of_mem hrecorded.nodup ha).symm.trans hget)
    exact (ih hkey ha).trans hrecorded.nodup (hbefore rfl)

/-- **What a record holds by value is complete before it**, where C has it completed before. By a typedef this is
so if the struct or union is defined before anything leads to a typedef of it. -/
theorem embedded_before (hw : source.WellNamed) (hplace : source.CompletedBefore place) {interface : Interface}
    (h : source.interface = .ok interface) {r : Record} (hr : .record r ∈ interface.table.entries) {k : Cursor}
    (hembeds : interface.table.Embeds (.record r) (source.recordKey k))
    (htime : source.recordKey k ∈ (TypeDef.record r).holds ∨ source.InTime k) :
    interface.table.CompleteBefore (source.recordKey k) (.record r) := by
  obtain ⟨t, hsurveys, htable⟩ := interface_surveys h
  rw [htable] at hr hembeds ⊢
  rcases htime with hheld | hk
  · obtain ⟨⟨⟨-, hfirst⟩, -⟩, -⟩ := (ordered_governs hw hplace).surveys hsurveys
    exact hfirst _ hr _ hheld ⟨rfl, k, rfl⟩
  · exact hsurveys.embedded hw hplace hk hembeds.of_freeze rfl hr

end Source

/-- As the headers of `lateSource` and `timelySource` have them completed. -/
def kBeforeR (key : Text) : Nat := if key = "struct r" then 1 else 0

theorem lateSource_wellNamed : lateSource.WellNamed := ⟨by decide, by decide⟩

theorem lateSource_completedBefore : lateSource.CompletedBefore kBeforeR :=
  Source.completedBefore_of_needsOnly 4 (by decide)

/-- The typedef on the way is done behind a pointer: the struct that is held by it comes too late. -/
theorem lateSource_late : ∃ interface, lateSource.interface = .ok interface ∧ lateSource.WellNamed ∧
    lateSource.CompletedBefore kBeforeR ∧ .record lateR ∈ interface.table.entries ∧
    interface.table.Embeds (.record lateR) "struct k" ∧ interface.table.Complete "struct k" ∧
    ¬ interface.table.CompleteBefore "struct k" (.record lateR) := by
  obtain ⟨interface, hinterface, htable⟩ := lateSource_interface
  have hheld : ("k_t" : Text) ∈ (TypeDef.record lateR).holds := by decide
  have htypedef : .typedef lateKT ∈ interface.table.entries := by
    rw [htable]
    exact List.mem_cons_self
  have hembeds : interface.table.Embeds (.record lateR) "struct k" :=
    .typedef htypedef hheld (.held (List.mem_singleton_self _))
  have hcomplete : interface.table.Complete "struct k" := ⟨lateK, by rw [htable]; decide, rfl⟩
  refine ⟨interface, hinterface, lateSource_wellNamed, lateSource_completedBefore, ?_, hembeds, hcomplete, ?_⟩
  · rw [htable]
    decide
  · rintro ⟨r, -, hkey, hbefore⟩
    rw [htable] at hbefore
    have hget : lateTable.get? r.key = some (.record r) := TypeTable.get?_of_mem (by decide) hbefore.mem.1
    have hlate : lateTable.get? r.key = some (.record lateK) := by rw [hkey]; decide
    obtain rfl := TypeDef.record.inj (Option.some.inj (hlate.symm.trans hget))
    revert hbefore
    unfold TypeTable.Before
    decide

/-! The header `typedef struct k { int v; } k_t; struct r { k_t *p; k_t k[2]; };`, which defines the struct before
its typedef. -/

def timelySource : Source :=
  { staged := ⟨[], [("a.h", [])], []⟩
    unit :=
      { top := [some 0, some 1, some 2], diagnostics := []
        cursors := #[
          { kind := .structDecl, spelling := "k", file := some "corpus/a.h", isDefinition := true
            definition := some 0, type := some 0 },
          { kind := .typedefDecl, spelling := "k_t", file := some "corpus/a.h", underlying := some 0 },
          { kind := .structDecl, spelling := "r", file := some "corpus/a.h", isDefinition := true
            definition := some 2, type := some 1 },
          { spelling := "v", type := some 2, fieldOffset := 0 },
          { spelling := "p", type := some 3, fieldOffset := 0 },
          { spelling := "k", type := some 5, fieldOffset := 32 }]
        types := #[
          { kind := .record, size := 4, align := 4, declaration := some 0, fields := [some 3] },
          { kind := .record, size := 12, align := 4, declaration := some 2, fields := [some 4, some 5] },
          { kind := .scalar .int, spelling := "int", size := 4, align := 4 },
          { kind := .pointer, size := 4, align := 4, pointee := some 4 },
          { kind := .typedef, size := 4, align := 4, declaration := some 1 },
          { kind := .constantArray, size := 8, align := 4, element := some 4, count := 2 }] } }

def timelyR : Record :=
  { key := "struct r", kind := .struct, size := 12, align := 4, packed := false, aligned := false, pack := none
    anonymous := false, origin := "a.h", comment := none
    members := some [⟨"p", .pointer (.named "k_t"), none, some 0, false, none⟩,
      ⟨"k", .array (.named "k_t") (some 2), none, some 32, false, none⟩] }

def timelyKT : Typedef := { key := "k_t", target := .named "struct k", origin := "a.h", comment := none }

theorem timelySource_interface : ∃ interface, timelySource.interface = .ok interface ∧
    interface.table.get? "k_t" = some (.typedef timelyKT) ∧
    interface.table.get? "struct r" = some (.record timelyR) := by
  have hfound : timelySource.interface.toOption.map (fun i => (i.table.get? "k_t", i.table.get? "struct r")) =
      some (some (.typedef timelyKT), some (.record timelyR)) := by decide +kernel
  obtain ⟨interface, hinterface, hfound⟩ := exists_of_toOption_map hfound
  obtain ⟨htypedef, hrecord⟩ := Prod.mk.inj hfound
  exact ⟨interface, hinterface, htypedef, hrecord⟩

theorem timelySource_inTime : timelySource.InTime (timelySource.unit.cursor (some 0)) := by
  refine ⟨[], some 0, [some 1, some 2], rfl, rfl, ⟨by decide, Or.inl rfl, rfl⟩, rfl, ?_⟩
  intro q hq
  obtain rfl := List.mem_singleton.1 hq
  refine ⟨fun _ field hf => ?_, nofun⟩
  obtain rfl := List.mem_singleton.1 hf
  exact Source.IsLeaf.avoids (Or.inr (Or.inl ⟨.int, rfl⟩))

theorem timelySource_embedded : ∃ interface, timelySource.interface = .ok interface ∧ timelySource.WellNamed ∧
    timelySource.CompletedBefore kBeforeR ∧ .record timelyR ∈ interface.table.entries ∧
    interface.table.Embeds (.record timelyR) "struct k" ∧ timelySource.InTime (timelySource.unit.cursor (some 0)) ∧
    interface.table.CompleteBefore "struct k" (.record timelyR) := by
  obtain ⟨interface, hinterface, htypedef, hrecord⟩ := timelySource_interface
  have hnamed : timelySource.WellNamed := ⟨by decide, by decide⟩
  have hplace : timelySource.CompletedBefore kBeforeR := Source.completedBefore_of_needsOnly 4 (by decide)
  have hentry := (TypeTable.get?_eq_some_mem hrecord).1
  have hheld : ("k_t" : Text) ∈ (TypeDef.record timelyR).holds := by decide
  have hembeds : interface.table.Embeds (.record timelyR) "struct k" :=
    .typedef (TypeTable.get?_eq_some_mem htypedef).1 hheld (.held (List.mem_singleton_self _))
  have hkey : timelySource.recordKey (timelySource.unit.cursor (some 0)) = "struct k" := by decide
  have hbefore := Source.embedded_before hnamed hplace hinterface hentry (hkey ▸ hembeds) (Or.inr timelySource_inTime)
  exact ⟨interface, hinterface, hnamed, hplace, hentry, hembeds, timelySource_inTime, hkey ▸ hbefore⟩

end TrapStub
