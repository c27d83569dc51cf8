import TrapStub.Proofs.Survey.Definitions

/-!
# Typedefs behind the structs they name

A typedef may enter the table before the struct that it names, when it is first used behind a pointer.
That does not happen where the struct is defined at the top before anything leads to one of its
typedefs: until then no typedef in the table holds it, and afterwards it is complete.

* `Source.Names`, `Source.LeadsTo`: the typedefs of a struct, and the types that lead to one.
* `Source.InTime`: the struct is defined before anything leads to a typedef of it.
* `Source.Surveys.precedes`: **then it stands before all its typedefs.**
-/

namespace TrapStub.Source

open Survey

variable {source : Source} {s t u : Findings} {a c k : Cursor} {type : CType}

/-- The type is that of the struct or union, behind qualifiers and in arrays. -/
inductive IsOf (source : Source) : TypeId → Cursor → Prop
  | record {t : TypeId} (hk : (source.unit.type t).kind = .record) : IsOf source t (source.declared t)
  | passes {t next : TypeId} {c : Cursor} (hp : source.Passes t next) (h : IsOf source next c) : IsOf source t c
  | array {t : TypeId} {c : Cursor} (hk : source.IsArray t) (h : IsOf source (source.unit.type t).element c) :
      IsOf source t c

/-- The typedef names the struct or union of a key. -/
def Names (source : Source) (a : Cursor) (key : Text) : Prop :=
  ∃ c, source.IsOf a.underlying c ∧ source.recordKey c = key

/-- The conversion of the type may define the typedef. -/
inductive LeadsTo (source : Source) : TypeId → Bool → Cursor → Prop
  | typedef {t : TypeId} {byValue : Bool} (hk : (source.unit.type t).kind = .typedef)
      (ho : (source.originOf? (source.declared t)).isSome = true) : LeadsTo source t byValue (source.declared t)
  | underlying {t : TypeId} {byValue : Bool} {a : Cursor} (hk : (source.unit.type t).kind = .typedef)
      (ho : (source.originOf? (source.declared t)).isSome = true)
      (h : LeadsTo source (source.declared t).underlying byValue a) : LeadsTo source t byValue a
  | part {t next : TypeId} {byValue w : Bool} {a : Cursor} (hp : source.Part t byValue next w)
      (h : LeadsTo source next w a) : LeadsTo source t byValue a
  | member {t : TypeId} {byValue : Bool} {field : CursorId} {a : Cursor} (hk : (source.unit.type t).kind = .record)
      (hv : byValue = true ∨ source.isUntagged (source.declared t) = true)
      (hf : field ∈ source.fieldsOf (source.declared t)) (h : LeadsTo source (source.typeOf field) true a) :
      LeadsTo source t byValue a

/-- The conversion of the type defines no typedef for the key. -/
def Avoids (source : Source) (key : Text) (t : TypeId) (byValue : Bool) : Prop :=
  ∀ a, source.LeadsTo t byValue a → ¬ source.Names a key

/-- Arithmetic types lead to no typedef of a header. -/
theorem IsLeaf.avoids {t : TypeId} {byValue : Bool} {key : Text} (h : source.IsLeaf t) :
    source.Avoids key t byValue := by
  intro a ha
  have hother : (source.unit.type t).kind = .typedef → (source.originOf? (source.declared t)).isSome = false := by
    intro hk
    rcases h with h | ⟨kind, h⟩ | ⟨-, ho, -⟩
    · rw [hk] at h; cases h
    · rw [hk] at h; cases h
    · exact ho
  cases ha with
  | typedef hk ho => rw [hother hk] at ho; cases ho
  | underlying hk ho => rw [hother hk] at ho; cases ho
  | part hp _ =>
    have hmem := hp.mem_parts
    rw [h.parts_eq_nil] at hmem
    cases hmem
  | member hk => exact absurd hk h.ne_record

/-- The visit of the declaration defines no typedef for the key. -/
structure Spares (source : Source) (key : Text) (c : Cursor) : Prop where
  record : c.kind = .structDecl ∨ c.kind = .unionDecl →
    ∀ field ∈ source.fieldsOf c, source.Avoids key (source.typeOf field) true
  typedef : c.kind = .typedefDecl → ¬ source.Names c key ∧ source.Avoids key c.underlying true

/-- A header defines the struct or union at the top before anything leads to a typedef of it. -/
def InTime (source : Source) (k : Cursor) : Prop :=
  ∃ before id after, source.unit.top = before ++ id :: after ∧ source.unit.cursor id = k ∧ source.Defines k ∧
    k.definition.isSome = true ∧ ∀ q ∈ before ++ [id], source.Spares (source.recordKey k) (source.unit.cursor q)

/-- Until a typedef for the struct or union is met, the table has none that holds it. -/
def untouched (source : Source) (k : Cursor) : Contract where
  invariant s := source.Recorded s ∧ ∀ a, .typedef a ∈ s.table.entries → a.target.held ≠ some (source.recordKey k)
  admits t v _ := source.Avoids (source.recordKey k) t v
  enters c _ := ∀ field ∈ source.fieldsOf c, source.Avoids (source.recordKey k) (source.typeOf field) true
  names a := Glyph.char ' ' ∉ a.spelling ∧ ¬ source.Names a (source.recordKey k)
  answers t _ type _ := type.held = some (source.recordKey k) →
    ∃ c, source.IsOf t c ∧ source.recordKey c = source.recordKey k

theorem untouched_sound (hw : source.WellNamed) : (source.untouched k).Sound source where
  sameTypes hs h := ⟨hs.1.congr h, fun a ha => hs.2 a (h.table ▸ ha)⟩
  grows _ h := h
  part hp h a ha := h a (.part hp ha)
  underlying hk ho h := ⟨⟨hw.typedef _ (declared_mem_typedefs hk), h _ (.typedef hk ho)⟩,
    fun a ha => h a (.underlying hk ho ha)⟩
  enter hk hv h field hf a ha := h a (.member hk hv hf ha)
  member h _ _ hf := h _ hf
  leaf _ hkeys hheld := nomatch (CType.held_of_no_keys hkeys).symm.trans hheld
  unqualified ha h hheld := ha ((CType.held_of_unqualified h).symm.trans hheld)
  passes hp h hheld :=
    have ⟨c, hc, hkey⟩ := h hheld
    ⟨c, .passes hp hc, hkey⟩
  array hk h hheld :=
    have ⟨c, hc, hkey⟩ := h hheld
    ⟨c, .array hk hc, hkey⟩
  pointer _ _ hheld := nomatch hheld
  function _ _ _ _ hheld := nomatch hheld
  reached hk _ _ _ hheld := ⟨_, .record hk, Option.some.inj hheld⟩
  typedefDone hk _ _ _ hheld :=
    absurd (Option.some.inj hheld).symm (recordKey_ne_of_space (hw.typedef _ (declared_mem_typedefs hk)) k)
  enumerationDone _ _ _ hheld := absurd (Option.some.inj hheld).symm (source.recordKey_ne_enum k _)
  start hs _ _ _ _ := ⟨⟨hs.1.nodup, hs.1.complete⟩, hs.2⟩
  name hs _ hr := ⟨hs.1.register hr, fun a ha => (TypeTable.register_cases hr).of_mem ha |>.elim (hs.2 a) nofun⟩
  define hu _ _ _ _ _ hr :=
    ⟨hu.1.define hr rfl, fun a ha => (TypeTable.register_cases hr).of_mem ha |>.elim (hu.2 a) nofun⟩
  defineTypedef := by
    intro c v target table stored u hu hc h hr
    refine ⟨hu.1.defineTypedef hr hc.1, fun a ha hheld => ?_⟩
    rcases (TypeTable.register_cases hr).of_mem ha with ha | ha
    · exact hu.2 a ha hheld
    · cases ha
      exact hc.2 (h hheld)
  defineEnumeration hs _ hr :=
    ⟨hs.1.defineEnumeration hr, fun a ha => (TypeTable.register_cases hr).of_mem ha |>.elim (hs.2 a) nofun⟩

/-- The struct or union stands complete before its typedefs. -/
def Precedes (source : Source) (k : Cursor) (table : TypeTable) : Prop :=
  ∀ a, .typedef a ∈ table.entries → a.target.held = some (source.recordKey k) →
    table.CompleteBefore (source.recordKey k) (.typedef a)

theorem Precedes.register {table table' : TypeTable} {d : TypeDef} (h : source.Precedes k table)
    (hn : table.keys.Nodup) (hk : table.Complete (source.recordKey k)) (hr : table.Registered d table') :
    source.Precedes k table' := by
  have hbefore := hr.holds_before (P := fun e key => e.isRecord = false ∧ key = source.recordKey k) hn
  refine fun a ha hheld => hbefore ?_ ?_ _ ha _ (Option.mem_toList.2 hheld) ⟨rfl, rfl⟩
  · rintro e he key hkey ⟨hrecord, rfl⟩
    cases e with
    | record r => cases hrecord
    | enumeration e => cases hkey
    | typedef a => exact h a he (Option.mem_toList.1 hkey)
  · rintro key - ⟨-, rfl⟩
    exact hk

/-- Once the struct or union is done, its typedefs follow it. -/
def followed (source : Source) (k : Cursor) : Contract where
  invariant s := source.Recorded s ∧ source.recordKey k ∈ s.done ∧ source.Precedes k s.table
  admits _ _ _ := True
  enters _ _ := True
  names c := Glyph.char ' ' ∉ c.spelling
  answers _ _ _ _ := True

/-- Whatever enters the table then, it is behind the struct or union. -/
theorem Precedes.enter {d stored : TypeDef} {table : TypeTable} (hs : (source.followed k).invariant s)
    (hr : s.table.register d = .ok (table, stored)) : source.Precedes k table :=
  hs.2.2.register hs.1.nodup (hs.1.complete k hs.2.1) (TypeTable.register_cases hr)

theorem followed_sound (hw : source.WellNamed) : (source.followed k).Sound source where
  sameTypes hs h := ⟨hs.1.congr h, h.done ▸ hs.2.1, h.table ▸ hs.2.2⟩
  grows _ _ := trivial
  part _ _ := trivial
  underlying hk _ _ := ⟨hw.typedef _ (declared_mem_typedefs hk), trivial⟩
  enter _ _ _ := trivial
  member _ _ _ _ := trivial
  leaf _ _ := trivial
  unqualified _ _ := trivial
  passes _ _ := trivial
  array _ _ := trivial
  pointer _ _ := trivial
  function _ _ _ _ := trivial
  reached _ _ _ _ := trivial
  typedefDone _ _ _ _ := trivial
  enumerationDone _ _ _ := trivial
  start hs _ _ _ _ := ⟨⟨hs.1.nodup, hs.1.complete⟩, hs.2⟩
  name hs _ hr := ⟨hs.1.register hr, hs.2.1, .enter hs hr⟩
  define hu _ _ _ _ _ hr := ⟨hu.1.define hr rfl, List.mem_cons_of_mem _ hu.2.1, .enter hu hr⟩
  defineTypedef hu hc _ hr := ⟨hu.1.defineTypedef hr hc, List.mem_cons_of_mem _ hu.2.1, .enter hu hr⟩
  defineEnumeration hs _ hr := ⟨hs.1.defineEnumeration hr, List.mem_cons_of_mem _ hs.2.1, .enter hs hr⟩

/-- **A struct or union that is defined in time stands complete before all its typedefs.** -/
theorem Surveys.precedes (h : source.Surveys source.unit.top .empty t) (hw : source.WellNamed) (hk : source.InTime k) :
    source.Precedes k t.table := by
  obtain ⟨before, id, after, htop, rfl, hdefines, hd, hspares⟩ := hk
  have hsplit : source.unit.top = (before ++ [id]) ++ after := by rw [htop, List.append_assoc, List.singleton_append]
  rw [hsplit] at h
  obtain ⟨u, hfirst, hrest⟩ := h.split
  -- up to the definition no typedef in the table holds the struct
  have hallows : ∀ q ∈ before ++ [id], (source.untouched (source.unit.cursor id)).Allows (source.unit.cursor q) := by
    intro q hq
    refine ⟨(hspares q hq).record, fun hk => ?_⟩
    obtain ⟨hnames, havoids⟩ := (hspares q hq).typedef hk
    exact ⟨⟨hw.typedef _ (top_mem_typedefs (hsplit ▸ List.mem_append_left _ hq) hk), hnames⟩, havoids⟩
  obtain ⟨⟨⟨hu, hnone⟩, hstarted⟩, hreached⟩ :=
    (untouched_sound hw).visits hallows .empty _ u ⟨⟨.empty, nofun⟩, rfl⟩ hfirst
  -- the definition completes it, and from there on it stays before what enters the table
  have hdone := (hreached id (List.mem_append_right _ (List.mem_singleton_self id)) hdefines).done hd hstarted
  have hprecedes : source.Precedes (source.unit.cursor id) u.table := fun a ha hheld => absurd hheld (hnone a ha)
  have hallows' : ∀ q ∈ after, (source.followed (source.unit.cursor id)).Allows (source.unit.cursor q) := fun q hq =>
    ⟨fun _ => trivial, fun hk => ⟨hw.typedef _ (top_mem_typedefs (hsplit ▸ List.mem_append_right _ hq) hk), trivial⟩⟩
  exact ((followed_sound hw).surveys hallows' (fun _ => trivial) hrest ⟨⟨hu, hdone, hprecedes⟩, hstarted⟩).1.1.2.2

end TrapStub.Source
