import TrapStub.Proofs.Survey.Contract

/-!
# Definitions that are kept

A struct or union has its definition in the table when a header defines it at the top, and when a kept
one holds it in a member. A tagged one inside another that only pointers lead to stays a name.

* `Source.Recorded`: what is done of records, the table has with its members.
* `Source.Holds`, `Source.Kept`: the structs and unions that a walk defines.
* `Source.kept_complete`: **they are complete in the table.**
-/

namespace TrapStub

/-- The key is that of something that is defined, or of a record that is being defined. -/
def Findings.Met (s : Findings) (key : Text) : Prop := key ∈ s.done ∨ key ∈ s.started

theorem Findings.Grows.met {s t : Findings} {key : Text} (h : s.Grows t) (hk : s.Met key) : t.Met key :=
  hk.imp (h.done key) fun hk => h.started ▸ hk

namespace Source

open Survey

variable {source : Source} {s t u : Findings} {c d : Cursor} {type : CType}

/-- The keys of tagged types start with their keyword. -/
theorem keyOf_keyword (c : Cursor) (keyword : Text) :
    ∃ rest, (source.keyOf c keyword).1 = keyword ++ .char ' ' :: rest := by
  unfold keyOf
  dsimp only
  split
  · rename_i tag _
    exact ⟨tag, List.append_assoc keyword " " tag⟩
  · refine ⟨.char '@' :: ((source.originOf? c).getD "?" ++ ":" ++ Text.decimal c.line ++ ":" ++
      Text.decimal c.column), ?_⟩
    simp only [List.append_assoc]
    rfl

/-- The keys of structs, unions and enums differ from the names of typedefs. -/
theorem space_mem_recordKey (c : Cursor) : Glyph.char ' ' ∈ source.recordKey c := by
  obtain ⟨rest, hkey⟩ := source.keyOf_keyword c (recordKind c).keyword
  rw [recordKey, hkey]
  exact List.mem_append_right _ List.mem_cons_self

theorem recordKey_ne_of_space {name : Text} (h : Glyph.char ' ' ∉ name) (c : Cursor) : source.recordKey c ≠ name := by
  rintro rfl
  exact h (source.space_mem_recordKey c)

theorem recordKey_ne_enum (c definition : Cursor) : source.recordKey c ≠ (source.keyOf definition "enum").1 := by
  obtain ⟨rest, hkey⟩ := source.keyOf_keyword c (recordKind c).keyword
  obtain ⟨rest', hkey'⟩ := source.keyOf_keyword definition "enum"
  rw [recordKey, hkey, hkey']
  intro h
  have hhead := congrArg List.head? h
  cases hkind : recordKind c <;> simp [hkind, RecordKind.keyword, Text.ofString] at hhead

/-- The structs and unions that a walk can come to. -/
def records (source : Source) : List Cursor :=
  (source.unit.types.toList.filter (·.kind = .record)).map (source.unit.cursor ·.declaration) ++
    (source.unit.top.map source.unit.cursor).filter fun c => c.kind = .structDecl ∨ c.kind = .unionDecl

/-- The typedefs that a walk can come to. -/
def typedefs (source : Source) : List Cursor :=
  (source.unit.types.toList.filter (·.kind = .typedef)).map (source.unit.cursor ·.declaration) ++
    (source.unit.top.map source.unit.cursor).filter (·.kind = .typedefDecl)

theorem type_mem {t : TypeId} {kind : TypeKind} (h : (source.unit.type t).kind = kind) (hk : kind ≠ .other "Invalid") :
    source.unit.type t ∈ source.unit.types.toList := by
  unfold ParsedUnit.type at h ⊢
  cases ht : t.bind (source.unit.types[·]?) with
  | none =>
    rw [ht] at h
    exact absurd h.symm hk
  | some type =>
    obtain ⟨i, -, hi⟩ := Option.bind_eq_some_iff.1 ht
    exact Array.mem_toList_iff.2 (Array.mem_of_getElem? hi)

theorem declared_mem_records {t : TypeId} (hk : (source.unit.type t).kind = .record) :
    source.declared t ∈ source.records :=
  List.mem_append_left _ (List.mem_map.2 ⟨_, List.mem_filter.2 ⟨type_mem hk nofun, by simpa using hk⟩, rfl⟩)

theorem top_mem_records {id : CursorId} (hid : id ∈ source.unit.top)
    (hk : (source.unit.cursor id).kind = .structDecl ∨ (source.unit.cursor id).kind = .unionDecl) :
    source.unit.cursor id ∈ source.records :=
  List.mem_append_right _ (List.mem_filter.2 ⟨List.mem_map.2 ⟨id, hid, rfl⟩, by simpa using hk⟩)

theorem declared_mem_typedefs {t : TypeId} (hk : (source.unit.type t).kind = .typedef) :
    source.declared t ∈ source.typedefs :=
  List.mem_append_left _ (List.mem_map.2 ⟨_, List.mem_filter.2 ⟨type_mem hk nofun, by simpa using hk⟩, rfl⟩)

theorem top_mem_typedefs {id : CursorId} (hid : id ∈ source.unit.top)
    (hk : (source.unit.cursor id).kind = .typedefDecl) : source.unit.cursor id ∈ source.typedefs :=
  List.mem_append_right _ (List.mem_filter.2 ⟨List.mem_map.2 ⟨id, hid, rfl⟩, by simpa using hk⟩)

/-- Names are used as C uses them: that of a typedef has no space, and a struct or union has one definition. -/
structure WellNamed (source : Source) : Prop where
  typedef : ∀ c ∈ source.typedefs, Glyph.char ' ' ∉ c.spelling
  record : ∀ c ∈ source.records, ∀ d ∈ source.records, source.recordKey c = source.recordKey d →
    c.definition.isSome = true → d.definition.isSome = true → c.definition = d.definition

/-! ## What is done is complete -/

/-- The table has the members of the structs and unions that are done. -/
structure Recorded (source : Source) (s : Findings) : Prop where
  nodup : s.table.keys.Nodup
  complete : ∀ c, source.recordKey c ∈ s.done → s.table.Complete (source.recordKey c)

namespace Recorded

theorem empty : source.Recorded .empty := ⟨List.nodup_nil, fun _ hc => absurd hc List.not_mem_nil⟩

theorem congr (hs : source.Recorded s) (h : s.SameTypes t) : source.Recorded t :=
  ⟨h.table ▸ hs.nodup, fun c hc => h.table ▸ hs.complete c (h.done ▸ hc)⟩

theorem register {d : TypeDef} {table : TypeTable} {stored : TypeDef} (hs : source.Recorded s)
    (hr : s.table.register d = .ok (table, stored)) : source.Recorded { s with table } :=
  ⟨(TypeTable.register_cases hr).keys_nodup hs.nodup,
    fun c hc => (TypeTable.register_cases hr).complete hs.nodup (hs.complete c hc)⟩

/-- More is done, which is complete if it is the key of a record. -/
theorem finish (hs : source.Recorded s) {key : Text} (hkey : ∀ c, source.recordKey c = key → s.table.Complete key) :
    source.Recorded { s with done := key :: s.done } := by
  refine ⟨hs.nodup, fun c hc => ?_⟩
  rcases List.mem_cons.1 hc with hc | hc
  · exact hc ▸ hkey c hc
  · exact hs.complete c hc

variable {table : TypeTable} {stored : TypeDef}

theorem define {r : Record} {started : List Text} (hu : source.Recorded u)
    (hr : u.table.register (.record r) = .ok (table, stored)) (hcomplete : r.isComplete = true) :
    source.Recorded { u with table, started, done := r.key :: u.done } := by
  have hforward : (TypeDef.record r).isForward = false := by rw [TypeDef.isForward, hcomplete]; rfl
  have hkey : table.Complete r.key := (TypeTable.register_cases hr).complete_key hu.nodup rfl hforward
  have htable := (hu.register hr).finish fun _ _ => hkey
  exact ⟨htable.nodup, htable.complete⟩

theorem defineTypedef {a : Typedef} (hu : source.Recorded u)
    (hr : u.table.register (.typedef a) = .ok (table, stored)) (ha : Glyph.char ' ' ∉ a.key) :
    source.Recorded { u with table, done := a.key :: u.done } :=
  (hu.register hr).finish fun c hc => absurd hc (recordKey_ne_of_space ha c)

theorem defineEnumeration {e : Enumeration} {definition : Cursor} (hs : source.Recorded s)
    (hr : s.table.register (.enumeration e) = .ok (table, stored)) :
    source.Recorded { s with table, done := (source.keyOf definition "enum").1 :: s.done } :=
  (hs.register hr).finish fun c hc => absurd hc (source.recordKey_ne_enum c _)

end Recorded

/-! ## What is defined -/

/-- The type holds the struct or union: there is no typedef between, and with a tag no pointer and no function. -/
inductive Holds (source : Source) : TypeId → Bool → Cursor → Prop
  | record {t : TypeId} {byValue : Bool} (hk : (source.unit.type t).kind = .record)
      (hv : byValue = true ∨ source.isUntagged (source.declared t) = true) : Holds source t byValue (source.declared t)
  | part {t next : TypeId} {byValue w : Bool} {c : Cursor} (hp : source.Part t byValue next w)
      (h : Holds source next w c) : Holds source t byValue c

/-- A walk defines the struct or union: a header does at the top, or a member of one that is kept holds it. -/
inductive Kept (source : Source) : Cursor → Prop
  | top {id : CursorId} (hid : id ∈ source.unit.top) (hd : source.Defines (source.unit.cursor id)) :
      Kept source (source.unit.cursor id)
  | member {c d : Cursor} {field : CursorId} (hc : Kept source c) (hd : c.definition.isSome = true)
      (hf : field ∈ source.fieldsOf c) (h : source.Holds (source.typeOf field) true d) : Kept source d

theorem Holds.mem_records {v : Bool} {t : TypeId} (h : source.Holds t v c) : c ∈ source.records := by
  induction h with
  | record hk => exact declared_mem_records hk
  | part _ _ ih => exact ih

theorem Kept.mem_records (h : source.Kept c) : c ∈ source.records := by
  cases h with
  | top hid hd => exact top_mem_records hid hd.kind
  | member _ _ _ h => exact h.mem_records

/-- The structs and unions that the type holds are defined, as far as they have definitions. -/
def Provided (source : Source) (t : TypeId) (byValue : Bool) (s : Findings) : Prop :=
  ∀ c, source.Holds t byValue c → c.definition.isSome = true → s.Met (source.recordKey c)

/-- Structs and unions that are done have what their members hold. -/
def Closed (source : Source) (s : Findings) : Prop :=
  ∀ c ∈ source.records, c.definition.isSome = true → source.recordKey c ∈ s.done →
    ∀ field ∈ source.fieldsOf c, source.Provided (source.typeOf field) true s

theorem Provided.mono {t : TypeId} {v : Bool} {s u : Findings} (hmet : ∀ key, s.Met key → u.Met key)
    (h : source.Provided t v s) : source.Provided t v u :=
  fun c hc hd => hmet _ (h c hc hd)

namespace Closed

theorem empty : source.Closed .empty := fun _ _ _ hk => absurd hk List.not_mem_nil

theorem mono {s u : Findings} (hmet : ∀ key, s.Met key → u.Met key)
    (hdone : ∀ c, source.recordKey c ∈ u.done → source.recordKey c ∈ s.done) (h : source.Closed s) : source.Closed u :=
  fun c hc hd hk field hf => (h c hc hd (hdone c hk) field hf).mono hmet

theorem start (h : source.Closed s) (key : Text) : source.Closed { s with started := key :: s.started } := by
  have hmet : ∀ k, s.Met k → ({ s with started := key :: s.started } : Findings).Met k :=
    fun _ hk => hk.imp_right (List.mem_cons_of_mem _)
  exact h.mono hmet fun _ => id

/-- What is no struct and no union is done. -/
theorem finish (h : source.Closed s) {key : Text} (hkey : ∀ c, source.recordKey c ≠ key) (table : TypeTable) :
    source.Closed { s with table, done := key :: s.done } := by
  have hmet : ∀ k, s.Met k → ({ s with table, done := key :: s.done } : Findings).Met k :=
    fun _ hk => hk.imp_left (List.mem_cons_of_mem _)
  exact h.mono hmet fun c hc => (List.mem_cons.1 hc).resolve_left (hkey c)

/-- A struct or union is done, its members being provided. -/
theorem define {started : List Text} (h : source.Closed u) (hw : source.WellNamed) (hc : c ∈ source.records)
    (hd : c.definition.isSome = true) (hstarted : u.started = source.recordKey c :: started)
    (hfields : ∀ field ∈ source.fieldsOf c, source.Provided (source.typeOf field) true u) (table : TypeTable) :
    source.Closed { u with table, started, done := source.recordKey c :: u.done } := by
  have hmet : ∀ key, u.Met key →
      ({ u with table, started, done := source.recordKey c :: u.done } : Findings).Met key := by
    intro key hk
    rcases hk with hk | hk
    · exact Or.inl (List.mem_cons_of_mem _ hk)
    · rw [hstarted] at hk
      exact (List.mem_cons.1 hk).imp_left fun h => List.mem_cons.2 (Or.inl h)
  intro d hrecord hdefinition hk field hf
  rcases List.mem_cons.1 hk with hk | hk
  · -- another cursor under the key has the same definition
    have hsame := hw.record d hrecord c hc hk hdefinition hd
    rw [fieldsOf, hsame] at hf
    exact (hfields field hf).mono hmet
  · exact (h d hrecord hdefinition hk field hf).mono hmet

end Closed

/-- What a type holds is in its parts. -/
theorem Provided.of_parts {t : TypeId} {v : Bool} {s : Findings} (hk : (source.unit.type t).kind ≠ .record)
    (h : ∀ p ∈ source.parts t v, source.Provided p.1 p.2 s) : source.Provided t v s := by
  intro c hc hd
  cases hc with
  | record hrecord => exact absurd hrecord hk
  | part hp hc => exact h _ hp.mem_parts c hc hd

/-- Conversions define what types hold. -/
def kept (source : Source) : Contract where
  invariant s := source.Recorded s ∧ source.Closed s
  admits _ _ _ := True
  enters c _ := c ∈ source.records
  names c := Glyph.char ' ' ∉ c.spelling
  answers t v _ := source.Provided t v

theorem kept_governs (hw : source.WellNamed) : source.kept.Governs source where
  empty := ⟨.empty, .empty⟩
  allows _ hid := ⟨top_mem_records hid, fun hk => ⟨hw.typedef _ (top_mem_typedefs hid hk), trivial⟩⟩
  idle _ := trivial
  sameTypes := by
    intro s t hs h
    refine ⟨hs.1.congr h, hs.2.mono (fun key hk => ?_) fun c hc => h.done ▸ hc⟩
    rwa [Findings.Met, h.done, h.started]
  grows hst h := h.mono fun _ => hst.met
  part _ _ := trivial
  underlying hk _ _ := ⟨hw.typedef _ (declared_mem_typedefs hk), trivial⟩
  enter hk _ _ := declared_mem_records hk
  member _ _ _ _ := trivial
  leaf h _ := .of_parts h.ne_record (by simp [h.parts_eq_nil])
  unqualified h _ := h
  passes := by
    intro t v next type s hpasses h
    cases hpasses with
    | elaborated hk | other hk => exact .of_parts (by simp [hk]) (by simpa [kept, parts, hk] using h)
    | system hk ho hs => exact .of_parts (by simp [hk]) (by simpa [kept, parts, hk, ho] using h)
  array := by
    intro t v type length s harray h
    rcases harray with hk | hk | hk <;> exact .of_parts (by simp [hk]) (by simpa [kept, parts, hk] using h)
  pointer hk h := .of_parts (by simp [hk]) (by simpa [kept, parts, hk] using h)
  function := by
    intro t v arguments result parameters variadic s hk ha hresult hparameters
    rcases hk with hk | hk
    · rw [hk, if_pos rfl] at ha
      have hall : ∀ a ∈ (source.unit.type t).arguments, source.Provided a false s := by
        intro a hmem
        obtain ⟨_, _, hp⟩ := forall₂_exists_of_mem_left hparameters (ha ▸ hmem)
        exact hp
      refine .of_parts (by simp [hk]) ?_
      simpa [parts, hk] using ⟨hresult, hall⟩
    · exact .of_parts (by simp [hk]) (by simpa [kept, parts, hk] using hresult)
  reached := by
    intro t v s hk _ _ hreached c hc hd
    cases hc with
    | part hp _ =>
      have hmem := hp.mem_parts
      simp [parts, hk] at hmem
    | record _ hv =>
      cases hreached with
      | defined _ h => exact Or.inl h
      | started _ h => exact Or.inr h
      | undefined _ hnone _ =>
        rw [hnone] at hd
        cases hd
      | named hfalse hanon _ =>
        rw [hfalse, hanon] at hv
        rcases hv with hv | hv <;> cases hv
  typedefDone hk ho _ _ := .of_parts (by simp [hk]) (by simp [parts, hk, ho])
  enumerationDone hk _ _ := .of_parts (by simp [hk]) (by simp [parts, hk])
  start hs _ _ _ _ := ⟨⟨hs.1.nodup, hs.1.complete⟩, hs.2.start _⟩
  name hs _ hr := ⟨hs.1.register hr, hs.2⟩
  define := by
    intro c members started table stored u hu hc hd hstarted _ hmembers hr
    have hfields : ∀ field ∈ source.fieldsOf c, source.Provided (source.typeOf field) true u := by
      intro field hf
      obtain ⟨_, _, hm⟩ := forall₂_exists_of_mem_left hmembers hf
      exact hm
    exact ⟨hu.1.define hr rfl, hu.2.define hw hc hd hstarted hfields table⟩
  defineTypedef hu hc _ hr := ⟨hu.1.defineTypedef hr hc, hu.2.finish (recordKey_ne_of_space hc) _⟩
  defineEnumeration hs _ hr := ⟨hs.1.defineEnumeration hr, hs.2.finish (recordKey_ne_enum · _) _⟩

/-- **What is kept is complete in the table** after both passes. -/
theorem Surveys.complete (h : source.Surveys source.unit.top .empty t) (hw : source.WellNamed) (hc : source.Kept c)
    (hd : c.definition.isSome = true) : t.table.Complete (source.recordKey c) := by
  obtain ⟨⟨⟨hrecorded, hclosed⟩, hstarted⟩, hreached⟩ := (kept_governs hw).surveys h
  refine hrecorded.complete c ?_
  induction hc with
  | top hid hdefines => exact (hreached _ hid hdefines).done hd hstarted
  | member hc hdefinition hf hholds ih =>
    refine (hclosed _ hc.mem_records hdefinition (ih hdefinition) _ hf _ hholds hd).resolve_right fun hk => ?_
    rw [hstarted] at hk
    cases hk

/-- **The structs and unions that a walk keeps are complete in the table.** -/
theorem kept_complete (hw : source.WellNamed) {interface : Interface} (h : source.interface = .ok interface)
    (hc : source.Kept c) (hd : c.definition.isSome = true) : interface.table.Complete (source.recordKey c) := by
  obtain ⟨t, hsurveys, htable⟩ := interface_surveys h
  rw [htable]
  exact hsurveys.complete hw hc hd

end Source

/-! The header `struct a { struct b { int x; } *p; struct c { int y; } q; };`, which defines two structs inside
another. -/

def insideSource : Source :=
  { staged := ⟨[], [("a.h", [])], []⟩
    unit :=
      { top := [some 0], diagnostics := []
        cursors := #[
          { kind := .structDecl, spelling := "a", file := some "corpus/a.h", isDefinition := true
            definition := some 0, type := some 0 },
          { kind := .structDecl, spelling := "b", file := some "corpus/a.h", isDefinition := true
            definition := some 1, type := some 1 },
          { kind := .structDecl, spelling := "c", file := some "corpus/a.h", isDefinition := true
            definition := some 2, type := some 2 },
          { spelling := "x", type := some 3, fieldOffset := 0 },
          { spelling := "y", type := some 3, fieldOffset := 0 },
          { spelling := "p", type := some 4, fieldOffset := 0 },
          { spelling := "q", type := some 2, fieldOffset := 32 }]
        types := #[
          { kind := .record, size := 8, align := 4, declaration := some 0, fields := [some 5, some 6] },
          { kind := .record, size := 4, align := 4, declaration := some 1, fields := [some 3] },
          { kind := .record, size := 4, align := 4, declaration := some 2, fields := [some 4] },
          { kind := .scalar .int, spelling := "int", size := 4, align := 4 },
          { kind := .pointer, size := 4, align := 4, pointee := some 1 }] } }

theorem insideSource_interface : ∃ interface, insideSource.interface = .ok interface ∧
    interface.table.get? "struct b" = some (.record (Source.incompleteRecord "struct b" .struct false "a.h")) := by
  have hfound : insideSource.interface.toOption.map (·.table.get? "struct b") =
      some (some (.record (Source.incompleteRecord "struct b" .struct false "a.h"))) := by decide +kernel
  exact exists_of_toOption_map hfound

theorem insideSource_wellNamed : insideSource.WellNamed := ⟨by decide, by decide⟩

/-- The struct that is held by value is complete. -/
theorem insideSource_kept : ∃ interface, insideSource.interface = .ok interface ∧ insideSource.WellNamed ∧
    insideSource.Kept (insideSource.unit.cursor (some 2)) ∧ interface.table.Complete "struct c" := by
  obtain ⟨interface, hinterface, -⟩ := insideSource_interface
  have hdefines : insideSource.Defines (insideSource.unit.cursor (some 0)) := ⟨by decide, Or.inl rfl, rfl⟩
  have htop : insideSource.Kept (insideSource.unit.cursor (some 0)) := .top List.mem_cons_self hdefines
  have hholds : insideSource.Holds (some 2) true (insideSource.unit.cursor (some 2)) := .record rfl (Or.inl rfl)
  have hfield : some 6 ∈ insideSource.fieldsOf (insideSource.unit.cursor (some 0)) := by decide
  have hkept : insideSource.Kept (insideSource.unit.cursor (some 2)) := .member htop rfl hfield hholds
  exact ⟨interface, hinterface, insideSource_wellNamed, hkept,
    Source.kept_complete insideSource_wellNamed hinterface hkept rfl⟩

/-- The struct that only a pointer leads to has a definition in the header, and none in the table. -/
theorem insideSource_lost : ∃ interface, insideSource.interface = .ok interface ∧
    insideSource.Part (some 4) true (some 1) false ∧
    insideSource.declared (some 1) = insideSource.unit.cursor (some 1) ∧
    insideSource.Defines (insideSource.unit.cursor (some 1)) ∧ ¬ interface.table.Complete "struct b" := by
  obtain ⟨interface, hinterface, hget⟩ := insideSource_interface
  have hdefines : insideSource.Defines (insideSource.unit.cursor (some 1)) := ⟨by decide, Or.inl rfl, rfl⟩
  refine ⟨interface, hinterface, .pointee rfl, rfl, hdefines, ?_⟩
  rintro ⟨r, hr, hcomplete⟩
  rw [hget] at hr
  cases hr
  cases hcomplete

end TrapStub
