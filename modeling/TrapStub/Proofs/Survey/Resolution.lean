import TrapStub.Proofs.Plan.Registers
import TrapStub.Proofs.Survey.Walk
import TrapStub.Proofs.TypeTable.Resolution

/-!
# Signatures stay resolved

Every prototype is checked when its types have been converted: what it uses by value leads to more
than the name of a record. The table goes on growing for the prototypes behind it, but what was
checked stays, so that a plan fails for what a signature asks for and never for a type.

* `Declaration.types`, `TypeTable.Resolves`: what a signature uses by value, and that all of it is defined.
* `requireDefinedSignature_eq_ok`: what the check of a prototype finds out.
* `Source.interface_resolves`: **every declaration of an interface is resolved in its table.**
* `Plan.ofDeclaration_fault`: what a plan for a resolved declaration fails for.
* `types_stay_resolved`: **once resolved, types stay resolved.**
-/

namespace TrapStub

/-- The types that a declaration uses by value. -/
def Declaration.types (d : Declaration) : List CType := d.returnType :: d.parameters.map (·.type)

/-- Each type of the declaration leads to more than the name of a record. -/
def TypeTable.Resolves (table : TypeTable) (d : Declaration) : Prop :=
  ∀ t ∈ d.types, ∃ shape, table.lookup t = .ok shape ∧ shape.IsDefined

variable {table table' : TypeTable} {d : Declaration} {fault : Fault}

theorem TypeTable.Resolves.extends (h : table.Resolves d) (hext : table.Extends table') : table'.Resolves d := by
  intro t ht
  obtain ⟨shape, hlookup, hshape⟩ := h t ht
  exact ⟨shape, hext.lookup hshape hlookup, hshape⟩

/-! ## The check of a prototype -/

theorem requireDefined_eq_ok {part : SignaturePart} {t : CType} : requireDefined table d part t = .ok () ↔
    ∃ shape, table.lookup t = .ok shape ∧ shape.IsDefined := by
  unfold requireDefined
  cases table.lookup t with
  | error cause => simp
  | ok shape =>
    cases shape with
    | record r => cases hr : r.isComplete <;> simp [Shape.IsDefined, hr]
    | void | scalar _ | pointer _ | array _ _ | function _ _ _ | enumeration _ => simp [Shape.IsDefined]

/-- **The check answers just if all types are resolved.** -/
theorem requireDefinedSignature_eq_ok : requireDefinedSignature table d = .ok () ↔ table.Resolves d := by
  unfold requireDefinedSignature TypeTable.Resolves Declaration.types
  rw [bind_eq_ok, forM_eq_ok, List.forall_mem_cons, List.forall_mem_map]
  simp only [requireDefined_eq_ok]
  exact ⟨fun ⟨_, hreturn, hl⟩ => ⟨requireDefined_eq_ok.1 hreturn, hl⟩,
    fun ⟨hreturn, hl⟩ => ⟨(), requireDefined_eq_ok.2 hreturn, hl⟩⟩

/-! ## All prototypes -/

/-- If no key stands twice in the earlier table, none does in the later one, and what is defined is kept. -/
def Findings.Extends (s t : Findings) : Prop :=
  s.table.keys.Nodup → t.table.keys.Nodup ∧ s.table.Extends t.table

namespace Source

variable {source : Source} {s t : Findings}

/-- A walk keeps what is defined. -/
theorem steady_extends : Survey.Steady Findings.Extends where
  refl s hn := ⟨hn, .refl s.table⟩
  trans hst htu hn := by
    obtain ⟨ht, hext⟩ := hst hn
    obtain ⟨hu, hext'⟩ := htu ht
    exact ⟨hu, hext.trans hext'⟩
  register s definition table stored h hn :=
    ⟨(TypeTable.register_cases h).keys_nodup hn, TypeTable.extends_of_register hn h⟩
  start s key hn := ⟨hn, .refl s.table⟩
  stop s key hn := ⟨hn, .refl s.table⟩
  finish s key hn := ⟨hn, .refl s.table⟩
  enumerate s e table stored h hn :=
    ⟨(TypeTable.register_cases h).keys_nodup hn, TypeTable.extends_of_register hn h⟩
  beside h hn := by
    rw [h.sameTypes.table]
    exact ⟨hn, .refl _⟩

/-- A signature that is answered is resolved in the table it leaves. -/
theorem signature_resolves {id : CursorId} {types : List Parameter × CType} {number : Int}
    (h : source.signature id s = .ok (types, t)) :
    t.table.Resolves (source.declarationOf (source.unit.cursor id) number types) := by
  unfold signature at h
  obtain ⟨types, u, -, h⟩ := Survey.bind_eq_ok.1 h
  obtain ⟨_, _, hget, h⟩ := Survey.bind_eq_ok.1 h
  obtain ⟨rfl, rfl⟩ := Survey.get_eq_ok.1 hget
  obtain ⟨_, _, hrequire, h⟩ := Survey.bind_eq_ok.1 h
  obtain ⟨hdefined, rfl⟩ := Survey.lift_eq_ok.1 hrequire
  obtain ⟨rfl, rfl⟩ := Survey.pure_eq_ok.1 h
  exact requireDefinedSignature_eq_ok.1 hdefined

/-- **What each prototype was checked for holds after all of them.** -/
theorem mapM_declaration_resolves {l : List CursorId} {ds : List Declaration} (hn : s.table.keys.Nodup)
    (h : l.mapM source.declaration s = .ok (ds, t)) : ∀ d ∈ ds, t.table.Resolves d := by
  have hpreserves : ∀ id, Survey.Preserves Findings.Extends (source.declaration id) := by
    intro id s d t hd
    obtain ⟨number, types, -, hs, -⟩ := declaration_eq_ok.1 hd
    exact signature_preserves steady_extends.toChains (convert_preserves steady_extends.toStable) id s types t hs
  induction l generalizing s t ds with
  | nil =>
    obtain ⟨rfl, -⟩ := Survey.pure_eq_ok.1 h
    exact List.forall_mem_nil _
  | cons id l ih =>
    rw [List.mapM_cons] at h
    obtain ⟨d, u, hd, h⟩ := Survey.bind_eq_ok.1 h
    obtain ⟨rest, hrest, rfl⟩ := Survey.bind_pure_eq_ok.1 h
    obtain ⟨hu, -⟩ := hpreserves id s d u hd hn
    obtain ⟨-, hext⟩ := steady_extends.mapM (fun id _ => hpreserves id) u rest t hrest hu
    obtain ⟨number, types, -, hs, rfl⟩ := declaration_eq_ok.1 hd
    exact List.forall_mem_cons.2 ⟨(signature_resolves hs).extends hext, ih hu hrest⟩

/-- **Every declaration of an interface is resolved in its table**, whatever was registered behind it. -/
theorem interface_resolves {interface : Interface} (h : source.interface = .ok interface) :
    ∀ d ∈ interface.declarations, interface.table.Resolves d := by
  obtain ⟨ds, t, hrun, rfl⟩ := interface_eq_ok h
  obtain ⟨_, s, hvisit, hds⟩ := Survey.bind_eq_ok.1 hrun
  have hvisits : Survey.Preserves Findings.Extends source.visitAll :=
    steady_extends.forM _ fun id _ => visit_preserves steady_extends id
  obtain ⟨hn, -⟩ := hvisits .empty () s hvisit List.nodup_nil
  obtain ⟨walked, hwalk, -, rfl⟩ := declarations_eq_ok hds
  intro d hd
  exact (mapM_declaration_resolves hn hwalk d (List.mem_mergeSort.1 hd)).extends (TypeTable.extends_freeze _)

end Source

/-! ## Plans -/

namespace Plan

/-- The fault says that the declaration asks for what registers cannot carry. -/
def Refuses (d : Declaration) (fault : Fault) : Prop :=
  ∃ cause, fault = refuse d cause ∧ (cause.kind = .unsupportedParameterShape ∨ cause.kind = .registerPressureExceeded)

theorem orRefuse_fault {α : Type} {x : Except Unsupported α} (h : orRefuse d x = .error fault) : Refuses d fault := by
  cases x with
  | ok a => cases h
  | error cause =>
    cases h
    exact ⟨.unsupported cause, rfl, Or.inl rfl⟩

theorem allocate_fault {a : Allocation} {l : List (Parameter × Nat)}
    (hl : ∀ p ∈ l, ∃ shape, table.lookup p.1.type = .ok shape) (h : allocate d table a l = .error fault) :
    Refuses d fault := by
  induction l generalizing a with
  | nil => cases h
  | cons p rest ih =>
    obtain ⟨⟨shape, hshape⟩, hrest⟩ := List.forall_mem_cons.1 hl
    rw [allocate, passing_ok hshape, ok_bind] at h
    rcases bind_eq_error.1 h with h | ⟨a', -, h⟩
    · exact orRefuse_fault h
    · exact ih hrest h

/-- **A resolved declaration is only refused for what it asks of the registers.** -/
theorem ofDeclaration_fault (hd : table.Resolves d) (h : ofDeclaration d table = .error fault) :
    Refuses d fault := by
  obtain ⟨⟨result, hresult, -⟩, hparameters⟩ := List.forall_mem_cons.1 hd
  have hl : ∀ p ∈ d.parameters.zipIdx, ∃ shape, table.lookup p.1.type = .ok shape := by
    intro p hp
    obtain ⟨shape, hshape, -⟩ := hparameters _ (List.mem_map_of_mem (List.fst_mem_of_mem_zipIdx hp))
    exact ⟨shape, hshape⟩
  unfold ofDeclaration at h
  split at h
  · cases h
    exact ⟨.unsupported .variadic, rfl, Or.inl rfl⟩
  · rw [passing_ok hresult, ok_bind] at h
    rcases bind_eq_error.1 h with h | ⟨returns, -, h⟩
    · exact orRefuse_fault h
    rcases bind_eq_error.1 h with h | ⟨a, -, h⟩
    · exact allocate_fault hl h
    · split at h
      · cases h
        exact ⟨.pressure a.next argumentRegisters, rfl, Or.inr rfl⟩
      · cases h

theorem ofDeclarations_fault {ds : List Declaration} (hds : ∀ d ∈ ds, table.Resolves d)
    (h : ofDeclarations ds table = .error fault) : ∃ d ∈ ds, Refuses d fault := by
  unfold ofDeclarations at h
  induction ds with
  | nil => cases h
  | cons d rest ih =>
    obtain ⟨hd, hrest⟩ := List.forall_mem_cons.1 hds
    rw [List.mapM_cons] at h
    rcases bind_eq_error.1 h with h | ⟨plan, -, h⟩
    · exact ⟨d, List.mem_cons_self, ofDeclaration_fault hd h⟩
    · rcases bind_eq_error.1 h with h | ⟨plans, -, h⟩
      · obtain ⟨d', hd', hrefuses⟩ := ih hrest h
        exact ⟨d', List.mem_cons_of_mem d hd', hrefuses⟩
      · cases h

end Plan

/-- **Once resolved, types stay resolved.** A shape that is more than the name of a record is found in
all later tables of a history; so the types of all declarations are resolved in the table of their
interface, and a plan is only refused for what a declaration asks of the registers. -/
theorem types_stay_resolved :
    (∀ actions m n t shape, m ≤ n → (TypeTable.tableAt actions m).lookup t = .ok shape → shape.IsDefined →
      (TypeTable.tableAt actions n).lookup t = .ok shape) ∧
    ∀ (source : Source) interface, source.interface = .ok interface →
      (∀ d ∈ interface.declarations, ∀ t ∈ d.types, ∃ shape,
        interface.table.lookup t = .ok shape ∧ shape.IsDefined) ∧
      ∀ fault, Plan.ofDeclarations interface.declarations interface.table = .error fault →
        ∃ d ∈ interface.declarations, Plan.Refuses d fault := by
  refine ⟨fun actions m n t shape hmn hlookup hshape => ?_, fun source interface h => ?_⟩
  · exact (TypeTable.tableAt_extends actions hmn).lookup hshape hlookup
  · have hresolves := Source.interface_resolves h
    exact ⟨hresolves, fun fault hfault => Plan.ofDeclarations_fault hresolves hfault⟩

/-! The header `SVCALL(1, void, f(struct s a)); SVCALL(2, void, g(struct k *p));` under a system header that defines
`struct s`. The second prototype names a struct that the table has not met when the first one is checked. -/

def growingSource : Source :=
  { staged := ⟨[], [("a.h", [])], []⟩
    unit :=
      { top := [some 0, some 3, some 6], diagnostics := []
        cursors := #[
          { kind := .enumDecl, file := some "corpus/a.h", isDefinition := true, children := [some 1, some 2] },
          { kind := .enumConstantDecl, spelling := "__svcall_f", enumValue := 1 },
          { kind := .enumConstantDecl, spelling := "__svcall_g", enumValue := 2 },
          { kind := .functionDecl, spelling := "f", file := some "corpus/a.h", line := 1, children := [some 4]
            arguments := [some 5], resultType := some 1 },
          { kind := .annotateAttr, spelling := "svcall:1" },
          { spelling := "a", type := some 0 },
          { kind := .functionDecl, spelling := "g", file := some "corpus/a.h", line := 2, children := [some 4]
            arguments := [some 7], resultType := some 1 },
          { spelling := "p", type := some 2 },
          { kind := .structDecl, spelling := "s", isDefinition := true, definition := some 8, type := some 0 },
          { kind := .structDecl, spelling := "k" }]
        types := #[
          { kind := .record, size := 8, align := 4, declaration := some 8 },
          { kind := .void },
          { kind := .pointer, size := 4, align := 4, pointee := some 3 },
          { kind := .record, declaration := some 9 }] } }

/-- The struct `s` as the walk defines it. -/
def growingRecord : Record :=
  { key := "struct s", kind := .struct, size := 8, align := 4, packed := false, aligned := false, pack := none
    anonymous := false, origin := [], comment := none, members := some [] }

/-- A typedef of it. -/
def growingTypedef : Typedef := ⟨"s_t", .named "struct s", "a.h", none⟩

/-- A history that registers `s`, a typedef of it, and then the name of `k`. -/
def growingActions : List TypeTable.Action :=
  [.register (.record growingRecord), .register (.typedef growingTypedef),
    .register (.record (Source.incompleteRecord "struct k" .struct false "a.h"))]

theorem growingSource_stays :
    (TypeTable.tableAt growingActions 2).lookup (.named "s_t") = .ok (.record growingRecord) ∧
    (TypeTable.tableAt growingActions 3).lookup (.named "s_t") = .ok (.record growingRecord) ∧
    ∃ interface, growingSource.interface = .ok interface ∧ interface.table.contains "struct k" = true ∧
      (∀ d ∈ interface.declarations, interface.table.Resolves d) ∧
      ∃ fault, Plan.ofDeclarations interface.declarations interface.table = .error fault ∧
        ∃ d ∈ interface.declarations, Plan.Refuses d fault := by
  have hlookup : (TypeTable.tableAt growingActions 2).lookup (.named "s_t") = .ok (.record growingRecord) := by cbv
  have hwalk : growingSource.interface.toOption.map (fun interface => (interface.table.contains "struct k",
      (Plan.ofDeclarations interface.declarations interface.table).toOption.isSome)) = some (true, false) := by cbv
  obtain ⟨interface, hinterface, hfacts⟩ := exists_of_toOption_map hwalk
  obtain ⟨hcontains, hplans⟩ := Prod.mk.inj hfacts
  obtain ⟨hresolves, hrefused⟩ := types_stay_resolved.2 growingSource interface hinterface
  refine ⟨hlookup, types_stay_resolved.1 growingActions 2 3 _ _ (by decide) hlookup rfl, interface, hinterface,
    hcontains, hresolves, ?_⟩
  cases hfault : Plan.ofDeclarations interface.declarations interface.table with
  | ok plans => rw [hfault] at hplans; cases hplans
  | error fault => exact ⟨fault, rfl, hrefused fault hfault⟩

end TrapStub
