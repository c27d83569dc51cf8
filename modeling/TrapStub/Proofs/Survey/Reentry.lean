import TrapStub.Proofs.Survey.Answers
import TrapStub.Proofs.Survey.Termination

/-!
# Typedefs that are visited again

A typedef counts as done when its target is, so a typedef that leads back to itself is visited again while
its target is converted. The answer of a conversion does not depend on when it is made, so the second visit
comes to the same target. It enters the same definition, and the first visit finds it there.

Another declaration of the same name can get between: where two headers declare one typedef and the first is
being visited, the definition of the second enters the table with the second header. Then the first visit does
not find its own definition, although the shapes agree.

* `Source.typedefOf`: the definition that the visit of a typedef makes.
* `Source.Entered`: what the visit of a typedef leaves in the table.
* `Source.conversion_steady`: **conversions answer the same at any time, and a typedef that is visited again
  finds its own definition.**
-/

namespace TrapStub

variable {s t u : Findings}

namespace TypeTable

variable {table table' : TypeTable} {d stored entry : TypeDef}

/-- A typedef that is there has the shape of what was registered. -/
theorem sameShape_of_register {a : Typedef} (h : table.register (.typedef a) = .ok (table', stored)) :
    ∃ e : Typedef, table'.get? a.key = some (.typedef e) ∧ (TypeDef.typedef e).sameShape (.typedef a) = true := by
  cases register_cases h with
  | placed =>
    refine ⟨a, ?_, by simp [TypeDef.sameShape]⟩
    rw [get?_placeLast]
    exact if_pos rfl
  | @kept earlier hget hmeet =>
    rcases TypeDef.meet_eq_keep.1 hmeet with hsame | hrenames
    · cases earlier with
      | typedef e => exact ⟨e, hget, hsame⟩
      | record r => cases TypeDef.sameShape_iff.1 hsame
      | enumeration e => cases TypeDef.sameShape_iff.1 hsame
    · cases hrenames.2.2

/-- Registering over a definition of the same shape changes nothing. -/
theorem register_same (hopen : table.frozen = false) (hget : table.get? d.key = some entry)
    (hsame : entry.sameShape d = true) : table.register d = .ok (table, entry) := by
  have hmeet : entry.meet d = .keep := TypeDef.meet_eq_keep.2 (Or.inl hsame)
  simp only [register, hopen, Bool.false_eq_true, if_false, hget, hmeet]

/-- A typedef of another shape is refused. -/
theorem register_other {a e : Typedef} (hopen : table.frozen = false) (hget : table.get? a.key = some (.typedef e))
    (hother : ¬ (TypeDef.typedef e).sameShape (.typedef a) = true) :
    table.register (.typedef a) = .error (redefinition (.typedef e) (.typedef a)) := by
  have hmeet : (TypeDef.typedef e).meet (.typedef a) = .conflict := by simp [TypeDef.meet, hother]
  have hget : table.get? (TypeDef.typedef a).key = some (.typedef e) := hget
  simp only [register, hopen, Bool.false_eq_true, if_false, hget, hmeet]
  rfl

theorem open_of_register (h : table.register d = .ok (table', stored)) : table.frozen = false := by
  refine Bool.eq_false_iff.2 fun hfrozen => ?_
  rw [register, if_pos hfrozen] at h
  cases h

end TypeTable

namespace Source

open Survey

variable {source : Source} {limit : Nat} {c d : Cursor} {target : CType} {byValue : Bool}

/-- The definition that the visit of a typedef makes of its target. -/
def typedefOf (source : Source) (c : Cursor) (target : CType) : Typedef :=
  { key := c.spelling, target, origin := source.originOf c, comment := c.comment }

theorem sameShape_typedefOf {e : Typedef} :
    (TypeDef.typedef e).sameShape (.typedef (source.typedefOf c target)) = true ↔
      e.key = c.spelling ∧ e.target = target ∧ e.origin = source.originOf c := by
  simp [TypeDef.sameShape, TypeDef.withoutComment, typedefOf]

/-- The visit of a typedef after some findings converts its target, and its definition enters the table. -/
def Enters (source : Source) (d : Cursor) (s : Findings) (target : CType) : Prop :=
  ∃ limit byValue u, source.convertWith (source.convertWithin limit) d.underlying byValue s = .ok (target, u) ∧
    ∃ table stored, u.table.register (.typedef (source.typedefOf d target)) = .ok (table, stored)

/-- **What was visited on the way is there**, if it was not done: the definition of the typedef has entered the
table, and its shape has stayed. -/
theorem entered (h : Visited source d s t) (hn : d.spelling ∉ s.done) : t.table.frozen = false ∧
    ∃ target, source.Enters d s target ∧ ∃ e : Typedef, t.table.get? d.spelling = some (.typedef e) ∧
      (TypeDef.typedef e).sameShape (.typedef (source.typedefOf d target)) = true := by
  obtain ⟨limit, byValue, type, v, hvisit, hretains⟩ := h
  rcases (typedef_cases hvisit).2 with ⟨hdone, -⟩ | ⟨-, target, u, table, stored, htarget, hr, rfl⟩
  · exact absurd hdone hn
  · have hopen := (register_frozen hr).trans (TypeTable.open_of_register hr)
    obtain ⟨e, hget, hsame⟩ := TypeTable.sameShape_of_register hr
    exact ⟨hretains.frozen.trans hopen, target, ⟨limit, byValue, u, htarget, table, stored, hr⟩, e,
      hretains.typedef _ _ hget, hsame⟩

/-- **Conversions answer the same at any time.** Two conversions of one type that answer, after whatever findings and
however the type is used, answer the same. So where a typedef is visited on the way of its own target, not being done,
both visits make one definition, and the second registration changes nothing. Another declaration of the same name that
is visited on the way has this effect just if it has the same target and stands in the same header; else the second
registration is a conflict. -/
theorem conversion_steady (source : Source) :
    (∀ limit limit' t v w s s' type type' u u',
      source.convertWith (source.convertWithin limit) t v s = .ok (type, u) →
      source.convertWith (source.convertWithin limit') t w s' = .ok (type', u') → type = type') ∧
    ∀ limit (c : Cursor) byValue s target u,
      source.convertWith (source.convertWithin limit) c.underlying byValue s = .ok (target, u) →
      ∀ d s', .typedef d s' ∈ source.courseWithin limit c.underlying byValue s → d.spelling = c.spelling →
        c.spelling ∉ s'.done → ∃ target', source.Enters d s' target' ∧ (d = c → target' = target) ∧
          ∃ e : Typedef, u.table.get? c.spelling = some (.typedef e) ∧
            (TypeDef.typedef e).sameShape (.typedef (source.typedefOf d target')) = true ∧
            (target' = target ∧ source.originOf d = source.originOf c →
              u.table.register (.typedef (source.typedefOf c target)) = .ok (u.table, .typedef e)) ∧
            (¬ (target' = target ∧ source.originOf d = source.originOf c) →
              u.table.register (.typedef (source.typedefOf c target)) =
                .error (TypeTable.redefinition (.typedef e) (.typedef (source.typedefOf c target)))) := by
  refine ⟨fun limit limit' t v w s s' type type' u u' h h' => convertWith_agree limit limit' t v w s u s' u' _ _ h h',
    fun limit c byValue s target u h d s' hevent hname hn => ?_⟩
  have hvisited := (convertWith_charts (convertWithin_charts limit) _ _).visited s target u h d s' hevent
  obtain ⟨hopen, target', henters, e, hget, hsame⟩ := entered hvisited (hname ▸ hn)
  rw [hname] at hget
  refine ⟨target', henters, fun hd => ?_, e, hget, hsame, fun hagree => ?_, fun hdiffer => ?_⟩
  · obtain ⟨limit', w, v, htarget, -⟩ := henters
    subst hd
    exact convertWith_agree limit' limit _ w byValue _ _ _ _ _ _ htarget h
  · obtain ⟨hkey, htarget, horigin⟩ := sameShape_typedefOf.1 hsame
    refine TypeTable.register_same hopen hget (sameShape_typedefOf.2 ⟨hkey.trans hname, ?_, ?_⟩)
    · exact htarget.trans hagree.1
    · exact horigin.trans hagree.2
  · obtain ⟨-, htarget, horigin⟩ := sameShape_typedefOf.1 hsame
    refine TypeTable.register_other hopen hget fun hshape => hdiffer ?_
    obtain ⟨-, htarget', horigin'⟩ := sameShape_typedefOf.1 hshape
    exact ⟨htarget.symm.trans htarget', horigin.symm.trans horigin'⟩

end Source

/-- The second visit of the typedef in `ringSource` is made while its target is being defined. -/
theorem ringSource_steady : ∃ u, ∃ e : Typedef,
    ringSource.convertWith (ringSource.convertWithin 8) (some 0) true .empty = .ok (.named "struct r", u) ∧
    .typedef (ringSource.unit.cursor (some 0)) { Findings.empty with started := ["struct r"] } ∈
      ringSource.courseWithin 8 (some 0) true .empty ∧
    ringSource.Enters (ringSource.unit.cursor (some 0)) { Findings.empty with started := ["struct r"] }
      (.named "struct r") ∧
    u.table.register (.typedef (ringSource.typedefOf (ringSource.unit.cursor (some 0)) (.named "struct r"))) =
      .ok (u.table, .typedef e) := by
  have htarget : (ringSource.convertWith (ringSource.convertWithin 8) (some 0) true .empty).toOption.map (·.1) =
      some (.named "struct r") := by decide
  obtain ⟨⟨type, u⟩, hrun, rfl⟩ := exists_of_toOption_map htarget
  have hevent : (ringSource.courseWithin 8 (some 0) true .empty)[1]? = some (.typedef (ringSource.unit.cursor (some 0))
      { Findings.empty with started := ["struct r"] }) := rfl
  have hevent := List.mem_of_getElem? hevent
  obtain ⟨target', henters, hsame, e, -, -, hregister, -⟩ := (Source.conversion_steady ringSource).2 8
    (ringSource.unit.cursor (some 0)) true .empty _ u hrun _ _ hevent rfl List.not_mem_nil
  obtain rfl := hsame rfl
  exact ⟨u, e, hrun, hevent, henters, hregister ⟨rfl, rfl⟩⟩

/-! The headers `typedef struct r r_t; typedef r_t *r_ptr;` and `typedef struct r r_t; struct r { r_t *next;
r_ptr prev; };`, which declare one typedef each in their own place. -/

def repeatedSource : Source :=
  { staged := ⟨[], [("a.h", []), ("b.h", [])], []⟩
    unit :=
      { top := [some 0, some 1, some 2, some 3], diagnostics := []
        cursors := #[
          { kind := .typedefDecl, spelling := "r_t", file := some "corpus/a.h", underlying := some 0 },
          { kind := .typedefDecl, spelling := "r_ptr", file := some "corpus/a.h", underlying := some 1 },
          { kind := .typedefDecl, spelling := "r_t", file := some "corpus/b.h", underlying := some 0 },
          { kind := .structDecl, spelling := "r", file := some "corpus/b.h", isDefinition := true
            definition := some 3, type := some 0 },
          { spelling := "next", type := some 2, fieldOffset := 0 },
          { spelling := "prev", type := some 4, fieldOffset := 32 }]
        types := #[
          { kind := .record, size := 8, align := 4, declaration := some 3, fields := [some 4, some 5] },
          { kind := .pointer, size := 4, align := 4, pointee := some 3 },
          { kind := .pointer, size := 4, align := 4, pointee := some 5 },
          { kind := .typedef, size := 8, align := 4, declaration := some 0 },
          { kind := .typedef, size := 4, align := 4, declaration := some 1 },
          { kind := .typedef, size := 8, align := 4, declaration := some 2 }] } }

/-- The definitions of the typedef in the first header and in the second one. -/
def earlierRT : Typedef := { key := "r_t", target := .named "struct r", origin := "a.h", comment := none }

def laterRT : Typedef := { key := "r_t", target := .named "struct r", origin := "b.h", comment := none }

/-- **A typedef that is visited again can be refused.** The typedef of the first header is visited again on the way of
its target, but the declaration in the second header has been visited there before. -/
theorem repeatedSource_refused :
    repeatedSource.typedefOf (repeatedSource.unit.cursor (some 0)) (.named "struct r") = earlierRT ∧
    (∃ s' u, .typedef (repeatedSource.unit.cursor (some 0)) s' ∈ repeatedSource.courseWithin 8 (some 0) true .empty ∧
      repeatedSource.convertWith (repeatedSource.convertWithin 8) (some 0) true .empty =
        .ok (.named "struct r", u) ∧
      u.table.register (.typedef earlierRT) =
        .error (TypeTable.redefinition (.typedef laterRT) (.typedef earlierRT))) ∧
    repeatedSource.interface = .error (TypeTable.redefinition (.typedef laterRT) (.typedef earlierRT)) := by
  have hmade : repeatedSource.typedefOf (repeatedSource.unit.cursor (some 0)) (.named "struct r") = earlierRT := by
    decide
  have htarget : (repeatedSource.convertWith (repeatedSource.convertWithin 8) (some 0) true .empty).toOption.map
      (fun r => (r.1, r.2.table.frozen, r.2.table.get? "r_t")) =
        some (.named "struct r", false, some (.typedef laterRT)) := by decide
  obtain ⟨⟨type, u⟩, hrun, hfound⟩ := exists_of_toOption_map htarget
  obtain ⟨rfl, hfound⟩ := Prod.mk.inj hfound
  obtain ⟨hopen, hget⟩ := Prod.mk.inj hfound
  have hevent : ∃ s', (repeatedSource.courseWithin 8 (some 0) true .empty)[3]? =
      some (.typedef (repeatedSource.unit.cursor (some 0)) s') := ⟨_, rfl⟩
  obtain ⟨s', hevent⟩ := hevent
  have hrefused := TypeTable.register_other (a := earlierRT) hopen hget (by decide)
  have hinterface : repeatedSource.interface =
      .error (TypeTable.redefinition (.typedef laterRT) (.typedef earlierRT)) :=
    fault?_eq_some.1 (by decide +kernel)
  exact ⟨hmade, ⟨s', u, List.mem_of_getElem? hevent, hrun, hrefused⟩, hinterface⟩

end TrapStub
