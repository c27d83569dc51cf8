import Mathlib
import TrapStub.Header
import TrapStub.Proofs.Header.StubRegisters
import TrapStub.Proofs.Survey.Frame
import TrapStub.Proofs.Text.Order
import TrapStub.Survey.Declarations

/-!
# Entry points

Every trap prototype of the walk becomes one declaration, one plan and one stub, under its own name
and with the trap number noted under that name. What could confuse two of them is refused.

* `Source.declarations_resolved`: what the second pass answers has one declaration for each prototype.
* `Source.declarations_refused`: what it refuses.
* `entryPoints_kept`: **every prototype has its own declaration and its own stub**, or there is no header.
-/

namespace TrapStub

variable {source : Source} {s t : Findings}

/-- The fault is a report of a malformed header. -/
def Fault.IsMalformed (fault : Fault) : Prop :=
  ∃ r, fault = .report r ∧ r.cause.kind = .malformedDeclaration

theorem Fault.malformedIn_isMalformed (cause : Malformed) (declaration origin : Text) :
    (malformedIn cause declaration origin).IsMalformed := ⟨_, rfl, rfl⟩

/-! ## The order of declarations -/

theorem declarationLe_iff {a b : Declaration} : declarationLe a b = true ↔
    a.origin ≠ b.origin ∧ Text.le a.origin b.origin = true ∨ a.origin = b.origin ∧ a.line ≤ b.line := by
  unfold declarationLe
  by_cases h : a.origin = b.origin <;> simp [h]

theorem declarationLe_total (a b : Declaration) : (declarationLe a b || declarationLe b a) = true := by
  rw [Bool.or_eq_true, declarationLe_iff, declarationLe_iff]
  by_cases h : a.origin = b.origin
  · rcases Int.le_total a.line b.line with hl | hl
    · exact Or.inl (Or.inr ⟨h, hl⟩)
    · exact Or.inr (Or.inr ⟨h.symm, hl⟩)
  · rcases Text.le_total a.origin b.origin with hl | hl
    · exact Or.inl (Or.inl ⟨h, hl⟩)
    · exact Or.inr (Or.inl ⟨fun e => h e.symm, hl⟩)

theorem declarationLe_trans (a b c : Declaration) (hab : declarationLe a b = true)
    (hbc : declarationLe b c = true) : declarationLe a c = true := by
  rw [declarationLe_iff] at hab hbc ⊢
  rcases hab with ⟨h1, hab⟩ | ⟨h1, hab⟩
  · rcases hbc with ⟨h2, hbc⟩ | ⟨h2, -⟩
    · refine Or.inl ⟨fun h3 => ?_, Text.le_trans hab hbc⟩
      -- the order goes round, so all three origins are one
      rw [← h3] at hbc
      exact h1 (Text.le_antisymm hab hbc)
    · exact Or.inl (h2 ▸ ⟨h1, hab⟩)
  · rcases hbc with ⟨h2, hbc⟩ | ⟨h2, hbc⟩
    · exact Or.inl (h1 ▸ ⟨h2, hbc⟩)
    · exact Or.inr ⟨h1.trans h2, Int.le_trans hab hbc⟩

/-- The two declarations stand on one line of one header. -/
def SamePlace (a b : Declaration) : Prop := a.origin = b.origin ∧ a.line = b.line

instance (a b : Declaration) : Decidable (SamePlace a b) := inferInstanceAs (Decidable (_ ∧ _))

/-- Sorting keeps the order of the declarations on one line. -/
theorem mergeSort_samePlace (l : List Declaration) (d : Declaration) :
    (l.mergeSort declarationLe).filter (SamePlace d ·) = l.filter (SamePlace d ·) := by
  have hle : (l.filter (SamePlace d ·)).Pairwise (declarationLe · · = true) := by
    refine List.pairwise_of_forall_mem_list fun a ha b hb => ?_
    have ha := of_decide_eq_true (List.mem_filter.1 ha).2
    have hb := of_decide_eq_true (List.mem_filter.1 hb).2
    exact declarationLe_iff.2 (Or.inr ⟨ha.1.symm.trans hb.1, by rw [← ha.2, ← hb.2]⟩)
  have hsub := List.sublist_mergeSort declarationLe_trans declarationLe_total hle List.filter_sublist
  have hsub' := hsub.filter (fun b => decide (SamePlace d b))
  rw [List.filter_filter] at hsub'
  simp only [Bool.and_self] at hsub'
  have hlen := ((List.mergeSort_perm l declarationLe).filter (fun b => decide (SamePlace d b))).length_eq
  exact (hsub'.eq_of_length hlen.symm).symm

/-! ## Distinct names and trap numbers -/

/-- The two declarations share neither their names nor their trap numbers. -/
def Distinct (a b : Declaration) : Prop := a.name ≠ b.name ∧ a.trapNumber ≠ b.trapNumber

/-- **The check answers just if all declarations are distinct** from each other and from the earlier
ones. -/
theorem distinctFrom_eq_ok {earlier l : List Declaration} : distinctFrom earlier l = .ok () ↔
    (∀ a ∈ earlier, ∀ b ∈ l, Distinct a b) ∧ l.Pairwise Distinct := by
  induction l generalizing earlier with
  | nil => simp [distinctFrom]
  | cons d rest ih =>
    rw [distinctFrom, List.pairwise_cons]
    cases hname : earlier.find? (·.name == d.name) with
    | some other =>
      have hmem := List.mem_of_find?_eq_some hname
      have hsame : other.name = d.name := by simpa using List.find?_some hname
      exact ⟨nofun, fun h => absurd hsame (h.1 other hmem d List.mem_cons_self).1⟩
    | none =>
      cases hnumber : earlier.find? (·.trapNumber == d.trapNumber) with
      | some other =>
        have hmem := List.mem_of_find?_eq_some hnumber
        have hsame : other.trapNumber = d.trapNumber := by simpa using List.find?_some hnumber
        exact ⟨nofun, fun h => absurd hsame (h.1 other hmem d List.mem_cons_self).2⟩
      | none =>
        have hfresh : ∀ a ∈ earlier, Distinct a d := fun a ha =>
          ⟨by simpa using List.find?_eq_none.1 hname a ha, by simpa using List.find?_eq_none.1 hnumber a ha⟩
        show distinctFrom (earlier ++ [d]) rest = .ok () ↔ _
        rw [ih, List.forall_mem_append, List.forall_mem_singleton]
        constructor
        · rintro ⟨⟨hearlier, hd⟩, hrest⟩
          refine ⟨fun a ha => ?_, hd, hrest⟩
          exact List.forall_mem_cons.2 ⟨hfresh a ha, hearlier a ha⟩
        · rintro ⟨hearlier, hd, hrest⟩
          exact ⟨⟨fun a ha => (List.forall_mem_cons.1 (hearlier a ha)).2, hd⟩, hrest⟩

theorem distinctFrom_fault {earlier l : List Declaration} {fault : Fault}
    (h : distinctFrom earlier l = .error fault) : fault.IsMalformed := by
  induction l generalizing earlier with
  | nil => cases h
  | cons d rest ih =>
    rw [distinctFrom] at h
    split at h
    · cases h; exact Fault.malformedIn_isMalformed _ _ _
    · split at h
      · cases h; exact Fault.malformedIn_isMalformed _ _ _
      · exact ih h

/-! ## One prototype -/

namespace Source

theorem trapNumber_eq_ok {values : List (Text × Int)} {name symbol place : Text} {number : Int} :
    trapNumber values name symbol place = .ok number ↔
      values.lookup name = some number ∧ 0 ≤ number ∧ number ≤ 255 := by
  unfold trapNumber
  cases values.lookup name with
  | none => simp
  | some n =>
    have hfits : (decide (0 ≤ n) && decide (n ≤ largestTrapNumber)) = true ↔ 0 ≤ n ∧ n ≤ 255 := by
      rw [Bool.and_eq_true, decide_eq_true_eq, decide_eq_true_eq, largestTrapNumber]
    by_cases hn : 0 ≤ n ∧ n ≤ 255
    · simp only [if_pos (hfits.2 hn), Except.ok.injEq, Option.some.injEq]
      exact ⟨fun h => h ▸ ⟨rfl, hn⟩, fun h => h.1⟩
    · simp only [if_neg (fun h => hn (hfits.1 h)), reduceCtorEq, Option.some.injEq, false_iff]
      rintro ⟨rfl, h⟩
      exact hn h

theorem trapNumber_fault {values : List (Text × Int)} {name symbol place : Text} {fault : Fault}
    (h : trapNumber values name symbol place = .error fault) : fault.IsMalformed := by
  unfold trapNumber at h
  split at h
  · cases h; exact Fault.malformedIn_isMalformed _ _ _
  · split at h
    · cases h
    · cases h; exact Fault.malformedIn_isMalformed _ _ _

/-- The types of a prototype's parameters, with their names, and of its result. -/
def typesOf (source : Source) (c : Cursor) : Survey (List Parameter × CType) :=
  blaming c.spelling (lineOf (source.originOf c) c.line) do
    let parameters ← c.arguments.zipIdx.mapM fun (id, index) => source.parameter id index
    return (parameters, ← source.convert c.resultType)

/-- The declaration of a cursor with the given trap number and types. -/
def declarationOf (source : Source) (c : Cursor) (number : Int) (types : List Parameter × CType) :
    Declaration :=
  let type := source.unit.type c.type
  { name := c.spelling, trapNumber := number, returnType := types.2, parameters := types.1
    symbol := (source.unit.trapSymbol? c).getD [], origin := source.originOf c, line := c.line
    variadic := type.kind = .functionProto && type.variadic
    comment := c.comment }

/-- The types of a prototype, if each that is used by value resolves to more than a name. -/
def signature (source : Source) (id : CursorId) : Survey (List Parameter × CType) := do
  let c := source.unit.cursor id
  let types ← source.typesOf c
  requireDefinedSignature (← get).table (source.declarationOf c 0 types)
  return types

/-- The trap number of a prototype under the numbers that the walk noted. -/
def trapNumberOf (source : Source) (values : List (Text × Int)) (id : CursorId) : Except Fault Int :=
  let c := source.unit.cursor id
  trapNumber values c.spelling ((source.unit.trapSymbol? c).getD []) (lineOf (source.originOf c) c.line)

/-- **A declaration is a trap number and a signature**, found one after the other. -/
theorem declaration_eq (id : CursorId) : source.declaration id s =
    source.trapNumberOf s.trapValues id >>= fun number =>
      (fun r => (source.declarationOf (source.unit.cursor id) number r.1, r.2)) <$> source.signature id s := by
  have hrequire : ∀ table number types, requireDefinedSignature table
      (source.declarationOf (source.unit.cursor id) number types) =
      requireDefinedSignature table (source.declarationOf (source.unit.cursor id) 0 types) :=
    fun _ _ _ => rfl
  have hsteps : source.declaration id s = source.trapNumberOf s.trapValues id >>= fun number =>
      source.typesOf (source.unit.cursor id) s >>= fun r =>
        requireDefinedSignature r.2.table (source.declarationOf (source.unit.cursor id) number r.1) >>= fun _ =>
          .ok (source.declarationOf (source.unit.cursor id) number r.1, r.2) := by
    simp only [declaration, Survey.bind_run, Survey.lift_run, Survey.get_run, Survey.pure_run, ok_bind,
      bind_assoc]
    rfl
  have hsig : source.signature id s = source.typesOf (source.unit.cursor id) s >>= fun r =>
      requireDefinedSignature r.2.table (source.declarationOf (source.unit.cursor id) 0 r.1) >>= fun _ =>
        .ok (r.1, r.2) := by
    simp only [signature, Survey.bind_run, Survey.lift_run, Survey.get_run, Survey.pure_run, ok_bind,
      bind_assoc]
  rw [hsteps, hsig]
  simp only [map_bind, hrequire]
  rfl

/-! ## All prototypes -/

section Run

variable {R : Findings → Findings → Prop}

theorem blaming_preserves {α : Type} {name place : Text} {step : Survey α} (h : Survey.Preserves R step) :
    Survey.Preserves R (blaming name place step) := by
  intro s a t hs
  unfold blaming at hs
  split at hs
  · cases hs
  · exact h s a t hs

/-- A signature that resolves preserves what the conversions of its types preserve. -/
theorem signature_preserves (hR : Survey.Chains R) (hconvert : ∀ t, Survey.Preserves R (source.convert t))
    (id : CursorId) : Survey.Preserves R (source.signature id) := by
  have hparameter : ∀ id index, Survey.Preserves R (source.parameter id index) := fun id index =>
    hR.bind (hconvert _) fun _ => hR.pure _
  unfold signature
  refine hR.bind (blaming_preserves ?_) fun types => ?_
  · refine hR.bind (hR.mapM fun p _ => hparameter p.1 p.2) fun parameters => ?_
    exact hR.bind (hconvert _) fun _ => hR.pure _
  · intro s a t h
    obtain ⟨_, _, hget, h⟩ := Survey.bind_eq_ok.1 h
    obtain ⟨rfl, rfl⟩ := Survey.get_eq_ok.1 hget
    exact (hR.bind (hR.lift _) fun _ => hR.pure _) _ a t h

end Run

/-- The trap numbers that the walk noted stay as they are while signatures are resolved. -/
theorem signature_trapValues {id : CursorId} {types : List Parameter × CType}
    (h : source.signature id s = .ok (types, t)) : t.trapValues = s.trapValues := by
  have hstable : Survey.Stable fun s t => t.trapValues = s.trapValues :=
    { refl := fun _ => rfl
      trans := fun hst htu => htu.trans hst
      register := fun _ _ _ _ _ => rfl
      start := fun _ _ => rfl
      stop := fun _ _ => rfl
      finish := fun _ _ => rfl
      enumerate := fun _ _ _ _ _ => rfl }
  exact signature_preserves hstable.toChains (convert_preserves hstable) id s types t h

/-- The declaration is made of the prototype, with the trap number noted under its name. -/
def MadeOf (source : Source) (values : List (Text × Int)) (id : CursorId) (d : Declaration) : Prop :=
  source.trapNumberOf values id = .ok d.trapNumber ∧
    ∃ types, d = source.declarationOf (source.unit.cursor id) d.trapNumber types

theorem madeOf_noted {values : List (Text × Int)} {id : CursorId} {d : Declaration}
    (h : source.MadeOf values id d) : d.name = (source.unit.cursor id).spelling ∧
      values.lookup (source.unit.cursor id).spelling = some d.trapNumber ∧
      0 ≤ d.trapNumber ∧ d.trapNumber ≤ 255 := by
  obtain ⟨hn, types, he⟩ := h
  exact ⟨by rw [he]; rfl, trapNumber_eq_ok.1 hn⟩

theorem declaration_eq_ok {id : CursorId} {d : Declaration} : source.declaration id s = .ok (d, t) ↔
    ∃ number types, source.trapNumberOf s.trapValues id = .ok number ∧ source.signature id s = .ok (types, t) ∧
      d = source.declarationOf (source.unit.cursor id) number types := by
  rw [declaration_eq, bind_eq_ok]
  constructor
  · rintro ⟨number, hn, h⟩
    obtain ⟨⟨types, u⟩, hs, h⟩ := map_eq_ok.1 h
    obtain ⟨rfl, rfl⟩ := Prod.mk.inj h
    exact ⟨number, types, hn, hs, rfl⟩
  · rintro ⟨number, types, hn, hs, rfl⟩
    exact ⟨number, hn, map_eq_ok.2 ⟨(types, t), hs, rfl⟩⟩

/-- **Each prototype becomes one declaration**, with its own trap number. -/
theorem mapM_declaration_ok {l : List CursorId} {ds : List Declaration}
    (h : l.mapM source.declaration s = .ok (ds, t)) :
    List.Forall₂ (source.MadeOf s.trapValues) l ds := by
  induction l generalizing s t ds with
  | nil =>
    obtain ⟨rfl, -⟩ := Survey.pure_eq_ok.1 h
    exact .nil
  | cons id l ih =>
    rw [List.mapM_cons] at h
    obtain ⟨d, u, hd, h⟩ := Survey.bind_eq_ok.1 h
    obtain ⟨rest, hrest, rfl⟩ := Survey.bind_pure_eq_ok.1 h
    obtain ⟨number, types, hn, hs, rfl⟩ := declaration_eq_ok.1 hd
    have hrest := ih hrest
    rw [signature_trapValues hs] at hrest
    exact .cons ⟨hn, types, rfl⟩ hrest

/-- The prototypes fail with a report of a malformed header, or as their signatures do. -/
theorem mapM_declaration_fault {l : List CursorId} {fault : Fault}
    (h : l.mapM source.declaration s = .error fault) :
    fault.IsMalformed ∨ l.mapM source.signature s = .error fault := by
  induction l generalizing s with
  | nil => cases h
  | cons id l ih =>
    rw [List.mapM_cons] at h ⊢
    rcases Survey.bind_eq_error.1 h with h | ⟨d, u, hd, h⟩
    · rw [declaration_eq] at h
      rcases bind_eq_error.1 h with h | ⟨number, -, h⟩
      · exact Or.inl (trapNumber_fault h)
      · exact Or.inr (Survey.bind_eq_error.2 (Or.inl (map_eq_error.1 h)))
    · obtain ⟨number, types, -, hs, -⟩ := declaration_eq_ok.1 hd
      rcases Survey.bind_eq_error.1 h with h | ⟨rest, v, -, h⟩
      · refine (ih h).imp_right fun hrest => ?_
        exact Survey.bind_eq_error.2 (Or.inr ⟨types, u, hs, Survey.bind_eq_error.2 (Or.inl hrest)⟩)
      · cases h

theorem declarations_eq : source.declarations s = s.prototypes.mapM source.declaration s >>= fun r =>
    distinct (r.1.mergeSort declarationLe) >>= fun _ => .ok (r.1.mergeSort declarationLe, r.2) := by
  simp only [declarations, Survey.bind_run, Survey.lift_run, Survey.get_run, Survey.pure_run, ok_bind,
    bind_assoc]

/-- The second pass answers with the declarations of the prototypes, in order, once they are told apart. -/
theorem declarations_eq_ok {ds : List Declaration} (h : source.declarations s = .ok (ds, t)) :
    ∃ walked, s.prototypes.mapM source.declaration s = .ok (walked, t) ∧
      distinct (walked.mergeSort declarationLe) = .ok () ∧ ds = walked.mergeSort declarationLe := by
  rw [declarations_eq] at h
  obtain ⟨⟨walked, u⟩, hwalk, h⟩ := bind_eq_ok.1 h
  obtain ⟨_, hdistinct, h⟩ := bind_eq_ok.1 h
  obtain ⟨rfl, rfl⟩ := Prod.mk.inj (Except.ok.inj h)
  exact ⟨walked, hwalk, hdistinct, rfl⟩

/-- What the second pass makes of the findings of a walk. -/
structure Resolved (source : Source) (s : Findings) (ds : List Declaration) : Prop where
  /-- There is one declaration for each prototype, and those on one line are in the order of the walk. -/
  walked : ∃ walked, List.Forall₂ (source.MadeOf s.trapValues) s.prototypes walked ∧ ds.Perm walked ∧
    ∀ d, ds.filter (SamePlace d ·) = walked.filter (SamePlace d ·)
  sorted : ds.Pairwise (declarationLe · · = true)
  names : (ds.map (·.name)).Nodup
  numbers : (ds.map (·.trapNumber)).Nodup
  /-- The trap number is the one that the walk noted under the declaration's own name. -/
  noted : ∀ d ∈ ds, s.trapValues.lookup d.name = some d.trapNumber ∧ 0 ≤ d.trapNumber ∧ d.trapNumber ≤ 255

/-- **What the second pass answers has one declaration for each prototype**, in order, with distinct
names and with the trap numbers noted for them. -/
theorem declarations_resolved {ds : List Declaration} (h : source.declarations s = .ok (ds, t)) :
    source.Resolved s ds := by
  obtain ⟨walked, hwalk, hdistinct, rfl⟩ := declarations_eq_ok h
  have hmade := mapM_declaration_ok hwalk
  have hpairwise := (distinctFrom_eq_ok.1 hdistinct).2
  constructor
  case walked => exact ⟨walked, hmade, List.mergeSort_perm _ _, mergeSort_samePlace walked⟩
  case sorted => exact List.pairwise_mergeSort declarationLe_trans declarationLe_total walked
  case names => exact List.pairwise_map.2 (hpairwise.imp And.left)
  case numbers => exact List.pairwise_map.2 (hpairwise.imp And.right)
  case noted =>
    intro d hd
    obtain ⟨id, -, hid⟩ := forall₂_exists_of_mem_right hmade (List.mem_mergeSort.1 hd)
    obtain ⟨hname, hnoted⟩ := madeOf_noted hid
    rw [hname]
    exact hnoted

/-- The trap number that the walk noted for a prototype. -/
def noted? (source : Source) (s : Findings) (id : CursorId) : Option Int :=
  s.trapValues.lookup (source.unit.cursor id).spelling

/-- Something about the prototypes must be refused: one has no trap number or one out of range, or
two of them share a name or a trap number. -/
def Conflicted (source : Source) (s : Findings) : Prop :=
  (∃ id ∈ s.prototypes, source.noted? s id = none) ∨
    (∃ id ∈ s.prototypes, ∃ n, source.noted? s id = some n ∧ (n < 0 ∨ 255 < n)) ∨
    ¬ (s.prototypes.map fun id => (source.unit.cursor id).spelling).Nodup ∨
    ¬ (s.prototypes.map (source.noted? s)).Nodup

/-- Resolved findings have no conflict. -/
theorem Resolved.not_conflicted {ds : List Declaration} (h : source.Resolved s ds) :
    ¬ source.Conflicted s := by
  obtain ⟨walked, hmade, hperm, -⟩ := h.walked
  have hnames : s.prototypes.map (fun id => (source.unit.cursor id).spelling) = walked.map (·.name) :=
    map_eq_map_of_forall₂ (hmade.imp fun id d hd => (madeOf_noted hd).1.symm)
  have hnumbers : s.prototypes.map (source.noted? s) = (walked.map (·.trapNumber)).map some := by
    rw [List.map_map]
    exact map_eq_map_of_forall₂ (hmade.imp fun id d hd => (madeOf_noted hd).2.1)
  have hnoted : ∀ id ∈ s.prototypes, ∃ n, source.noted? s id = some n ∧ 0 ≤ n ∧ n ≤ 255 := by
    intro id hid
    obtain ⟨d, -, hd⟩ := forall₂_exists_of_mem_left hmade hid
    exact ⟨d.trapNumber, (madeOf_noted hd).2⟩
  rintro (⟨id, hid, hnone⟩ | ⟨id, hid, n, hn, hrange⟩ | hdup | hdup)
  · obtain ⟨m, hm, -⟩ := hnoted id hid
    rw [hnone] at hm; cases hm
  · obtain ⟨m, hm, h0, h255⟩ := hnoted id hid
    rw [hn, Option.some.injEq] at hm
    omega
  · rw [hnames] at hdup
    exact hdup ((hperm.map _).nodup_iff.1 h.names)
  · rw [hnumbers] at hdup
    exact hdup (((hperm.map _).nodup_iff.1 h.numbers).map (Option.some_injective _))

/-- **A conflict is refused as malformed**, if the types of the prototypes resolve by themselves or are
refused so. -/
theorem declarations_refused
    (hs : ∀ fault, s.prototypes.mapM source.signature s = .error fault → fault.IsMalformed)
    (hc : source.Conflicted s) : ∃ fault, source.declarations s = .error fault ∧ fault.IsMalformed := by
  cases h : source.declarations s with
  | ok r => exact absurd hc (declarations_resolved h).not_conflicted
  | error fault =>
    refine ⟨fault, rfl, ?_⟩
    rw [declarations_eq] at h
    rcases bind_eq_error.1 h with h | ⟨r, -, h⟩
    · exact (mapM_declaration_fault h).elim id (hs fault)
    · rcases bind_eq_error.1 h with h | ⟨_, -, h⟩
      · exact distinctFrom_fault h
      · cases h

end Source

/-! ## From declarations to stubs -/

/-- The stub serves a declaration: it is a function of the declaration's name and result, and raises its trap and no
other one between the statements in front of it and those behind it. -/
structure Stub.Serves (stub : Stub) (speller : Speller) (d : Declaration) : Prop where
  signature : ∃ parameters, speller.declare 0 d.returnType (d.name ++ "(" ++ parameters ++ ")") = .ok stub.signature
  trap : stub.Traps d.trapNumber
  lines : stub.lines = stub.linesWith (stub.preparations.flatMap Preparation.lines)

theorem Stub.serves {comments : Bool} {speller : Speller} {plan : Plan} {stub : Stub}
    (h : Stub.ofPlan comments speller plan = .ok stub) (h0 : 0 ≤ plan.declaration.trapNumber)
    (h255 : plan.declaration.trapNumber ≤ 255) : stub.Serves speller plan.declaration := by
  obtain ⟨_, _, _, hsignature, -, -, rfl⟩ := Stub.ofPlan_eq_ok.1 h
  obtain ⟨parameters, -, hsignature⟩ := bind_eq_ok.1 hsignature
  exact ⟨⟨_, hsignature⟩, Stub.traps _ h0 h255, rfl⟩

/-- The text of a header with some stubs, each once and in this order. The preamble, the opening, the constants and
the types stand in front of them, and the end of the guard behind them. -/
def Header.withStubs (corpus : Corpus) (settings : Settings) (outputName : Text) (types : List Text)
    (stubs : List Stub) : Text :=
  let guard := settings.guard?.getD (guardOf outputName)
  Text.unlines <|
    preambleLines settings.preamble ++ openingLines corpus guard ++ constantLines corpus.constants ++ types ++
    (if stubs = [] then [] else [[], sectionTitle "SVC stubs"]) ++ (stubs.map fun stub => [] :: stub.lines).flatten ++
    [[], ("#endif /* " ++ guard ++ " */" : Text), []]

theorem Header.stubLines_eq (stubs : List Stub) : stubLines stubs =
    (if stubs = [] then [] else [[], sectionTitle "SVC stubs"]) ++ (stubs.map fun stub => [] :: stub.lines).flatten := by
  cases stubs with
  | nil => rfl
  | cons stub stubs => rw [if_neg (List.cons_ne_nil _ _)]; rfl

/-- **The header holds the stubs of the plans**, each once and in the order of the plans. -/
theorem Header.render_stubs {corpus : Corpus} {plans : List Plan} {settings : Settings}
    {outputName text : Text} (h : Header.render corpus plans settings outputName = .ok text) :
    ∃ types speller stubs, typeLines settings.comments corpus.table plans = .ok (types, speller) ∧
      List.Forall₂ (fun plan stub => Stub.ofPlan settings.comments speller plan = .ok stub) plans stubs ∧
      text = withStubs corpus settings outputName types stubs := by
  unfold render at h
  obtain ⟨⟨types, speller⟩, htypes, h⟩ := bind_eq_ok.1 h
  obtain ⟨stubs, hstubs, h⟩ := bind_eq_ok.1 h
  refine ⟨types, speller, stubs, htypes, mapM_eq_ok.1 hstubs, ?_⟩
  rw [← pure_eq_ok.1 h, stubLines_eq, ← List.append_assoc]
  rfl

/-- The text is a header with one stub for each declaration, in the same order. -/
def Header.HasStubs (corpus : Corpus) (plans : List Plan) (settings : Settings) (outputName text : Text)
    (ds : List Declaration) : Prop :=
  ∃ types speller stubs, typeLines settings.comments corpus.table plans = .ok (types, speller) ∧
    text = withStubs corpus settings outputName types stubs ∧
    List.Forall₂ (fun d stub => stub.Serves speller d ∧ ∃ plan, Plan.ofDeclaration d corpus.table = .ok plan ∧
      Stub.ofPlan settings.comments speller plan = .ok stub) ds stubs

/-- **No entry point is lost, doubled or given another trap.** What the second pass answers has one
declaration for each prototype, and the header has one stub for each declaration, in the same order
and with its trap number. Where that cannot be, the second pass refuses the header. -/
theorem entryPoints_kept (source : Source) (s : Findings) :
    (∀ ds t, source.declarations s = .ok (ds, t) → source.Resolved s ds ∧
      ∀ corpus plans settings outputName text, Plan.ofDeclarations ds corpus.table = .ok plans →
        Header.render corpus plans settings outputName = .ok text →
        Header.HasStubs corpus plans settings outputName text ds) ∧
    ((∀ fault, s.prototypes.mapM source.signature s = .error fault → fault.IsMalformed) →
      source.Conflicted s → ∃ fault, source.declarations s = .error fault ∧ fault.IsMalformed) := by
  refine ⟨fun ds t h => ?_, fun hs hc => Source.declarations_refused hs hc⟩
  have hresolved := Source.declarations_resolved h
  refine ⟨hresolved, fun corpus plans settings outputName text hplans htext => ?_⟩
  obtain ⟨types, speller, stubs, htypes, hstubs, rfl⟩ := Header.render_stubs htext
  refine ⟨types, speller, stubs, htypes, rfl, ?_⟩
  have hboth := forall₂_through.2 ⟨plans, mapM_eq_ok.1 hplans, hstubs⟩
  refine ((List.forall₂_and_left _ _).2 ⟨hresolved.noted, hboth⟩).imp ?_
  rintro d stub ⟨⟨-, h0, h255⟩, plan, hplan, hstub⟩
  obtain ⟨rfl, -⟩ := Plan.ofDeclaration_built hplan
  exact ⟨Stub.serves hstub h0 h255, plan, hplan, hstub⟩

/-! Two prototypes without parameters, of which the second stands in front of the first. -/

/-- The functions `sd_b` in line 9 and `sd_a` in line 4 of a header. -/
def twoFunctions : Source :=
  { staged := ⟨[], [], []⟩
    unit :=
      { top := [], diagnostics := []
        cursors := #[{ spelling := "sd_b", line := 9, resultType := some 0 },
          { spelling := "sd_a", line := 4, resultType := some 0 }]
        types := #[{ kind := .void }] } }

/-- A walk that noted two trap numbers for them. -/
def twoNumbers (a b : Int) : Findings :=
  { Findings.empty with trapValues := [("sd_b", b), ("sd_a", a)], prototypes := [some 0, some 1] }

/-- Their headers, which declare no types. -/
def twoFunctionsCorpus : Corpus :=
  { sourceName := "headers", headerCount := 1, table := ⟨[], true⟩, declarations := [], constants := [] }

theorem twoFunctions_kept :
    (∃ ds t plans text, twoFunctions.declarations (twoNumbers 0x10 0x11) = .ok (ds, t) ∧
      Plan.ofDeclarations ds twoFunctionsCorpus.table = .ok plans ∧
      Header.render twoFunctionsCorpus plans .default "svcall.h" = .ok text ∧
      ds.map (fun d => (d.name, d.trapNumber)) = [(("sd_a" : Text), 0x10), ("sd_b", 0x11)] ∧
      twoFunctions.Resolved (twoNumbers 0x10 0x11) ds ∧
      Header.HasStubs twoFunctionsCorpus plans .default "svcall.h" text ds) ∧
    ∃ fault, twoFunctions.declarations (twoNumbers 0x10 0x10) = .error fault ∧ fault.IsMalformed := by
  have hkept := entryPoints_kept twoFunctions
  constructor
  · have h : twoFunctions.declarations (twoNumbers 0x10 0x11) = .ok
        ([twoFunctions.declarationOf (twoFunctions.unit.cursor (some 1)) 0x10 ([], .void),
          twoFunctions.declarationOf (twoFunctions.unit.cursor (some 0)) 0x11 ([], .void)],
          twoNumbers 0x10 0x11) := by cbv
    obtain ⟨hresolved, hstubs⟩ := (hkept _).1 _ _ h
    have hrendered : (Plan.ofDeclarations
        [twoFunctions.declarationOf (twoFunctions.unit.cursor (some 1)) 0x10 ([], .void),
          twoFunctions.declarationOf (twoFunctions.unit.cursor (some 0)) 0x11 ([], .void)]
        twoFunctionsCorpus.table >>= fun plans =>
          Header.render twoFunctionsCorpus plans .default "svcall.h").toOption.isSome = true := by decide +kernel
    obtain ⟨text, htext⟩ := exists_of_isSome hrendered
    obtain ⟨plans, hplans, htext⟩ := bind_eq_ok.1 htext
    exact ⟨_, _, plans, text, h, hplans, htext, rfl, hresolved, hstubs _ _ _ _ _ hplans htext⟩
  · have htypes : (twoNumbers 0x10 0x10).prototypes.mapM twoFunctions.signature (twoNumbers 0x10 0x10) =
        .ok ([([], .void), ([], .void)], twoNumbers 0x10 0x10) := by cbv
    refine (hkept _).2 ?_ (Or.inr (Or.inr (Or.inr (by decide))))
    intro fault h
    rw [htypes] at h
    cases h

end TrapStub
