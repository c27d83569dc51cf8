import TrapStub.Proofs.Plan.Registers

/-!
# What a signature asks of the registers

Whether a declaration has a plan is known from the shapes of its types alone: each value has to fit one
register or two, and together they must not ask for more than four. The order of the parameters counts,
since a 64-bit value starts at an even register.

* `Shape.isNarrow`, `Shape.isPassable`, `Shape.isReturnable`: which shapes can cross the trap.
* `Plan.demand`: how many registers a signature asks for.
* `Plan.place_passable`, `Plan.allocate_passable`: **the next free register is the demand so far**, after one
  parameter and after all of them.
* `Plan.allocate_refused`: the first parameter that cannot be passed ends the allocation.
* `Plan.ofDeclaration_judged`: **exactly the signatures that fit are accepted**, and the others are refused for the
  first thing that is wrong with them.
-/

namespace TrapStub

namespace Shape

/-- One register takes the value: a scalar or enum of at most four bytes, an address, or a complete record
of one to four bytes. -/
def isNarrow : Shape → Bool
  | void => false
  | scalar type => type.size ≤ 4
  | enumeration e => e.size ≤ 4
  | pointer _ | array _ _ | function _ _ _ => true
  | record r => r.isComplete && 0 < r.size && r.size ≤ 4

def isRecord : Shape → Bool
  | record _ => true
  | _ => false

def isVoid : Shape → Bool
  | void => true
  | _ => false

/-- The value can be a parameter: it takes one register, or two. -/
def isPassable (shape : Shape) : Bool := shape.isNarrow || shape.isWide

/-- The value can be a result; a record that no register takes is returned in memory. -/
def isReturnable (shape : Shape) : Bool := shape.isVoid || shape.isPassable || shape.isRecord

/-- The size that a refusal names. -/
def bytes : Shape → Int
  | scalar type => type.size
  | enumeration e => e.size
  | record r => r.size
  | void | pointer _ | array _ _ | function _ _ _ => 0

/-- Why a parameter of the shape is refused. -/
def refusal (parameter : Text) (shape : Shape) : Unsupported :=
  if shape.isRecord then .compositeByValue parameter shape.bytes else .parameterSize parameter shape.bytes

/-- How many registers are taken after one more parameter: a 64-bit value takes two from an even one on. -/
def demand (taken : Nat) (shape : Shape) : Nat :=
  if shape.isWide then taken + taken % 2 + 2 else if shape.isNarrow then taken + 1 else taken

variable {shape : Shape}

theorem passing_of_isNarrow (h : shape.isNarrow = true) : ∃ carriage, shape.passing = .word carriage := by
  cases shape with
  | void => cases h
  | scalar type => exact ⟨_, if_pos (of_decide_eq_true h)⟩
  | enumeration e => exact ⟨_, if_pos (of_decide_eq_true h)⟩
  | record r => exact ⟨_, if_pos h⟩
  | _ => exact ⟨_, rfl⟩

theorem passing_of_isWide (h : shape.isWide = true) : ∃ image, shape.passing = .pair image := by
  cases shape with
  | scalar type => exact ⟨_, passingOfSize_eq_pair.2 ⟨of_decide_eq_true h, rfl⟩⟩
  | enumeration e => exact ⟨_, passingOfSize_eq_pair.2 ⟨of_decide_eq_true h, rfl⟩⟩
  | _ => cases h

theorem isRecord_of_isWide (h : shape.isWide = true) : shape.isRecord = false := by
  cases shape with
  | record r => cases h
  | _ => rfl

theorem isPassable_eq_false : shape.isPassable = false ↔ shape.isNarrow = false ∧ shape.isWide = false :=
  Bool.or_eq_false_iff

/-- A value that registers cannot take has no size, is a record, or is of a size that no register has. -/
theorem passing_of_not_isPassable (h : shape.isPassable = false) : shape.passing =
    if shape.isVoid then .nothing else if shape.isRecord then .memory shape.bytes else .impossible shape.bytes := by
  have hsized : ∀ {size : Int} {floating : Bool}, decide (size ≤ 4) = false → decide (size = 8) = false →
      passingOfSize size floating = .impossible size := by
    intro size floating h4 h8
    rw [passingOfSize_eq, if_neg (of_decide_eq_false h4), if_neg (of_decide_eq_false h8)]
  obtain ⟨hnarrow, hwide⟩ := isPassable_eq_false.1 h
  cases shape with
  | void => rfl
  | scalar type => exact hsized hnarrow hwide
  | enumeration e => exact hsized hnarrow hwide
  | record r => exact if_neg (Bool.eq_false_iff.1 hnarrow)
  | _ => cases hnarrow

end Shape

namespace Plan

variable {d : Declaration} {table : TypeTable} {a : Allocation} {result shape : Shape} {shapes : List Shape}

/-- How many registers a signature asks for: one for the address of a result in memory, and then those of the
parameters. -/
def demand (result : Shape) (shapes : List Shape) : Nat :=
  shapes.foldl Shape.demand (if result.isRecord && !result.isNarrow then 1 else 0)

/-- The types of the declaration resolve to these shapes. -/
structure HasShapes (d : Declaration) (table : TypeTable) (result : Shape) (shapes : List Shape) : Prop where
  result : table.lookup d.returnType = .ok result
  parameters : List.Forall₂ (fun p shape => table.lookup p.type = .ok shape) d.parameters shapes

/-- Each value of the signature can cross the trap, if there are registers enough. -/
structure Passable (d : Declaration) (result : Shape) (shapes : List Shape) : Prop where
  fixed : d.variadic = false
  result : result.isReturnable = true
  parameters : ∀ shape ∈ shapes, shape.isPassable = true

/-! ## One value -/

/-- **Placing a value takes what its shape asks for.** -/
theorem place_passable (a : Allocation) (parameter : Text) (index : Nat) (h : shape.isPassable = true) :
    ∃ b, a.place parameter index shape.passing = .ok b ∧ b.next = shape.demand a.next := by
  cases hwide : shape.isWide with
  | true =>
    obtain ⟨image, hpassing⟩ := Shape.passing_of_isWide hwide
    refine ⟨_, by rw [hpassing, Allocation.place], ?_⟩
    rw [Allocation.add_next, Allocation.add_next, Shape.demand, if_pos hwide]
    rcases a.align_cases with ⟨heven, halign⟩ | ⟨hodd, -, halign⟩ <;> rw [halign] <;> omega
  | false =>
    have hnarrow : shape.isNarrow = true := by
      rw [Shape.isPassable, hwide, Bool.or_false] at h
      exact h
    obtain ⟨carriage, hpassing⟩ := Shape.passing_of_isNarrow hnarrow
    refine ⟨_, by rw [hpassing, Allocation.place], ?_⟩
    rw [Allocation.add_next, Shape.demand, hwide, if_neg Bool.false_ne_true, if_pos hnarrow]

theorem place_refused (a : Allocation) (parameter : Text) (index : Nat) (h : shape.isPassable = false) :
    a.place parameter index shape.passing = .error (shape.refusal parameter) := by
  rw [Shape.passing_of_not_isPassable h]
  cases shape <;> rfl

/-- A result takes r0 in front of the parameters just if it is returned in memory. -/
theorem returnOf_isReturnable (h : result.isReturnable = true) : ∃ returns, returnOf result.passing = .ok returns ∧
    (start returns).next = if result.isRecord && !result.isNarrow then 1 else 0 := by
  cases hnarrow : result.isNarrow with
  | true =>
    obtain ⟨carriage, hpassing⟩ := Shape.passing_of_isNarrow hnarrow
    refine ⟨.register carriage, by rw [hpassing]; rfl, ?_⟩
    rw [Bool.not_true, Bool.and_false]
    rfl
  | false =>
    cases hwide : result.isWide with
    | true =>
      obtain ⟨image, hpassing⟩ := Shape.passing_of_isWide hwide
      refine ⟨.registerPair image, by rw [hpassing]; rfl, ?_⟩
      rw [Shape.isRecord_of_isWide hwide]
      rfl
    | false =>
      have hpassing := Shape.passing_of_not_isPassable (Shape.isPassable_eq_false.2 ⟨hnarrow, hwide⟩)
      rw [hpassing]
      rw [Shape.isReturnable, Shape.isPassable, hnarrow, hwide] at h
      cases result with
      | void => exact ⟨.void, rfl, rfl⟩
      | record r => exact ⟨.storage, rfl, rfl⟩
      | _ => cases h

theorem returnOf_refused (h : result.isReturnable = false) :
    returnOf result.passing = .error (.returnSize result.bytes) := by
  obtain ⟨hrest, hrecord⟩ := Bool.or_eq_false_iff.1 h
  obtain ⟨hvoid, hpassable⟩ := Bool.or_eq_false_iff.1 hrest
  rw [Shape.passing_of_not_isPassable hpassable, hvoid, hrecord]
  rfl

/-! ## All parameters -/

/-- **After all parameters the next free register is the demand.** -/
theorem allocate_passable {ps : List Parameter}
    (h : List.Forall₂ (fun p shape => table.lookup p.type = .ok shape) ps shapes)
    (hall : ∀ shape ∈ shapes, shape.isPassable = true) (a : Allocation) (k : Nat) :
    ∃ b, allocate d table a (ps.zipIdx k) = .ok b ∧ b.next = shapes.foldl Shape.demand a.next := by
  induction h generalizing a k with
  | nil => exact ⟨a, rfl, rfl⟩
  | @cons p shape ps shapes hp _ ih =>
    obtain ⟨hshape, hrest⟩ := List.forall_mem_cons.1 hall
    obtain ⟨b, hplace, hnext⟩ := place_passable a p.name k hshape
    obtain ⟨c, hallocate, hc⟩ := ih hrest b (k + 1)
    refine ⟨c, ?_, by rw [hc, hnext, List.foldl_cons]⟩
    rw [List.zipIdx_cons, allocate, passing_ok hp, ok_bind, hplace]
    exact hallocate

/-- **The first parameter that cannot be passed is refused**, whatever comes behind it. -/
theorem allocate_refused {ps : List Parameter} {before after : List Shape} {p : Parameter}
    (h : List.Forall₂ (fun p shape => table.lookup p.type = .ok shape) ps (before ++ shape :: after))
    (hp : ps[before.length]? = some p) (hall : ∀ s ∈ before, s.isPassable = true) (hshape : shape.isPassable = false)
    (a : Allocation) (k : Nat) :
    allocate d table a (ps.zipIdx k) = .error (refuse d (.unsupported (shape.refusal p.name))) := by
  induction before generalizing ps a k with
  | nil =>
    cases h with
    | @cons q _ rest _ hq _ =>
      obtain rfl : q = p := Option.some.inj hp
      rw [List.zipIdx_cons, allocate, passing_ok hq, ok_bind, place_refused a q.name k hshape]
      rfl
  | cons s before ih =>
    obtain ⟨hs, hrest⟩ := List.forall_mem_cons.1 hall
    cases h with
    | @cons q _ rest _ hq h =>
      obtain ⟨b, hplace, -⟩ := place_passable a q.name k hs
      rw [List.zipIdx_cons, allocate, passing_ok hq, ok_bind, hplace]
      exact ih h hp hrest b (k + 1)

/-! ## The whole signature -/

theorem ofDeclaration_variadic (hv : d.variadic = true) :
    ofDeclaration d table = .error (refuse d (.unsupported .variadic)) := by
  unfold ofDeclaration
  exact if_pos hv

theorem ofDeclaration_result (hd : HasShapes d table result shapes) (hv : d.variadic = false)
    (hresult : result.isReturnable = false) :
    ofDeclaration d table = .error (refuse d (.unsupported (.returnSize result.bytes))) := by
  unfold ofDeclaration
  rw [if_neg (Bool.eq_false_iff.1 hv), passing_ok hd.result, ok_bind, returnOf_refused hresult]
  rfl

/-- Once there is a way for the result, the parameters are placed and the registers counted. -/
theorem ofDeclaration_returns {returns : Return} (hd : HasShapes d table result shapes) (hv : d.variadic = false)
    (hreturns : returnOf result.passing = .ok returns) :
    ofDeclaration d table = (allocate d table (start returns) d.parameters.zipIdx >>= fun a =>
      if a.next > argumentRegisters then .error (refuse d (.pressure a.next argumentRegisters))
      else .ok ⟨d, a.slots, returns, a.padding⟩) := by
  unfold ofDeclaration
  rw [if_neg (Bool.eq_false_iff.1 hv), passing_ok hd.result, ok_bind, hreturns]
  rfl

theorem ofDeclaration_parameter {before after : List Shape} {p : Parameter}
    (hd : HasShapes d table result (before ++ shape :: after)) (hv : d.variadic = false)
    (hresult : result.isReturnable = true) (hp : d.parameters[before.length]? = some p)
    (hall : ∀ s ∈ before, s.isPassable = true) (hshape : shape.isPassable = false) :
    ofDeclaration d table = .error (refuse d (.unsupported (shape.refusal p.name))) := by
  obtain ⟨returns, hreturns, -⟩ := returnOf_isReturnable hresult
  rw [ofDeclaration_returns hd hv hreturns, allocate_refused hd.parameters hp hall hshape (start returns) 0]
  rfl

/-- If each value can be passed, the demand alone decides. -/
theorem ofDeclaration_passable (hd : HasShapes d table result shapes) (hpassable : Passable d result shapes) :
    (4 < demand result shapes → ofDeclaration d table = .error (refuse d (.pressure (demand result shapes) 4))) ∧
      (demand result shapes ≤ 4 → ∃ plan, ofDeclaration d table = .ok plan) := by
  obtain ⟨returns, hreturns, hstart⟩ := returnOf_isReturnable hpassable.result
  obtain ⟨a, hallocate, hnext⟩ := allocate_passable (d := d) hd.parameters hpassable.parameters (start returns) 0
  rw [hstart] at hnext
  rw [ofDeclaration_returns hd hpassable.fixed hreturns, hallocate, ok_bind, hnext]
  exact ⟨fun h => if_pos h, fun h => ⟨_, if_neg (Nat.not_lt.2 h)⟩⟩

/-- Of a signature with a value that cannot be passed, the first one is known. -/
theorem exists_first (hd : HasShapes d table result shapes) (h : ¬ ∀ shape ∈ shapes, shape.isPassable = true) :
    ∃ before shape after p, shapes = before ++ shape :: after ∧ d.parameters[before.length]? = some p ∧
      (∀ s ∈ before, s.isPassable = true) ∧ shape.isPassable = false := by
  cases hfind : shapes.find? fun shape => !shape.isPassable with
  | none =>
    refine absurd (fun shape hmem => ?_) h
    simpa using List.find?_eq_none.1 hfind shape hmem
  | some shape =>
    obtain ⟨hshape, before, after, rfl, hall⟩ := List.find?_eq_some_iff_append.1 hfind
    have hlength := hd.parameters.length_eq
    rw [List.length_append, List.length_cons] at hlength
    have hlt : before.length < d.parameters.length := by omega
    refine ⟨before, shape, after, d.parameters[before.length], rfl, List.getElem?_eq_getElem hlt, ?_, ?_⟩
    · intro s hs
      simpa using hall s hs
    · simpa using hshape

/-- A signature has a value that cannot be passed, or its demand decides. -/
theorem ofDeclaration_cases (hd : HasShapes d table result shapes) :
    (¬ Passable d result shapes ∧ ∃ cause, ofDeclaration d table = .error (refuse d (.unsupported cause))) ∨
      (Passable d result shapes ∧ 4 < demand result shapes ∧
        ofDeclaration d table = .error (refuse d (.pressure (demand result shapes) 4))) ∨
      (Passable d result shapes ∧ demand result shapes ≤ 4 ∧ ∃ plan, ofDeclaration d table = .ok plan) := by
  cases hv : d.variadic with
  | true =>
    refine .inl ⟨fun h => ?_, _, ofDeclaration_variadic hv⟩
    rw [h.fixed] at hv
    cases hv
  | false =>
    cases hresult : result.isReturnable with
    | false =>
      refine .inl ⟨fun h => ?_, _, ofDeclaration_result hd hv hresult⟩
      rw [h.result] at hresult
      cases hresult
    | true =>
      by_cases hall : ∀ shape ∈ shapes, shape.isPassable = true
      · have hpassable : Passable d result shapes := ⟨hv, hresult, hall⟩
        obtain ⟨hover, hfits⟩ := ofDeclaration_passable hd hpassable
        by_cases hdemand : demand result shapes ≤ 4
        · exact .inr (.inr ⟨hpassable, hdemand, hfits hdemand⟩)
        · exact .inr (.inl ⟨hpassable, Nat.lt_of_not_le hdemand, hover (Nat.lt_of_not_le hdemand)⟩)
      · obtain ⟨before, shape, after, p, rfl, hp, hbefore, hshape⟩ := exists_first hd hall
        exact .inl ⟨fun h => hall h.parameters, _, ofDeclaration_parameter hd hv hresult hp hbefore hshape⟩

/-- Which signatures of these shapes are accepted, and for what the others are refused. -/
structure Judged (d : Declaration) (table : TypeTable) (result : Shape) (shapes : List Shape) : Prop where
  accepted : (∃ plan, ofDeclaration d table = .ok plan) ↔ Passable d result shapes ∧ demand result shapes ≤ 4
  /-- A variable number of arguments comes first among the causes. -/
  variadic : d.variadic = true →
    ofDeclaration d table = .error (.report ⟨.unsupported .variadic, some d.name, d.location?⟩)
  returnType : d.variadic = false → result.isReturnable = false →
    ofDeclaration d table = .error (.report ⟨.unsupported (.returnSize result.bytes), some d.name, d.location?⟩)
  /-- Of the parameters the leftmost that cannot be passed is the cause. -/
  parameter : d.variadic = false → result.isReturnable = true →
    ∀ before shape after p, shapes = before ++ shape :: after → d.parameters[before.length]? = some p →
      (∀ s ∈ before, s.isPassable = true) → shape.isPassable = false →
      ofDeclaration d table = .error (.report ⟨.unsupported (shape.refusal p.name), some d.name, d.location?⟩)
  /-- Too few registers are the cause just if there is no other one; the demand is then named. -/
  pressure : ∀ report : Report, report.cause.kind = .registerPressureExceeded →
    (ofDeclaration d table = .error (.report report) ↔
      report = ⟨.pressure (demand result shapes) 4, some d.name, d.location?⟩ ∧
        Passable d result shapes ∧ 4 < demand result shapes)

/-- **Exactly the signatures that fit are accepted**: all values can be passed and ask for four registers at most.
The others are refused for the first thing that is wrong with them, and the demand comes last. -/
theorem ofDeclaration_judged (hd : HasShapes d table result shapes) : Judged d table result shapes := by
  refine ⟨?_, ofDeclaration_variadic, ofDeclaration_result hd, ?_, ?_⟩
  · have hnone : ∀ {fault}, ofDeclaration d table = .error fault → ¬ ∃ plan, ofDeclaration d table = .ok plan := by
      rintro fault h ⟨plan, hplan⟩
      rw [h] at hplan
      cases hplan
    rcases ofDeclaration_cases hd with ⟨hnot, cause, h⟩ | ⟨-, hover, h⟩ | ⟨hpassable, hfits, hplan⟩
    · exact iff_of_false (hnone h) fun hall => hnot hall.1
    · exact iff_of_false (hnone h) fun hall => Nat.not_le.2 hover hall.2
    · exact iff_of_true hplan ⟨hpassable, hfits⟩
  · rintro hv hresult before shape after p rfl hp hbefore hshape
    exact ofDeclaration_parameter hd hv hresult hp hbefore hshape
  · intro report hkind
    constructor
    · intro hreport
      rcases ofDeclaration_cases hd with ⟨-, cause, h⟩ | ⟨hpassable, hover, h⟩ | ⟨-, -, plan, h⟩
      · rw [h] at hreport
        cases hreport
        cases hkind
      · rw [h] at hreport
        cases hreport
        exact ⟨rfl, hpassable, hover⟩
      · rw [h] at hreport
        cases hreport
    · rintro ⟨rfl, hpassable, hover⟩
      exact (ofDeclaration_passable hd hpassable).1 hover

/-! A result in memory takes r0. Behind it there is room for a word and then a 64-bit value, and none for the two
in the other order. -/

/-- `uint32_t`. -/
def wordScalar : ScalarType := ⟨"uint32_t", 4, false, false⟩

/-- `uint64_t`. -/
def wideScalar : ScalarType := ⟨"uint64_t", 8, false, false⟩

/-- `struct time sd_time_get(...)` with the two parameters. -/
def timeGetOf (first second : ScalarType) : Declaration :=
  { timeGet with parameters := [⟨"a", .scalar first⟩, ⟨"b", .scalar second⟩] }

theorem timeGetOf_judged :
    (∃ plan, ofDeclaration (timeGetOf wordScalar wideScalar) ⟨[.record timeRecord], true⟩ = .ok plan) ∧
      ofDeclaration (timeGetOf wideScalar wordScalar) ⟨[.record timeRecord], true⟩ =
        .error (.report ⟨.pressure 5 4, some "sd_time_get", some "time.h:9"⟩) := by
  have hshapes : ∀ first second : ScalarType, HasShapes (timeGetOf first second) ⟨[.record timeRecord], true⟩
      (.record timeRecord) [.scalar first, .scalar second] := by
    intro first second
    have hscalar : ∀ s : ScalarType, TypeTable.lookup ⟨[.record timeRecord], true⟩ (.scalar s) = .ok (.scalar s) := by
      intro s
      rw [TypeTable.lookup, TypeTable.lookupFrom]
      rfl
    exact ⟨by cbv, .cons (hscalar first) (.cons (hscalar second) .nil)⟩
  constructor
  · refine (ofDeclaration_judged (hshapes wordScalar wideScalar)).accepted.2 ⟨⟨rfl, rfl, ?_⟩, by decide⟩
    decide
  · refine ((ofDeclaration_judged (hshapes wideScalar wordScalar)).pressure _ rfl).2 ⟨rfl, ⟨rfl, rfl, ?_⟩, by decide⟩
    decide

end Plan

end TrapStub
