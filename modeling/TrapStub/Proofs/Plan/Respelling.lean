import TrapStub.Proofs.Plan.Registers
import TrapStub.Proofs.TypeTable.Chain

/-!
# Spelling and registers

A type can be spelled in many ways that make no difference to the registers: with or without qualifiers, by
a typedef, as an array or as the pointer it decays to. Two declarations that differ in such ways, and in
names, get the same registers. Nothing is asked of the typedefs: one that leads nowhere is refused in every
spelling.

* `TypeTable.Respelled`: one type is another spelling of the other, with `TypeTable.Respelled.passing`: **both
  travel in the same way.**
* `Alike`: two calls answer in the same way or are refused in the same way, with one rule for steps in turn.
* `Plan.place_alike`, `Plan.allocate_alike`: one parameter, and all of them.
* `Plan.ofDeclaration_alike`: **spelling does not change the registers.**
-/

namespace TrapStub

namespace TypeTable

/-- One type is another spelling of the other. -/
inductive Respelled (table : TypeTable) : CType → CType → Prop
  | refl (t : CType) : Respelled table t t
  | symm {s t : CType} (h : Respelled table s t) : Respelled table t s
  | trans {s t u : CType} (h : Respelled table s t) (h' : Respelled table t u) : Respelled table s u
  /-- Qualifiers are added or left out. -/
  | qualifiers (t : CType) (const volatile : Bool) : Respelled table (.qualified t const volatile) t
  /-- A typedef stands for its target. -/
  | typedef {key : Text} {a : Typedef} (h : table.get? key = some (.typedef a)) : Respelled table (.named key) a.target
  /-- A pointer points to anything else. -/
  | target (s t : CType) : Respelled table (.pointer s) (.pointer t)
  /-- An array is a pointer to its element. -/
  | decay (element : CType) (length : Option Int) : Respelled table (.array element length) (.pointer element)
  /-- All this at any depth. -/
  | base {s t : CType} (const volatile : Bool) (h : Respelled table s t) :
    Respelled table (.qualified s const volatile) (.qualified t const volatile)
  | element {s t : CType} (length : Option Int) (h : Respelled table s t) :
    Respelled table (.array s length) (.array t length)
  | result {s t : CType} (parameters : List CType) (variadic : Bool) (h : Respelled table s t) :
    Respelled table (.function s parameters variadic) (.function t parameters variadic)
  | parameter {s t : CType} (result : CType) (before after : List CType) (variadic : Bool) (h : Respelled table s t) :
    Respelled table (.function result (before ++ s :: after) variadic)
      (.function result (before ++ t :: after) variadic)

variable {table : TypeTable} {s t : CType} {key : Text} {a : Typedef} {shape : Shape}

theorem lookup_qualified (t : CType) (const volatile : Bool) :
    table.lookup (.qualified t const volatile) = table.lookup t := by
  unfold lookup
  rw [lookupFrom, lookupFrom, CType.head]

/-- A typedef leads where its target leads, and nowhere if the target leads nowhere. -/
theorem lookup_typedef (ha : table.get? key = some (.typedef a)) :
    table.lookup (.named key) = .ok shape ↔ table.lookup a.target = .ok shape := by
  rw [lookup_eq_ok_iff, lookup_eq_ok_iff]
  exact Follows.leadsTo_iff (.step rfl ha (.here a.target))

theorem passing_of_head (h : t.head = .shape shape) : table.passing t = .ok shape.passing :=
  passing_eq_ok.2 ⟨shape, lookupFrom_shape h, rfl⟩

/-- **A respelled type travels in the same way**, or neither of the two resolves. -/
theorem Respelled.passing (h : table.Respelled s t) (passing : Passing) :
    table.passing s = .ok passing ↔ table.passing t = .ok passing := by
  induction h with
  | refl => exact Iff.rfl
  | symm _ ih => exact ih.symm
  | trans _ _ ih ih' => exact ih.trans ih'
  | qualifiers t const volatile => rw [TypeTable.passing, lookup_qualified, TypeTable.passing]
  | typedef ha => simp only [passing_eq_ok, lookup_typedef ha]
  | base const volatile _ ih =>
    rw [TypeTable.passing, lookup_qualified, TypeTable.passing, lookup_qualified]
    exact ih
  -- all other types travel as addresses, whatever stands inside them
  | target | decay | element | result | parameter => rw [passing_of_head rfl, passing_of_head rfl]; rfl

end TypeTable

/-! ## Two calls side by side -/

/-- Both calls answer, with related answers, or both end with a report of one kind. -/
inductive Alike {α β : Type} (R : α → β → Prop) : Except Fault α → Except Fault β → Prop
  | answers {a : α} {b : β} (h : R a b) : Alike R (.ok a) (.ok b)
  | reports {r r' : Report} (h : r.cause.kind = r'.cause.kind) : Alike R (.error (.report r)) (.error (.report r'))

theorem Alike.bind {α β γ δ : Type} {R : α → β → Prop} {S : γ → δ → Prop} {x : Except Fault α} {y : Except Fault β}
    {f : α → Except Fault γ} {g : β → Except Fault δ} (h : Alike R x y) (hf : ∀ a b, R a b → Alike S (f a) (g b)) :
    Alike S (x >>= f) (y >>= g) := by
  cases h with
  | answers h => exact hf _ _ h
  | reports h => exact .reports h

/-- The content of a register without the name of its parameter. -/
def Content.unnamed : Content → Content
  | resultAddress => resultAddress
  | whole _ index carriage => whole [] index carriage
  | half _ index word image => half [] index word image

/-- The slot without the name of its parameter. -/
def Slot.unnamed (slot : Slot) : Slot := { slot with content := slot.content.unnamed }

/-- The declarations differ in names and notes and in the spelling of their types only. -/
structure Declaration.Respelled (table : TypeTable) (d d' : Declaration) : Prop where
  returnType : table.Respelled d.returnType d'.returnType
  parameters : List.Forall₂ (fun p p' => table.Respelled p.type p'.type) d.parameters d'.parameters
  variadic : d.variadic = d'.variadic

namespace Allocation

/-- The allocations give out the same registers, to parameters of any names. -/
structure Same (a b : Allocation) : Prop where
  slots : a.slots.map Slot.unnamed = b.slots.map Slot.unnamed
  padding : a.padding = b.padding
  next : a.next = b.next

variable {a b : Allocation} {c c' : Content}

theorem Same.refl (a : Allocation) : a.Same a := ⟨rfl, rfl, rfl⟩

theorem Same.add (h : a.Same b) (hc : c.unnamed = c'.unnamed) : (a.add c).Same (b.add c') where
  slots := by
    rw [add_slots, add_slots, List.map_append, List.map_append, h.slots]
    simp only [List.map_cons, List.map_nil, Slot.unnamed, h.next, hc]
  padding := h.padding
  next := by rw [add_next, add_next, h.next]

theorem Same.align (h : a.Same b) : a.align.Same b.align := by
  unfold Allocation.align
  rw [h.next, h.padding]
  split
  · exact ⟨h.slots, rfl, rfl⟩
  · exact h

end Allocation

namespace Plan

variable {table : TypeTable} {d d' : Declaration} {a b : Allocation} {s t : CType}

/-- The plans have the same registers for the same things, whatever these are called. -/
structure SameRegisters (plan plan' : Plan) : Prop where
  slots : plan.slots.map Slot.unnamed = plan'.slots.map Slot.unnamed
  padding : plan.padding = plan'.padding
  returns : plan.returns = plan'.returns

theorem passing_alike (h : table.Respelled s t) :
    Alike Eq (orMalformed (table.passing s)) (orMalformed (table.passing t)) := by
  cases hs : table.passing s with
  | ok passing =>
    rw [(h.passing passing).1 hs]
    exact .answers rfl
  | error cause =>
    cases ht : table.passing t with
    | ok passing =>
      rw [(h.passing passing).2 ht] at hs
      cases hs
    | error cause' => exact .reports rfl

/-- **One more parameter** that travels in the same way gets the same registers. -/
theorem place_alike (h : a.Same b) (name name' : Text) (index : Nat) (passing : Passing) :
    Alike Allocation.Same (orRefuse d (a.place name index passing)) (orRefuse d' (b.place name' index passing)) := by
  cases passing with
  | word carriage => exact .answers (h.add rfl)
  | pair image =>
    have hcontent : ∀ word : Half,
        (Content.half name index word image).unnamed = (Content.half name' index word image).unnamed := fun _ => rfl
    exact .answers ((h.align.add (hcontent .low)).add (hcontent .high))
  | nothing => exact .reports rfl
  | memory bytes => exact .reports rfl
  | impossible bytes => exact .reports rfl

theorem allocate_alike {ps ps' : List Parameter} (hp : List.Forall₂ (fun p p' => table.Respelled p.type p'.type) ps ps')
    (h : a.Same b) (k : Nat) :
    Alike Allocation.Same (allocate d table a (ps.zipIdx k)) (allocate d' table b (ps'.zipIdx k)) := by
  induction hp generalizing a b k with
  | nil => exact .answers h
  | @cons p p' ps ps' hpp' _ ih =>
    rw [List.zipIdx_cons, List.zipIdx_cons, allocate, allocate]
    refine (passing_alike hpp').bind ?_
    rintro passing _ rfl
    exact (place_alike h p.name p'.name k passing).bind fun a' b' h' => ih h' (k + 1)

theorem returnOf_alike (passing : Passing) :
    Alike Eq (orRefuse d (returnOf passing)) (orRefuse d' (returnOf passing)) := by
  cases passing with
  | impossible bytes => exact .reports rfl
  | _ => exact .answers rfl

/-- **Spelling does not change the registers.** Declarations that differ in names and in the spelling of their types
have plans with the same slots, padding and way of the result, or are both refused with reports of one kind. -/
theorem ofDeclaration_alike (h : Declaration.Respelled table d d') :
    Alike SameRegisters (ofDeclaration d table) (ofDeclaration d' table) := by
  unfold ofDeclaration
  rw [h.variadic]
  by_cases hv : d'.variadic = true
  · rw [if_pos hv, if_pos hv]
    exact .reports rfl
  · rw [if_neg hv, if_neg hv]
    refine (passing_alike h.returnType).bind ?_
    rintro result _ rfl
    refine (returnOf_alike result).bind ?_
    rintro returns _ rfl
    refine (allocate_alike h.parameters (.refl (start returns)) 0).bind fun a b hsame => ?_
    rw [hsame.next]
    by_cases hover : b.next > argumentRegisters
    · rw [if_pos hover, if_pos hover]
      exact .reports rfl
    · rw [if_neg hover, if_neg hover]
      exact .answers ⟨hsame.slots, hsame.padding, rfl⟩

/-! `stamp_t write(const stamp_t at, uint32_t *const data[4])` and `uint64_t put(uint64_t when, void **bytes)`, where
`stamp_t` is a typedef of `volatile uint64_t`. -/

def stampTypedef : Typedef :=
  ⟨"stamp_t", .qualified (.scalar ⟨"uint64_t", 8, false, false⟩) false true, "stamp.h", none⟩

def stampTable : TypeTable := ⟨[.typedef stampTypedef], true⟩

def stampWrite : Declaration :=
  { name := "write", trapNumber := 7, returnType := .named "stamp_t"
    parameters := [⟨"at", .qualified (.named "stamp_t") true false⟩,
      ⟨"data", .array (.qualified (.pointer (.scalar ⟨"uint32_t", 4, false, false⟩)) true false) (some 4)⟩]
    symbol := "WRITE", origin := "stamp.h", line := 3, variadic := false, comment := none }

def stampPut : Declaration :=
  { name := "put", trapNumber := 8, returnType := .scalar ⟨"uint64_t", 8, false, false⟩
    parameters := [⟨"when", .scalar ⟨"uint64_t", 8, false, false⟩⟩, ⟨"bytes", .pointer (.pointer .void)⟩]
    symbol := "PUT", origin := "put.h", line := 5, variadic := false, comment := some "/** Puts. */" }

theorem stampWrite_alike : Declaration.Respelled stampTable stampWrite stampPut ∧
    ((ofDeclaration stampWrite stampTable).toOption.map fun plan => plan.slots.map (·.register)) = some [0, 1, 2] ∧
    Alike SameRegisters (ofDeclaration stampWrite stampTable) (ofDeclaration stampPut stampTable) := by
  have hstamp : stampTable.Respelled (.named "stamp_t") (.scalar ⟨"uint64_t", 8, false, false⟩) :=
    .trans (.typedef (show stampTable.get? "stamp_t" = some _ from rfl)) (.qualifiers _ _ _)
  have hdata : stampTable.Respelled stampWrite.parameters[1].type (.pointer (.pointer .void)) :=
    .trans (.element _ (.trans (.qualifiers _ _ _) (.target _ .void))) (.decay _ _)
  have hrespelled : Declaration.Respelled stampTable stampWrite stampPut :=
    ⟨hstamp, .cons (.trans (.qualifiers _ _ _) hstamp) (.cons hdata .nil), rfl⟩
  exact ⟨hrespelled, by decide +kernel, ofDeclaration_alike hrespelled⟩

end Plan

end TrapStub
