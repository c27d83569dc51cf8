import Mathlib.Data.List.Sort
import TrapStub.Header.Stub
import TrapStub.Proofs.Plan.Registers

/-!
# What a stub loads

What a register is loaded with follows from the shape of the parameter that its slot names, and so
do the statements that copy a parameter's bytes. The stub's variables are those of the slots and of
the result, in ascending order.

* `Shape.load`, `Shape.copies`: the expression and the statements for a parameter.
* `Plan.Loads`: the expression for a slot.
* `Plan.VariableLine`: the declaration of a register's variable, loaded or not.
* `Stub.initial?_slot`: **a register is loaded with what its slot holds.**
-/

namespace TrapStub

open Text

variable {table : TypeTable} {plan : Plan}

namespace Shape

/-- A floating scalar or a record: its bytes are carried, not its value. -/
def isImage : Shape → Bool
  | scalar type => type.floating
  | record _ => true
  | _ => false

/-- The C expression of a parameter with this shape, or of one of its words. -/
def load (shape : Shape) (name : Text) (half? : Option Half) : Text :=
  let bits := "__" ++ name ++ "_bits"
  let whole := if shape.isImage then bits else "(uint64_t)(" ++ name ++ ")"
  match half? with
  | some .low => "(uint32_t)" ++ whole
  | some .high => "(uint32_t)(" ++ whole ++ " >> 32)"
  | none =>
    if shape.isAddress then "(uint32_t)(uintptr_t)(" ++ name ++ ")"
    else if shape.isImage then bits
    else "(uint32_t)(" ++ name ++ ")"

/-- The statements that copy the bytes of a parameter with this shape into an integer. -/
def copies (shape : Shape) (name : Text) : List Text :=
  let bits := "__" ++ name ++ "_bits"
  if shape.isImage then
    if shape.isWide then
      ["uint64_t " ++ bits ++ ";",
       "__builtin_memcpy(&" ++ bits ++ ", &" ++ name ++ ", sizeof(" ++ bits ++ "));"]
    else
      ["uint32_t " ++ bits ++ " = 0;",
       "__builtin_memcpy(&" ++ bits ++ ", &" ++ name ++ ", sizeof(" ++ name ++ "));"]
  else []

/-- How a value travels in one register follows from its shape. -/
theorem carriage_of_passing {shape : Shape} {carriage : Carriage} (h : shape.passing = .word carriage) :
    carriage = if shape.isAddress then .address else if shape.isImage then .image else .value := by
  cases shape with
  | void => cases h
  | scalar type => exact (passingOfSize_eq_word.1 h).2
  | enumeration e => exact (passingOfSize_eq_word.1 h).2
  | record r =>
    rcases record_passing_cases r with ⟨-, -, -, e⟩ | e
    · rw [e] at h; cases h; rfl
    · rw [e] at h; cases h
  | _ => cases h; rfl

/-- What travels in two registers travels as its bytes just if its shape says so. -/
theorem image_of_passing {shape : Shape} {image : Bool} (h : shape.passing = .pair image) :
    image = shape.isImage := by
  cases shape with
  | scalar type => exact (passingOfSize_eq_pair.1 h).2
  | enumeration e => exact (passingOfSize_eq_pair.1 h).2
  | record r => rcases record_passing_cases r with ⟨-, -, -, e⟩ | e <;> rw [e] at h <;> cases h
  | _ => cases h

/-- The expression of a whole parameter. -/
theorem whole_text {shape : Shape} {carriage : Carriage} (h : shape.passing = .word carriage)
    (name : Text) (index : Nat) :
    (Content.whole name index carriage).expr.text = shape.load name none := by
  rw [carriage_of_passing h]
  unfold load
  cases shape.isAddress with
  | true => rfl
  | false => cases shape.isImage <;> rfl

/-- The words of a shift by one register. -/
theorem shift_text (t : Text) : t ++ " >> " ++ Text.natural Half.high.shift ++ ")" = t ++ " >> 32)" := by
  rw [List.append_assoc, List.append_assoc]
  exact congrArg (t ++ ·) (by decide)

/-- The expression of a word of a parameter. -/
theorem half_text {shape : Shape} {image : Bool} (h : shape.passing = .pair image) (name : Text)
    (index : Nat) (half : Half) :
    (Content.half name index half image).expr.text = shape.load name (some half) := by
  rw [image_of_passing h]
  unfold load
  cases half with
  | low => cases shape.isImage <;> rfl
  | high => cases shape.isImage <;> exact shift_text _

/-- The statements for a whole parameter. -/
theorem whole_copies {shape : Shape} {carriage : Carriage} (h : shape.passing = .word carriage)
    (name : Text) (index : Nat) :
    ([Content.whole name index carriage].filterMap Content.preparation?).flatMap Preparation.lines =
      shape.copies name := by
  have hw := not_isWide_of_passing h
  have ha : shape.isAddress = true → shape.isImage = false := by cases shape <;> simp [isAddress, isImage]
  rw [carriage_of_passing h]
  unfold copies
  rw [hw]
  cases himage : shape.isImage with
  | true =>
    have : shape.isAddress = false := by
      rw [Bool.eq_false_iff]; intro h'; rw [ha h'] at himage; cases himage
    rw [this]
    rfl
  | false => cases shape.isAddress <;> rfl

/-- The statements for the two words of a parameter. -/
theorem half_copies {shape : Shape} {image : Bool} (h : shape.passing = .pair image) (name : Text)
    (index : Nat) :
    ([Content.half name index .low image, .half name index .high image].filterMap
      Content.preparation?).flatMap Preparation.lines = shape.copies name := by
  have hw := isWide_of_passing h
  rw [image_of_passing h]
  unfold copies
  rw [hw]
  cases shape.isImage <;> rfl

end Shape

namespace Plan

/-- The C expression that a slot's register must hold: the address of the result, or what the
parameter at its position, or a word of it, is loaded with. -/
inductive Loads (plan : Plan) (table : TypeTable) (slot : Slot) : Text → Prop
  | result (h : slot.content = .resultAddress) : Loads plan table slot "(uint32_t)(uintptr_t)&__result"
  | parameter {index : Nat} {p : Parameter} {shape : Shape} (hi : slot.content.index? = some index)
      (hp : plan.declaration.parameters[index]? = some p) (hs : table.lookup p.type = .ok shape) :
      Loads plan table slot (shape.load p.name slot.content.half?)

/-- The line declares the variable of a register, with the expression of the slot that loads the register or, if
none does, without a value. -/
def VariableLine (plan : Plan) (table : TypeTable) (r : Nat) (line : Text) : Prop :=
  ∃ initial : Text, line =
      "register uint32_t __r" ++ Text.natural r ++ " __asm__(\"r" ++ Text.natural r ++ "\")" ++ initial ++ ";" ∧
    ((∃ slot ∈ plan.slots, slot.register = r ∧ ∃ text, plan.Loads table slot text ∧ initial = " = " ++ text) ∨
      r ∉ plan.slots.map (·.register) ∧ initial = [])

/-- The slots of a parameter carry what its shape says. -/
theorem chunkOf_shape {p : Parameter} {index : Nat} {chunk : List Slot} (h : ChunkOf table (p, index) chunk) :
    ∃ shape, table.lookup p.type = .ok shape ∧
      (∀ slot ∈ chunk, slot.content.expr.text = shape.load p.name slot.content.half?) ∧
      (chunk.filterMap (·.content.preparation?)).flatMap Preparation.lines = shape.copies p.name := by
  obtain ⟨shape, hs, hl⟩ := chunkOf_lays h
  refine ⟨shape, hs, ?_⟩
  generalize hpass : shape.passing = passing at hl
  cases hl with
  | word register carriage =>
    refine ⟨fun slot hslot => ?_, shape.whole_copies hpass p.name index⟩
    rw [List.mem_singleton.1 hslot]
    exact shape.whole_text hpass p.name index
  | pair register image even =>
    refine ⟨fun slot hslot => ?_, shape.half_copies hpass p.name index⟩
    rcases List.mem_cons.1 hslot with rfl | hslot
    · exact shape.half_text hpass p.name index .low
    · rw [List.mem_singleton.1 hslot]
      exact shape.half_text hpass p.name index .high

/-- The statements that copy the bytes of some parameters, for each in turn. -/
def CopiesOf (table : TypeTable) : List Parameter → List (List Text) → Prop :=
  List.Forall₂ fun p lines => ∃ shape, table.lookup p.type = .ok shape ∧ lines = shape.copies p.name

theorem chunk_copies {ps : List Parameter} {k : Nat} {chunks : List (List Slot)}
    (h : List.Forall₂ (ChunkOf table) (ps.zipIdx k) chunks) : ∃ copies, CopiesOf table ps copies ∧
      (chunks.flatten.filterMap (·.content.preparation?)).flatMap Preparation.lines = copies.flatten := by
  induction ps generalizing k chunks with
  | nil => cases h; exact ⟨[], .nil, rfl⟩
  | cons p ps ih =>
    rw [List.zipIdx_cons] at h
    cases h with
    | @cons _ chunk _ rest hc hrest =>
      obtain ⟨shape, hs, -, hlines⟩ := chunkOf_shape hc
      obtain ⟨copies, hcopies, hflat⟩ := ih hrest
      refine ⟨shape.copies p.name :: copies, .cons ⟨shape, hs, rfl⟩ hcopies, ?_⟩
      rw [List.flatten_cons, List.filterMap_append, List.flatMap_append, hlines, hflat, List.flatten_cons]

namespace Built

variable {a : Allocation} {chunks : List (List Slot)}

/-- The expression of a slot's content is the one that its register must hold. -/
theorem loads (hb : plan.Built table a chunks) {slot : Slot} (hs : slot ∈ plan.slots) :
    plan.Loads table slot slot.content.expr.text := by
  rcases hb.slot_cases hs with ⟨-, rfl⟩ | ⟨index, p, hp, hi, -⟩
  · exact .result rfl
  · have hmem : slot ∈ plan.slotsOf index := List.mem_filter.2 ⟨hs, decide_eq_true hi⟩
    obtain ⟨shape, hshape, htext, -⟩ := chunkOf_shape (hb.slotsOf hp)
    rw [htext slot hmem]
    exact .parameter hi hp hshape

/-- The statements that the slots need are those of the parameters, in their order. -/
theorem copies (hb : plan.Built table a chunks) : ∃ copies, CopiesOf table plan.declaration.parameters copies ∧
    (plan.slots.filterMap (·.content.preparation?)).flatMap Preparation.lines = copies.flatten := by
  obtain ⟨copies, hcopies, hflat⟩ := chunk_copies hb.owned
  refine ⟨copies, hcopies, ?_⟩
  have hstart : (start plan.returns).slots.filterMap (·.content.preparation?) = [] := by
    rw [start_slots]; split <;> rfl
  rw [hb.chunked, List.filterMap_append, hstart, List.nil_append, hflat]

end Built

/-! ## The variables of a stub -/

/-- Without repetitions an ascending list is strictly ascending. -/
theorem eraseDups_ascending : ∀ {l : List Nat}, l.Pairwise (· ≤ ·) → l.eraseDups.Pairwise (· < ·)
  | [], _ => by simp
  | r :: rest, h => by
    have ⟨hr, hrest⟩ := List.pairwise_cons.1 h
    rw [List.eraseDups_cons]
    refine List.pairwise_cons.2 ⟨fun s hs => ?_, eraseDups_ascending (hrest.filter _)⟩
    rw [List.mem_eraseDups, List.mem_filter] at hs
    have hle := hr s hs.1
    have hne : s ≠ r := by simpa using hs.2
    omega
termination_by l => l.length
decreasing_by exact Nat.lt_succ_of_le (List.length_filter_le _ _)

end Plan

namespace Stub

theorem operandRegisters_ascending (plan : Plan) : (operandRegisters plan).Pairwise (· < ·) := by
  refine Plan.eraseDups_ascending ?_
  refine (List.pairwise_mergeSort ?_ ?_ _).imp ?_
  · intro a b c; simpa using Nat.le_trans
  · intro a b; simpa using Nat.le_total a b
  · intro a b; simp

theorem mem_operandRegisters {r : Nat} : r ∈ operandRegisters plan ↔
    r ∈ plan.slots.map (·.register) ∨ r ∈ plan.resultRegisters := by
  unfold operandRegisters
  rw [List.mem_eraseDups, List.mem_mergeSort, List.mem_append]

theorem operandRegisters_lt {a : Allocation} {chunks : List (List Slot)} (hb : plan.Built table a chunks)
    {r : Nat} (hr : r ∈ operandRegisters plan) : r < 4 := by
  rcases mem_operandRegisters.1 hr with hr | hr
  · obtain ⟨slot, hs, rfl⟩ := List.mem_map.1 hr
    exact hb.register_lt hs
  · unfold Plan.resultRegisters at hr
    cases hret : plan.returns with
    | void => rw [hret] at hr; cases hr
    | storage => rw [hret] at hr; cases hr
    | register carriage => rw [hret] at hr; simp at hr; omega
    | registerPair image => rw [hret] at hr; simp at hr; omega

theorem initial?_isSome {r : Nat} : (initial? plan r).isSome ↔ r ∈ plan.slots.map (·.register) := by
  unfold initial?
  rw [Option.isSome_map, List.find?_isSome, List.mem_map]
  simp only [beq_iff_eq]

/-- **The register of a slot is loaded** with the expression of its content. -/
theorem initial?_slot (h : (plan.slots.map (·.register)).Nodup) {slot : Slot} (hs : slot ∈ plan.slots) :
    initial? plan slot.register = some slot.content.expr := by
  have hsome : (plan.slots.find? (·.register == slot.register)).isSome :=
    List.find?_isSome.2 ⟨slot, hs, beq_self_eq_true _⟩
  obtain ⟨other, hother⟩ := Option.isSome_iff_exists.1 hsome
  have hreg : other.register = slot.register := by simpa using List.find?_some hother
  -- no other slot has the register
  have heq := List.inj_on_of_nodup_map h (List.mem_of_find?_eq_some hother) hs hreg
  unfold initial?
  rw [hother, heq]
  rfl

end Stub

end TrapStub
