import TrapStub.Proofs.Header.StubRegisters
import TrapStub.Proofs.Word.Expression

/-!
# Wide values at the trap

A 64-bit integer enters the trap as two words in neighbouring registers, and comes back in r0 and r1. The stub's
C expressions do to the value what `splitWords` and `joinWords` do.

* `Half.term`, `pairTerm`: the expressions for a word of a parameter and for the result of two words.
* `Stub.PassesWide`, `Stub.RepliesPair`: a stub loads a parameter's words; it gives back the joined words.
* `Stub.wideValues_cross`: **splitting and joining undo each other, and every stub does both.**
-/

namespace TrapStub

open WordTerm

variable {name : Text} {assignment : Text → CValue}

/-! ## The expressions -/

/-- A word of a parameter's value. -/
def Half.term (name : Text) : Half → WordTerm
  | low => .cast .word (.cast .wide (.group (.named name)))
  | high => .cast .word (.group (.shiftRight (.cast .wide (.group (.named name)))))

/-- The two words of a result, joined. -/
def pairTerm : WordTerm := .bitOr (.group (.shiftLeft (.cast .wide (.named "__r1")))) (.named "__r0")

theorem Half.term_text (half : Half) (name : Text) :
    (half.term name).text = (WordExpr.half half (.value name)).text := by
  cases half with
  | low => rfl
  | high =>
    have hshift : (WordExpr.half .high (.value name)).text = "(uint32_t)(" ++ WideExpr.text (.value name) ++ " >> 32)" :=
      Shape.shift_text _
    rw [hshift, List.append_assoc]
    simp only [Half.term, WordTerm.text, WideExpr.text, List.append_assoc, List.cons_append]
    rfl

theorem pairTerm_text : pairTerm.text = ReplySource.pair.text := by decide

theorem Half.term_fits (hname : IsVariable name) (half : Half) : Fits .bitOr (half.term name) := by
  have hwhole : Fits .unary (.cast .wide (.group (.named name))) := .cast _ (.group (.shift (.unary (.named hname))))
  cases half with
  | low => exact .shift (.unary (.cast _ hwhole))
  | high => exact .shift (.unary (.cast _ (.group (.shift (.shiftRight hwhole)))))

/-- The name of a register's variable can name a variable. -/
theorem isVariable_nameOf : ∀ r < 2, IsVariable (RegisterVariable.nameOf r) := by
  have hall : ∀ r < 2, RegisterVariable.nameOf r ≠ [] ∧
      (RegisterVariable.nameOf r).all Text.isAsciiWord = true ∧
      Width.ofName? (RegisterVariable.nameOf r) = none := by decide
  intro r hr
  obtain ⟨hne, hword, htype⟩ := hall r hr
  exact ⟨hne, Text.forall_isWord hword, htype⟩

theorem pairTerm_fits : Fits .bitOr pairTerm :=
  .bitOr (.unary (.group (.shift (.shiftLeft (.cast _ (.named (isVariable_nameOf 1 (by decide))))))))
    (.unary (.named (isVariable_nameOf 0 (by decide))))

/-- **The expression of a half has the value of the half.** -/
theorem Half.term_value {v : Int} (hv : assignment name = .integer v) (half : Half) :
    ∃ bits, (half.term name).value assignment = some (.word bits) ∧ (bits.toNat : Int) = half.word v := by
  -- a word of 64 bits is cast to the word's type by its number
  have hcast : ∀ whole : BitVec 64, BitVec.ofInt 32 (whole.toNat : Int) = whole.setWidth 32 := fun whole => by
    rw [BitVec.ofInt_natCast, BitVec.ofNat_toNat]
  refine ⟨(BitVec.ofInt 64 v >>> half.shift).setWidth 32, ?_, (half.word_eq_extract v).symm⟩
  cases half with
  | low =>
    have hshift : BitVec.ofInt 64 v >>> Half.low.shift = BitVec.ofInt 64 v := BitVec.ushiftRight_zero _
    rw [hshift, ← hcast]
    simp only [Half.term, value, hv, Option.bind_eq_bind, Option.bind_some]
    rfl
  | high =>
    rw [← hcast]
    simp only [Half.term, value, hv, Option.bind_eq_bind, Option.bind_some]
    rfl

/-- **The expression for the result has the value of the joined words.** -/
theorem pairTerm_value {low high : BitVec 32} (hlow : assignment "__r0" = .word low)
    (hhigh : assignment "__r1" = .word high) :
    ∃ bits, pairTerm.value assignment = some (.wide bits) ∧ (bits.toNat : Int) = joinWords low.toNat high.toNat := by
  have hcast : BitVec.ofInt 64 (high.toNat : Int) = high.setWidth 64 := by
    rw [BitVec.ofInt_natCast, BitVec.ofNat_toNat]
  refine ⟨high.setWidth 64 <<< Half.high.shift ||| low.setWidth 64, ?_, toNat_pair low high⟩
  rw [← hcast]
  simp only [pairTerm, value, hlow, hhigh, Option.bind_eq_bind, Option.bind_some]
  rfl

namespace Stub

/-! ## The lines -/

/-- A line of the stub loads the register with the value of a C text, and no other declares its variable. -/
structure LoadsText (stub : Stub) (register : Nat) (text : Text) : Prop where
  line : Header.indent ++ ("register uint32_t " ++ RegisterVariable.nameOf register ++ " __asm__(\"" ++
    registerName register ++ "\") = " ++ text ++ ";") ∈ stub.lines
  once : (stub.registers.map (·.line)).countP (RegisterVariable.declares register) = 1

/-- The stub passes a wide parameter: its low word in an even register and its high word in the next. The texts that
the registers are loaded with are read as expressions with these values. -/
def PassesWide (stub : Stub) (plan : Plan) (index : Nat) (name : Text) : Prop :=
  ∃ register, register % 2 = 0 ∧ register + 1 < 4 ∧
    plan.slotsOf index = [⟨register, .half name index .low false⟩, ⟨register + 1, .half name index .high false⟩] ∧
    ∃ low high : WordTerm, stub.LoadsText register low.text ∧ stub.LoadsText (register + 1) high.text ∧
      (IsVariable name → read? low.text = some low ∧ read? high.text = some high) ∧
      ∀ assignment v, assignment name = .integer v → ∃ l h : BitVec 32,
        low.value assignment = some (.word l) ∧ high.value assignment = some (.word h) ∧
          ((l.toNat : Int), (h.toNat : Int)) = splitWords v

/-- The stub gives back the joined words of r0 and r1, converted to a type or as the bytes of a variable. -/
def RepliesPair (stub : Stub) (speller : Speller) (type : CType) (image : Bool) : Prop :=
  ∃ pair : WordTerm, read? pair.text = some pair ∧
    (if image then Header.indent ++ ("uint64_t __ret_bits = " ++ pair.text ++ ";") ∈ stub.lines
     else ∃ cast, speller.declare 0 type [] = .ok cast ∧
       Header.indent ++ ("return (" ++ cast ++ ")(" ++ pair.text ++ ");") ∈ stub.lines) ∧
    (∀ r < 2, (stub.registers.map (·.line)).countP (RegisterVariable.declares r) = 1) ∧
    ∀ assignment (low high : BitVec 32), assignment (RegisterVariable.nameOf 0) = .word low →
      assignment (RegisterVariable.nameOf 1) = .word high →
      ∃ bits, pair.value assignment = some (.wide bits) ∧ (bits.toNat : Int) = joinWords low.toNat high.toNat

variable {comments : Bool} {speller : Speller} {d : Declaration} {plan : Plan} {stub : Stub}

theorem register_mem_lines {v : RegisterVariable} (hv : v ∈ stub.registers) :
    Header.indent ++ v.line ∈ stub.lines := by
  simp only [lines, List.map_append, List.mem_append]
  exact .inl (.inl (.inl (.inr (.inr (List.mem_map_of_mem (List.mem_map_of_mem hv))))))

theorem reply_mem_lines {line : Text} (h : line ∈ stub.reply.lines) : Header.indent ++ line ∈ stub.lines := by
  simp only [lines, List.mem_append]
  exact .inl (.inr (List.mem_map_of_mem h))

/-- A slot's register is loaded with the expression of the slot's content. -/
theorem loadsText_of_slot (h : ofPlan comments speller plan = .ok stub) (hnodup : (plan.slots.map (·.register)).Nodup)
    {slot : Slot} (hs : slot ∈ plan.slots) : stub.LoadsText slot.register slot.content.expr.text := by
  have hmem : slot.register ∈ stub.operands := by
    rw [operands_eq h]
    exact mem_operandRegisters.2 (.inl (List.mem_map_of_mem hs))
  have hv : ⟨slot.register, some slot.content.expr⟩ ∈ stub.registers := by
    rw [registers_eq h, ← initial?_slot hnodup hs]
    exact List.mem_map_of_mem hmem
  refine ⟨?_, count_declares h hmem⟩
  have hline := register_mem_lines hv
  rw [RegisterVariable.line] at hline
  have htail : ∀ stem : Text, stem ++ "\")" ++ (" = " ++ slot.content.expr.text) ++ ";" =
      stem ++ "\") = " ++ slot.content.expr.text ++ ";" := fun stem => by
    rw [← List.append_assoc, List.append_assoc stem]
    rfl
  rw [htail] at hline
  exact hline

/-- **A stub passes each wide integer as its two words.** -/
theorem passesWide (hplan : Plan.ofDeclaration d speller.table = .ok plan)
    (hstub : ofPlan comments speller plan = .ok stub)
    {index : Nat} {p : Parameter} {shape : Shape} (hp : d.parameters[index]? = some p)
    (hshape : speller.table.lookup p.type = .ok shape) (hwide : shape.isWide = true) (himage : shape.isImage = false) :
    stub.PassesWide plan index p.name := by
  obtain ⟨rfl, a, chunks, hb⟩ := Plan.ofDeclaration_built hplan
  obtain ⟨register, image, hpass, heven, hslots⟩ := Plan.chunkOf_wide (hb.slotsOf hp) hshape hwide
  rw [Shape.image_of_passing hpass, himage] at hslots
  have hnodup := hb.ascending.imp Nat.ne_of_lt
  have hmem : ∀ slot ∈ plan.slotsOf index, slot ∈ plan.slots := fun slot hs => List.mem_of_mem_filter hs
  rw [hslots] at hmem
  have hlow := hmem _ List.mem_cons_self
  have hhigh := hmem _ (List.mem_cons_of_mem _ List.mem_cons_self)
  refine ⟨register, heven, hb.register_lt hhigh, hslots, Half.low.term p.name, Half.high.term p.name, ?_, ?_, ?_, ?_⟩
  · rw [Half.term_text]
    exact loadsText_of_slot hstub hnodup hlow
  · rw [Half.term_text]
    exact loadsText_of_slot hstub hnodup hhigh
  · exact fun hname => ⟨(Half.low.term_fits hname).read?_text, (Half.high.term_fits hname).read?_text⟩
  · intro assignment v hv
    obtain ⟨l, hl, hlv⟩ := Half.low.term_value hv
    obtain ⟨h, hh, hhv⟩ := Half.high.term_value hv
    exact ⟨l, h, hl, hh, by rw [hlv, hhv]; rfl⟩

/-- **A stub with a result in two registers joins them.** -/
theorem repliesPair (hplan : Plan.ofDeclaration d speller.table = .ok plan)
    (hstub : ofPlan comments speller plan = .ok stub)
    {image : Bool} (hreturns : plan.returns = .registerPair image) : stub.RepliesPair speller d.returnType image := by
  obtain ⟨rfl, -⟩ := Plan.ofDeclaration_built hplan
  obtain ⟨_, _, reply, -, -, hreply, hstub'⟩ := ofPlan_eq_ok.1 hstub
  have hlines : reply = stub.reply := by rw [hstub']
  refine ⟨pairTerm, pairTerm_fits.read?_text, ?_, fun r hr => count_declares hstub ?_, ?_⟩
  · rw [pairTerm_text]
    rw [replyOf, hreturns, hlines] at hreply
    cases image with
    | false =>
      obtain ⟨cast, hcast, hreply⟩ := bind_eq_ok.1 hreply
      refine ⟨cast, hcast, reply_mem_lines ?_⟩
      rw [← pure_eq_ok.1 hreply]
      exact List.mem_singleton_self _
    | true =>
      obtain ⟨holder, hholder, hreply⟩ := bind_eq_ok.1 hreply
      refine reply_mem_lines ?_
      rw [← pure_eq_ok.1 hreply]
      exact List.mem_cons_self
  · rw [operands_eq hstub]
    refine mem_operandRegisters.2 (.inr ?_)
    rw [Plan.resultRegisters, hreturns]
    simp only [List.mem_cons, List.not_mem_nil, or_false]
    omega
  · exact fun assignment low high hlow hhigh => pairTerm_value hlow hhigh

/-- **Wide values cross the trap intact.** Splitting and joining undo each other, whatever the integers. Every stub
splits a wide integer parameter over an even register and the next one, and joins a result of two registers. -/
theorem wideValues_cross :
    (∀ v : Int, joinWords (splitWords v).1 (splitWords v).2 = v % 2 ^ 64 ∧ (splitWords v).1 = v % 2 ^ 32 ∧
      (0 ≤ (splitWords v).1 ∧ (splitWords v).1 ≤ 2 ^ 32 - 1) ∧ 0 ≤ (splitWords v).2 ∧ (splitWords v).2 ≤ 2 ^ 32 - 1) ∧
    (∀ low high : Int, splitWords (joinWords low high) = (low % 2 ^ 32, high % 2 ^ 32)) ∧
    ∀ (comments : Bool) (speller : Speller) (d : Declaration) (plan : Plan) (stub : Stub),
      Plan.ofDeclaration d speller.table = .ok plan → ofPlan comments speller plan = .ok stub →
      (∀ index p shape, d.parameters[index]? = some p → speller.table.lookup p.type = .ok shape →
        shape.isWide = true → shape.isImage = false → stub.PassesWide plan index p.name) ∧
      ∀ image, plan.returns = .registerPair image → stub.RepliesPair speller d.returnType image := by
  refine ⟨fun v => ⟨joinWords_splitWords v, Half.low_word v, ?_, ?_⟩, splitWords_joinWords, ?_⟩
  · exact ⟨(Half.low.word_mem v).1, Int.le_sub_one_of_lt (Half.low.word_mem v).2⟩
  · exact ⟨(Half.high.word_mem v).1, Int.le_sub_one_of_lt (Half.high.word_mem v).2⟩
  · intro comments speller d plan stub hplan hstub
    exact ⟨fun index p shape hp hshape hwide himage => passesWide hplan hstub hp hshape hwide himage,
      fun image hreturns => repliesPair hplan hstub hreturns⟩

/-! A function with a wide parameter behind one word, and a wide result: r1 stays free. -/

/-- `uint64_t clock_add(int rate, uint64_t ticks)`. -/
def clockAdd : Declaration :=
  { name := "clock_add", trapNumber := 0x21, returnType := .scalar ⟨"unsigned long long", 8, false, false⟩
    parameters := [⟨"rate", .scalar ⟨"int", 4, true, false⟩⟩,
      ⟨"ticks", .scalar ⟨"unsigned long long", 8, false, false⟩⟩]
    symbol := "0x21", origin := "a.h", line := 1, variadic := false, comment := none }

/-- The plan of `clockAdd`. -/
def clockPlan : Plan :=
  { declaration := clockAdd
    slots := [⟨0, .whole "rate" 0 .value⟩, ⟨2, .half "ticks" 1 .low false⟩, ⟨3, .half "ticks" 1 .high false⟩]
    returns := .registerPair false, padding := [1] }

theorem clockAdd_wideValues : ∃ stub, Plan.ofDeclaration clockAdd ⟨[], true⟩ = .ok clockPlan ∧
    ofPlan true (.ofTable ⟨[], true⟩) clockPlan = .ok stub ∧ stub.PassesWide clockPlan 1 "ticks" ∧
    stub.RepliesPair (.ofTable ⟨[], true⟩) clockAdd.returnType false := by
  have hplan : (Plan.ofDeclaration clockAdd ⟨[], true⟩).toOption = some clockPlan := by decide +kernel
  have hstub : (ofPlan true (.ofTable ⟨[], true⟩) clockPlan).toOption.isSome = true := by decide
  obtain ⟨stub, hstub⟩ := Option.isSome_iff_exists.1 hstub
  have hcross := wideValues_cross.2.2 true (.ofTable ⟨[], true⟩) clockAdd clockPlan stub (toOption_eq_some.1 hplan)
    (toOption_eq_some.1 hstub)
  have hticks : (⟨[], true⟩ : TypeTable).lookup (.scalar ⟨"unsigned long long", 8, false, false⟩) =
      .ok (.scalar ⟨"unsigned long long", 8, false, false⟩) := by
    rw [TypeTable.lookup, TypeTable.lookupFrom]
    rfl
  exact ⟨stub, toOption_eq_some.1 hplan, toOption_eq_some.1 hstub, hcross.1 1 _ _ rfl hticks rfl rfl, hcross.2 false rfl⟩

end Stub

end TrapStub
