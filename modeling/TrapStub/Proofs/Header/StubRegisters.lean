import Mathlib.Data.List.Permutation
import TrapStub.Alignment
import TrapStub.Proofs.Header.Loads
import TrapStub.Proofs.Header.Names

/-!
# The registers of a stub

A stub's operand list, clobber list, initial values and return statements are computed apart from
each other. `Stub.Consistent` says that they agree: with the plan, and among themselves.

* `Stub.returnLines`: the return statements, from the way of returning. `Stub.returnLines_avoids`: they
  name no register but those of the result.
* `Stub.Traps`, `Stub.linesWith`: the text of the trap; the text of a stub around it.
* `Stub.ofPlan_ok`: a plan has a stub if its types can be written.
* `Stub.ofPlan_consistent`: **such a plan has a stub, and it is consistent.**
-/

namespace TrapStub

open Text

variable {plan : Plan} {speller : Speller}

/-! ## Names of registers -/

theorem startsWith_eq_true {text stem : Text} : text.startsWith stem = true ↔ stem <+: text := by
  induction stem generalizing text with
  | nil => exact ⟨fun _ => List.nil_prefix, fun _ => rfl⟩
  | cons s stem ih =>
    cases text with
    | nil => simp [startsWith, after?]
    | cons g text =>
      rw [List.cons_prefix_cons, ← ih]
      by_cases hs : s = g <;> simp [startsWith, after?, hs]

/-- What stands in front of the first `g` is the same in equal texts. -/
theorem eq_of_append_cons_eq {g : Glyph} {a b s t : Text} (ha : g ∉ a) (hb : g ∉ b)
    (h : a ++ g :: s = b ++ g :: t) : a = b := by
  have hfirst : ∀ {c u : Text}, g ∉ c → (c ++ g :: u).takeWhile (· ≠ g) = c := by
    intro c u hc
    have hall : ∀ x ∈ c, decide (x ≠ g) = true := fun x hx => decide_eq_true fun e => hc (e ▸ hx)
    rw [List.takeWhile_append_of_pos hall]
    simp
  rw [← hfirst ha, h, hfirst hb]

namespace RegisterVariable

theorem nameOf_injective {m n : Nat} (h : nameOf m = nameOf n) : m = n :=
  natural_injective (List.append_cancel_left (List.append_cancel_left h))

/-- The operand of a variable holds the letter of its constraint and the variable's name. -/
theorem operand_identifiers (v : RegisterVariable) (h : v.register < 4) :
    identifiers v.operand = [("r" : Text), nameOf v.register] := by
  obtain ⟨r, initial⟩ := v
  have hall : ∀ mark ∈ [("\"+r\" (" : Text), "\"=r\" ("], ∀ r < 4,
      (∀ g ∈ mark ++ nameOf r ++ ")", g.code < 128) ∧
        asciiIdentifiers (mark ++ nameOf r ++ ")") = [("r" : Text), nameOf r] := by decide
  unfold operand
  cases initial with
  | none =>
    obtain ⟨hascii, hwords⟩ := hall _ (List.mem_cons_of_mem _ List.mem_cons_self) r h
    exact (identifiers_of_ascii hascii).trans hwords
  | some e =>
    obtain ⟨hascii, hwords⟩ := hall _ List.mem_cons_self r h
    exact (identifiers_of_ascii hascii).trans hwords

/-- The text of the line, with what stands behind the variable. -/
theorem line_eq (r : Nat) (initial : Option WordExpr) : line ⟨r, initial⟩ =
    ("register uint32_t __r" : Text) ++ Text.natural r ++ " __asm__(\"r" ++ Text.natural r ++ "\")" ++
      (initial.elim ([] : Text) fun expr => " = " ++ expr.text) ++ ";" := by
  unfold line nameOf registerName
  cases initial <;> simp only [List.append_assoc] <;> rfl

/-- The line declares the variable of a register. -/
def declares (register : Nat) (line : Text) : Bool :=
  line.startsWith ("register uint32_t " ++ nameOf register ++ " ")

theorem declares_line {r : Nat} {v : RegisterVariable} : declares r v.line = true ↔ v.register = r := by
  have hspace : ∀ n, Glyph.char ' ' ∉ Text.natural n := fun n h => by
    have := natural_digits n _ h
    revert this
    decide
  have hasm : (" __asm__(\"" : Text) = Glyph.char ' ' :: ("__asm__(\"" : Text) := by decide
  have hend : (" " : Text) = [Glyph.char ' '] := by decide
  unfold declares line nameOf registerName
  rw [startsWith_eq_true, hasm, hend]
  -- both texts open with the type and the stem of the name; the number and a space follow
  simp only [List.append_assoc, List.prefix_append_right_inj, List.cons_append]
  constructor
  · rintro ⟨t, ht⟩
    rw [List.append_assoc] at ht
    exact (natural_injective (eq_of_append_cons_eq (hspace r) (hspace v.register) ht)).symm
  · rintro rfl
    exact ⟨_, List.append_assoc _ _ _⟩

end RegisterVariable

/-! ## Return statements -/

namespace CType

theorem spellings_unqualified (t : CType) : t.unqualified.spellings = t.spellings := by
  induction t using unqualified.induct with
  | case1 base const volatile ih => rw [unqualified, ih]; rfl
  | case2 t ht =>
    rw [unqualified]
    exact ht

end CType

theorem Speller.namesOf_unqualified (t : CType) : speller.namesOf t.unqualified = speller.namesOf t := by
  unfold Speller.namesOf Speller.plainKeys
  rw [CType.keys_unqualified, CType.spellings_unqualified]

namespace Stub

/-- The statements that give a result back, where the result has a type with this text and a variable of
that type this declaration. -/
def returnLines (type holder : Text) : Return → List Text
  | .void => []
  | .storage => ["return __result;"]
  | .register .address => ["return (" ++ type ++ ")(uintptr_t)__r0;"]
  | .register .value => ["return (" ++ type ++ ")__r0;"]
  | .register .image =>
    ["uint32_t __ret_bits = __r0;", holder ++ ";", "__builtin_memcpy(&__ret, &__ret_bits, sizeof(__ret));",
     "return __ret;"]
  | .registerPair false => ["return (" ++ type ++ ")(((uint64_t)__r1 << 32) | __r0);"]
  | .registerPair true =>
    ["uint64_t __ret_bits = ((uint64_t)__r1 << 32) | __r0;", holder ++ ";",
     "__builtin_memcpy(&__ret, &__ret_bits, sizeof(__ret));", "return __ret;"]

/-- **The text of a reply.** -/
theorem replyOf_lines {reply : Reply} {type holder : Text} (h : replyOf speller plan = .ok reply)
    (htype : speller.declare 0 plan.declaration.returnType [] = .ok type)
    (hholder : speller.declare 0 plan.declaration.returnType.unqualified "__ret" = .ok holder) :
    reply.lines = returnLines type holder plan.returns := by
  unfold replyOf at h
  dsimp only at h
  rw [htype, hholder] at h
  cases hr : plan.returns with
  | void => rw [hr] at h; cases h; rfl
  | storage => rw [hr] at h; cases h; rfl
  | register carriage => rw [hr] at h; cases carriage <;> cases h <;> rfl
  | registerPair image =>
    rw [hr] at h
    cases image with
    | false =>
      obtain rfl := Except.ok.inj h
      have hend : (")(" ++ (ReplySource.pair.text ++ ");") : Text) = ")(((uint64_t)__r1 << 32) | __r0);" := by decide
      rw [Reply.lines, returnLines, List.append_assoc, List.append_assoc, hend]
    | true => cases h; rfl

/-- The name of a register that does not hold the result, unless one of some other names holds it. -/
def Foreign (plan : Plan) (others : List Text) (w : Text) : Prop :=
  ∃ r, w = RegisterVariable.nameOf r ∧ r ∉ plan.resultRegisters ∧
    ∀ n ∈ others, RegisterVariable.nameOf r ∉ identifiers n

variable {others : List Text}

/-- The text begins and goes on like the name of a register. -/
def isRegisterLike (w : Text) : Bool := w.startsWith "__r" && (w.drop 3).all Glyph.isAsciiDigit

theorem isRegisterLike_nameOf (r : Nat) : isRegisterLike (RegisterVariable.nameOf r) = true := by
  unfold isRegisterLike
  rw [Bool.and_eq_true, startsWith_eq_true, List.all_eq_true]
  exact ⟨⟨Text.natural r, rfl⟩, natural_digits r⟩

theorem register_prefix_of_foreign (w : Text) (h : Foreign plan others w) : ("__r" : Text) <+: w := by
  obtain ⟨r, rfl, -, -⟩ := h
  exact ⟨Text.natural r, rfl⟩

/-- An ASCII text avoids the other registers if it names those of the result only. -/
theorem foreign_avoids {l : List Nat} (hl : ∀ r ∈ l, r ∈ plan.resultRegisters) {t : Text}
    (hascii : ∀ g ∈ t, g.code < 128)
    (ht : ∀ w ∈ asciiIdentifiers t, isRegisterLike w = false ∨ w ∈ l.map RegisterVariable.nameOf) :
    Avoids (Foreign plan others) t := by
  rintro w hw ⟨r, rfl, hr, -⟩
  rw [identifiers_of_ascii hascii] at hw
  rcases ht _ hw with hlike | hmem
  · rw [isRegisterLike_nameOf] at hlike; cases hlike
  · obtain ⟨s, hs, he⟩ := List.mem_map.1 hmem
    rw [RegisterVariable.nameOf_injective he] at hs
    exact hr (hl r hs)

/-- A declaration with the result's type avoids the other registers if its name does. -/
theorem declare_result_avoids {name text : Text} {t : CType} (h : speller.declare 0 t name = .ok text)
    (hn : ∀ n ∈ speller.namesOf t, Avoids (("__" : Text) <+: ·) n)
    (hname : Avoids (Foreign plan speller.innerNames) name) : Avoids (Foreign plan speller.innerNames) text := by
  refine Speller.declare_avoids register_prefix_of_foreign h ?_ ?_ hname
  · intro n hmem w hw hforeign
    exact hn n hmem w hw ((List.prefix_append ("__" : Text) "r").trans (register_prefix_of_foreign w hforeign))
  · rintro n hmem w hw ⟨r, rfl, -, hinner⟩
    exact hinner n hmem hw

/-- A conversion to the result's type in front of what is returned. -/
theorem cast_avoids {type source : Text} (ht : Avoids (Foreign plan others) type)
    (hs : Avoids (Foreign plan others) source) :
    Avoids (Foreign plan others) ("return (" ++ type ++ Glyph.char ')' :: source) := by
  have hreturn : Avoids (Foreign plan others) "return" :=
    foreign_avoids (l := []) nofun (by decide) (by decide)
  show Avoids (Foreign plan others) ("return" ++ " (" ++ type ++ Glyph.char ')' :: source)
  exact (hreturn.append_append (apart (by decide)) (by decide) ht).append_cons (isWord_of_apart (by decide)) hs

/-- The bytes of a source, copied into the result's type and returned. -/
theorem image_avoids {source holder : Text} (hs : Avoids (Foreign plan others) source)
    (hh : Avoids (Foreign plan others) holder) : ∀ line ∈ [source, holder ++ ";",
      ("__builtin_memcpy(&__ret, &__ret_bits, sizeof(__ret));" : Text), "return __ret;"],
      Avoids (Foreign plan others) line := by
  simp only [List.forall_mem_cons, List.not_mem_nil, false_imp_iff, implies_true, and_true]
  refine ⟨hs, hh.append_cons (g := .char ';') (isWord_of_apart (by decide)) avoids_nil, ?_, ?_⟩
  · exact foreign_avoids (l := []) nofun (by decide) (by decide)
  · exact foreign_avoids (l := []) nofun (by decide) (by decide)

/-- **The return statements name no register but those of the result**, if the type and the declaration do
not. -/
theorem returnLines_avoids {type holder : Text} (ht : Avoids (Foreign plan others) type)
    (hh : Avoids (Foreign plan others) holder) :
    ∀ line ∈ returnLines type holder plan.returns, Avoids (Foreign plan others) line := by
  cases hr : plan.returns with
  | void => nofun
  | storage =>
    intro line hl
    rw [List.mem_singleton.1 hl]
    exact foreign_avoids (l := []) nofun (by decide) (by decide)
  | register carriage =>
    have hres : ∀ r ∈ [0], r ∈ plan.resultRegisters := by rw [Plan.resultRegisters, hr]; simp
    cases carriage with
    | address =>
      intro line hl
      rw [List.mem_singleton.1 hl]
      exact cast_avoids ht (foreign_avoids hres (by decide) (by decide))
    | value =>
      intro line hl
      rw [List.mem_singleton.1 hl]
      exact cast_avoids ht (foreign_avoids hres (by decide) (by decide))
    | image => exact image_avoids (foreign_avoids hres (by decide) (by decide)) hh
  | registerPair image =>
    -- both registers hold a part of the result
    have hres : ∀ r ∈ [0, 1], r ∈ plan.resultRegisters := by rw [Plan.resultRegisters, hr]; simp
    cases image with
    | false =>
      intro line hl
      rw [List.mem_singleton.1 hl]
      exact cast_avoids ht (foreign_avoids hres (by decide) (by decide))
    | true => exact image_avoids (foreign_avoids hres (by decide) (by decide)) hh

/-- With the texts of the type they name none either, but for what is called so inside an anonymous body. -/
theorem returned_avoids {type holder : Text}
    (htype : speller.declare 0 plan.declaration.returnType [] = .ok type)
    (hholder : speller.declare 0 plan.declaration.returnType.unqualified "__ret" = .ok holder)
    (hn : ∀ n ∈ speller.namesOf plan.declaration.returnType, Avoids (("__" : Text) <+: ·) n) :
    ∀ line ∈ returnLines type holder plan.returns, Avoids (Foreign plan speller.innerNames) line :=
  returnLines_avoids (declare_result_avoids htype hn avoids_nil)
    (declare_result_avoids hholder (by rwa [Speller.namesOf_unqualified])
      (foreign_avoids (l := []) nofun (by decide) (by decide)))

/-! ## Stubs -/

/-- **When a plan has a stub, and which.** -/
theorem ofPlan_eq_ok {comments : Bool} {stub : Stub} : ofPlan comments speller plan = .ok stub ↔
    ∃ signature preparations reply, signatureOf speller plan.declaration = .ok signature ∧
      preparationsOf speller plan = .ok preparations ∧ replyOf speller plan = .ok reply ∧
      stub =
        { comment := Header.commentLines comments plan.declaration.comment
          signature := signature
          preparations := preparations
          registers := (operandRegisters plan).map fun r => ⟨r, initial? plan r⟩
          clobbered := (List.range argumentRegisters).filter (· ∉ operandRegisters plan)
          trapNumber := plan.declaration.trapNumber
          reply := reply } := by
  unfold ofPlan
  simp only [bind_eq_ok, pure_eq_ok]
  constructor
  · rintro ⟨signature, hs, preparations, hp, reply, hr, h⟩
    exact ⟨signature, preparations, reply, hs, hp, hr, h.symm⟩
  · rintro ⟨signature, preparations, reply, hs, hp, hr, h⟩
    exact ⟨signature, hs, preparations, hp, reply, hr, h.symm⟩

theorem signatureOf_ok (hw : speller.table.Writable) (d : Declaration) :
    ∃ signature, signatureOf speller d = .ok signature := by
  have hparameters : ∀ p ∈ d.parameters, ∃ text, speller.declare 0 p.type p.name = .ok text :=
    fun p _ => Speller.declare_ok hw 0 p.type p.name
  obtain ⟨texts, ht⟩ := mapM_ok hparameters
  unfold signatureOf
  rw [ht]
  exact Speller.declare_ok hw 0 d.returnType _

/-- The statements in front of the variables: the variable for a result in memory, and those of the
slots. -/
theorem preparationsOf_ok (hw : speller.table.Writable) (plan : Plan) :
    ∃ text, speller.declare 0 plan.declaration.returnType.unqualified "__result" = .ok text ∧
      preparationsOf speller plan = .ok
        ((if plan.resultSlot?.isSome then [Preparation.result text] else []) ++
          plan.slots.filterMap (·.content.preparation?)) := by
  obtain ⟨text, ht⟩ := Speller.declare_ok hw 0 plan.declaration.returnType.unqualified "__result"
  refine ⟨text, ht, ?_⟩
  unfold preparationsOf
  cases plan.resultSlot? with
  | none => rfl
  | some slot => rw [ht]; rfl

theorem replyOf_ok (hw : speller.table.Writable) (plan : Plan) : ∃ reply, replyOf speller plan = .ok reply := by
  obtain ⟨cast, hc⟩ := Speller.declare_ok hw 0 plan.declaration.returnType []
  obtain ⟨holder, hh⟩ := Speller.declare_ok hw 0 plan.declaration.returnType.unqualified "__ret"
  simp only [replyOf, hc, hh]
  cases plan.returns with
  | void => exact ⟨_, rfl⟩
  | storage => exact ⟨_, rfl⟩
  | register carriage => cases carriage <;> exact ⟨_, rfl⟩
  | registerPair image => cases image <;> exact ⟨_, rfl⟩

/-- **A plan has a stub if its types can be written.** -/
theorem ofPlan_ok (comments : Bool) (hw : speller.table.Writable) (plan : Plan) :
    ∃ stub, ofPlan comments speller plan = .ok stub := by
  obtain ⟨signature, hs⟩ := signatureOf_ok hw plan.declaration
  obtain ⟨_, -, hp⟩ := preparationsOf_ok hw plan
  obtain ⟨reply, hr⟩ := replyOf_ok hw plan
  exact ⟨_, ofPlan_eq_ok.2 ⟨signature, _, reply, hs, hp, hr, rfl⟩⟩

/-- The registers that are operands of the trap. -/
def operands (stub : Stub) : List Nat := stub.registers.map (·.register)

/-- The operand of a register: read and written if it is loaded, else only written. -/
def operandOf (loaded : List Nat) (r : Nat) : Text :=
  (if r ∈ loaded then ("\"+r\" (__" : Text) else "\"=r\" (__") ++ registerName r ++ ")"

/-- The number that hexadecimal digits spell. -/
def hexValue? (digits : Text) : Option Nat :=
  (digits.mapM Alignment.hexDigit?).map fun values => values.foldl (fun n d => n * 16 + d) 0

/-- A variable is read as well as written just if a slot loads it. -/
theorem operand_eq (r : Nat) : RegisterVariable.operand ⟨r, initial? plan r⟩ =
    operandOf (plan.slots.map (·.register)) r := by
  unfold RegisterVariable.operand operandOf
  by_cases hr : r ∈ plan.slots.map (·.register)
  · rw [if_pos hr, if_pos (initial?_isSome.2 hr)]; rfl
  · rw [if_neg hr, if_neg (fun hs => hr (initial?_isSome.1 hs))]; rfl

theorem hexByte_reads : ∀ n < 256, (Text.hexByte (Int.ofNat n)).length = 2 ∧
    hexValue? (Text.hexByte (Int.ofNat n)) = some n := by
  decide +kernel

/-- The trap of a stub names a number, the operands and what it clobbers, behind a margin of spaces. -/
def Traps (stub : Stub) (number : Int) : Prop :=
  ∃ digits margin : Text, digits.length = 2 ∧ (∀ g ∈ margin, g = .char ' ') ∧
    (hexValue? digits).map Int.ofNat = some number ∧
    stub.trapLines =
      [("    __asm__ __volatile__(\"svc #0x" ++ digits ++ "\"" : Text),
       Text.stripEnd (margin ++ ": " ++ Text.join ", " (stub.registers.map (·.operand))),
       margin ++ ":",
       margin ++ ": " ++ Text.join ", " (stub.clobbered.map (fun r => "\"" ++ registerName r ++ "\"") ++
         [("\"r12\"" : Text), "\"cc\"", "\"memory\""]) ++ ");"]

/-- The text of a stub with some statements in front of its register variables: behind the variables there are
only the trap and the reply. -/
def linesWith (stub : Stub) (statements : List Text) : List Text :=
  stub.comment ++ [("static inline __attribute__((always_inline)) " ++ stub.signature : Text), "\x7b"] ++
    (statements ++ stub.registers.map (·.line)).map (Header.indent ++ ·) ++
    stub.trapLines ++ stub.reply.lines.map (Header.indent ++ ·) ++ [("\x7d" : Text)]

/-- The registers of a stub agree with its plan and among themselves. -/
structure Consistent (stub : Stub) (speller : Speller) (plan : Plan) : Prop where
  /-- Each operand has a variable, which is loaded with what its slot names or with nothing. -/
  variableLines : List.Forall₂ (plan.VariableLine speller.table) stub.operands (stub.registers.map (·.line))
  /-- No register is loaded for two slots. -/
  slots : (plan.slots.map (·.register)).Nodup
  /-- The operands are in ascending order, so each of them is there once. -/
  ascending : stub.operands.Pairwise (· < ·)
  mem_operands : ∀ r, r ∈ stub.operands ↔ r ∈ plan.slots.map (·.register) ∨ r ∈ plan.resultRegisters
  operand : stub.registers.map (·.operand) = stub.operands.map (operandOf (plan.slots.map (·.register)))
  /-- Each argument register is either an operand or clobbered, and no other register is. -/
  clobbered_iff : ∀ r < 4, r ∈ stub.clobbered ↔ r ∉ stub.operands
  register_lt : ∀ r ∈ stub.operands ++ stub.clobbered, r < 4
  clobbered_nodup : stub.clobbered.Nodup
  /-- The return statements are those of the way of returning, around the type of the result. -/
  returned : ∃ type holder, speller.declare 0 plan.declaration.returnType [] = .ok type ∧
    speller.declare 0 plan.declaration.returnType.unqualified "__ret" = .ok holder ∧
    stub.reply.lines = returnLines type holder plan.returns
  /-- A register that an operand names, or a return statement around the type, has one variable. -/
  declared : ∀ text ∈ stub.registers.map (·.operand) ++ returnLines [] [] plan.returns, ∀ r,
    RegisterVariable.nameOf r ∈ identifiers text →
    (stub.registers.map (·.line)).countP (RegisterVariable.declares r) = 1
  /-- With the type, a return statement names no further one, unless an anonymous body has a member or an
  enumerator with a register's name. -/
  declared_type : ∀ line ∈ stub.reply.lines, ∀ r, RegisterVariable.nameOf r ∈ identifiers line →
    (stub.registers.map (·.line)).countP (RegisterVariable.declares r) = 1 ∨
      ∃ n ∈ speller.innerNames, RegisterVariable.nameOf r ∈ identifiers n
  /-- The bytes of parameters are copied in front of the register variables. -/
  written : ∃ result copies,
    speller.declare 0 plan.declaration.returnType.unqualified "__result" = .ok result ∧
    Plan.CopiesOf speller.table plan.declaration.parameters copies ∧
    stub.lines = stub.linesWith ((if plan.returns = .storage then [result ++ ";"] else []) ++ copies.flatten)
  /-- The trap names its number, its operands and what it clobbers. -/
  trap : stub.Traps plan.declaration.trapNumber

section Consistency

variable {stub : Stub} {comments : Bool} {a : Allocation} {chunks : List (List Slot)}

theorem operands_eq (h : ofPlan comments speller plan = .ok stub) : stub.operands = operandRegisters plan := by
  obtain ⟨_, _, _, -, -, -, rfl⟩ := ofPlan_eq_ok.1 h
  unfold operands
  rw [List.map_map]
  exact List.map_id _

theorem registers_eq (h : ofPlan comments speller plan = .ok stub) :
    stub.registers = stub.operands.map fun r => ⟨r, initial? plan r⟩ := by
  rw [operands_eq h]
  obtain ⟨_, _, _, -, -, -, rfl⟩ := ofPlan_eq_ok.1 h
  rfl

theorem clobbered_eq (h : ofPlan comments speller plan = .ok stub) :
    stub.clobbered = (List.range 4).filter (· ∉ stub.operands) := by
  rw [operands_eq h]
  obtain ⟨_, _, _, -, -, -, rfl⟩ := ofPlan_eq_ok.1 h
  rfl

/-- Each operand is declared by one line. -/
theorem count_declares (h : ofPlan comments speller plan = .ok stub) {r : Nat} (hr : r ∈ stub.operands) :
    (stub.registers.map (·.line)).countP (RegisterVariable.declares r) = 1 := by
  have hline : ∀ v ∈ stub.registers, (RegisterVariable.declares r v.line = true ↔ (v.register == r) = true) :=
    fun v _ => RegisterVariable.declares_line.trans beq_iff_eq.symm
  have hnodup : stub.operands.Nodup := by
    rw [operands_eq h]; exact (operandRegisters_ascending plan).imp Nat.ne_of_lt
  calc (stub.registers.map (·.line)).countP (RegisterVariable.declares r)
      = stub.registers.countP (fun v => v.register == r) := by
        rw [List.countP_map]; exact List.countP_congr hline
    _ = stub.operands.count r := by rw [operands, List.count, List.countP_map]; rfl
    _ = 1 := List.count_eq_one_of_mem hnodup hr

/-- A register that an operand names is one. -/
theorem mem_operands_of_operand (h : ofPlan comments speller plan = .ok stub) (hb : plan.Built speller.table a chunks)
    {v : RegisterVariable} (hv : v ∈ stub.registers) {r : Nat}
    (hr : RegisterVariable.nameOf r ∈ identifiers v.operand) : r ∈ stub.operands := by
  have hmem : v.register ∈ stub.operands := List.mem_map_of_mem hv
  have hlt : v.register < 4 := operandRegisters_lt hb (operands_eq h ▸ hmem)
  rw [v.operand_identifiers hlt] at hr
  rcases List.mem_cons.1 hr with hr | hr
  · exact absurd hr (by unfold RegisterVariable.nameOf; nofun)
  · rwa [RegisterVariable.nameOf_injective (List.mem_singleton.1 hr)]

/-- A register that a text names is an operand, if the text avoids those that do not hold the result. -/
theorem mem_operands_of_avoids (h : ofPlan comments speller plan = .ok stub) {text : Text}
    (havoid : Avoids (Foreign plan others) text) {r : Nat} (hr : RegisterVariable.nameOf r ∈ identifiers text)
    (hothers : ∀ n ∈ others, RegisterVariable.nameOf r ∉ identifiers n) : r ∈ stub.operands := by
  rw [operands_eq h, mem_operandRegisters]
  by_cases hres : r ∈ plan.resultRegisters
  · exact Or.inr hres
  · exact absurd ⟨r, rfl, hres, hothers⟩ (havoid _ hr)

/-- **Each operand's variable is loaded with what the plan says.** -/
theorem variableLine (hb : plan.Built speller.table a chunks) (r : Nat) :
    plan.VariableLine speller.table r (RegisterVariable.line ⟨r, initial? plan r⟩) := by
  refine ⟨_, RegisterVariable.line_eq r _, ?_⟩
  by_cases hr : r ∈ plan.slots.map (·.register)
  · obtain ⟨slot, hs, rfl⟩ := List.mem_map.1 hr
    rw [initial?_slot (hb.ascending.imp Nat.ne_of_lt) hs]
    exact .inl ⟨slot, hs, rfl, _, hb.loads hs, rfl⟩
  · have hnone : initial? plan r = none := by
      rwa [← Option.not_isSome_iff_eq_none, initial?_isSome]
    rw [hnone]
    exact .inr ⟨hr, rfl⟩

/-- **The text of a stub**, from what it is built of. -/
theorem lines_eq (h : ofPlan comments speller plan = .ok stub) (hw : speller.table.Writable)
    (hb : plan.Built speller.table a chunks) : ∃ result copies,
      speller.declare 0 plan.declaration.returnType.unqualified "__result" = .ok result ∧
      Plan.CopiesOf speller.table plan.declaration.parameters copies ∧
      stub.lines = stub.linesWith ((if plan.returns = .storage then [result ++ ";"] else []) ++ copies.flatten) := by
  obtain ⟨result, hresult, hok⟩ := preparationsOf_ok hw plan
  obtain ⟨copies, hcopies, hflat⟩ := hb.copies
  refine ⟨result, copies, hresult, hcopies, ?_⟩
  obtain ⟨_, preparations, _, -, hp, -, rfl⟩ := ofPlan_eq_ok.1 h
  obtain rfl := Except.ok.inj (hok.symm.trans hp)
  -- the result has a variable of its own just if it is in memory
  have hstorage : plan.resultSlot?.isSome = true ↔ plan.returns = .storage := by
    rw [← hb.storage_iff, Plan.resultSlot?, List.find?_isSome]
    simp only [beq_iff_eq]
  have hflat' : ((if plan.resultSlot?.isSome then [Preparation.result result] else []) ++
      plan.slots.filterMap (·.content.preparation?)).flatMap Preparation.lines =
      (if plan.returns = .storage then [result ++ ";"] else []) ++ copies.flatten := by
    rw [List.flatMap_append, hflat]
    by_cases hr : plan.returns = .storage
    · rw [if_pos hr, if_pos (hstorage.2 hr)]; rfl
    · rw [if_neg hr, if_neg (fun hs => hr (hstorage.1 hs))]; rfl
  unfold lines linesWith
  rw [hflat']

/-- The text of the trap. -/
theorem traps (stub : Stub) (h0 : 0 ≤ stub.trapNumber) (h255 : stub.trapNumber ≤ 255) :
    stub.Traps stub.trapNumber := by
  obtain ⟨n, hn⟩ := Int.eq_ofNat_of_zero_le h0
  have hreads := hexByte_reads n (by omega)
  refine ⟨Text.hexByte stub.trapNumber, Text.times 25 " ", ?_, by decide, ?_, ?_⟩
  · rw [hn]; exact hreads.1
  · rw [hn]
    exact congrArg (Option.map Int.ofNat) hreads.2
  · have hquoted : ∀ l : List Nat, (l.map registerName ++ alwaysClobbered).map doubleQuoted =
        l.map (fun r => "\"" ++ registerName r ++ "\"") ++ [("\"r12\"" : Text), "\"cc\"", "\"memory\""] := by
      intro l
      rw [List.map_append, List.map_map]
      rfl
    unfold trapLines
    rw [hquoted]
    rfl

/-- **A plan whose types can be written has a stub, and the stub is consistent**: its operands, its
clobbered registers, its initial values and its return statements agree. -/
theorem ofPlan_consistent {d : Declaration} (comments : Bool) (hw : speller.table.Writable)
    (hplan : Plan.ofDeclaration d speller.table = .ok plan) (h0 : 0 ≤ d.trapNumber)
    (h255 : d.trapNumber ≤ 255)
    (hn : ∀ n ∈ speller.namesOf d.returnType, Avoids (("__" : Text) <+: ·) n) :
    ∃ stub, ofPlan comments speller plan = .ok stub ∧ stub.Consistent speller plan := by
  obtain ⟨rfl, a, chunks, hb⟩ := Plan.ofDeclaration_built hplan
  obtain ⟨stub, h⟩ := ofPlan_ok comments hw plan
  obtain ⟨type, htype⟩ := Speller.declare_ok hw 0 plan.declaration.returnType []
  obtain ⟨holder, hholder⟩ := Speller.declare_ok hw 0 plan.declaration.returnType.unqualified "__ret"
  have hops := operands_eq h
  have hreturned : stub.reply.lines = returnLines type holder plan.returns := by
    obtain ⟨_, _, reply, -, -, hreply, rfl⟩ := ofPlan_eq_ok.1 h
    exact replyOf_lines hreply htype hholder
  have htrap : stub.trapNumber = plan.declaration.trapNumber := by
    obtain ⟨_, _, _, -, -, -, rfl⟩ := ofPlan_eq_ok.1 h
    rfl
  refine ⟨stub, h, ?_⟩
  constructor
  case variableLines =>
    rw [registers_eq h, List.map_map, List.forall₂_map_right_iff, List.forall₂_same]
    exact fun r _ => variableLine hb r
  case slots => exact hb.ascending.imp Nat.ne_of_lt
  case ascending => rw [hops]; exact operandRegisters_ascending plan
  case mem_operands => intro r; rw [hops]; exact mem_operandRegisters
  case operand =>
    rw [registers_eq h, List.map_map]
    exact List.map_congr_left fun r _ => operand_eq r
  case clobbered_iff =>
    intro r hr
    rw [clobbered_eq h, List.mem_filter, List.mem_range, decide_eq_true_eq]
    exact ⟨fun hc => hc.2, fun hc => ⟨hr, hc⟩⟩
  case register_lt =>
    intro r hr
    rcases List.mem_append.1 hr with hr | hr
    · exact operandRegisters_lt hb (hops ▸ hr)
    · rw [clobbered_eq h, List.mem_filter, List.mem_range] at hr
      exact hr.1
  case clobbered_nodup => rw [clobbered_eq h]; exact List.nodup_range.filter _
  case returned => exact ⟨type, holder, htype, hholder, hreturned⟩
  case declared =>
    intro text ht r hr
    refine count_declares h ?_
    rcases List.mem_append.1 ht with ht | ht
    · obtain ⟨v, hv, rfl⟩ := List.mem_map.1 ht
      exact mem_operands_of_operand h hb hv hr
    · exact mem_operands_of_avoids h (returnLines_avoids avoids_nil avoids_nil text ht) hr
        (List.forall_mem_nil _)
  case declared_type =>
    intro line hl r hr
    rw [hreturned] at hl
    by_cases hinner : ∃ n ∈ speller.innerNames, RegisterVariable.nameOf r ∈ identifiers n
    · exact .inr hinner
    · exact .inl (count_declares h (mem_operands_of_avoids h (returned_avoids htype hholder hn line hl) hr
        fun n hmem hname => hinner ⟨n, hmem, hname⟩))
  case written => exact lines_eq h hw hb
  case trap =>
    rw [← htrap] at h0 h255 ⊢
    exact traps stub h0 h255

end Consistency

/-! The result of `timeGet` is in memory and its parameter is wide: r0, r2 and r3 are loaded, and r1,
the padding, is clobbered. -/

theorem timePlan_consistent :
    Plan.ofDeclaration Plan.timeGet ⟨[.record Plan.timeRecord], true⟩ = .ok Plan.timePlan ∧
      ∃ stub, ofPlan true (.ofTable ⟨[.record Plan.timeRecord], true⟩) Plan.timePlan = .ok stub ∧
        stub.Consistent (.ofTable ⟨[.record Plan.timeRecord], true⟩) Plan.timePlan ∧
        stub.registers.map (·.line) =
          [("register uint32_t __r0 __asm__(\"r0\") = (uint32_t)(uintptr_t)&__result;" : Text),
           "register uint32_t __r2 __asm__(\"r2\") = (uint32_t)(uint64_t)(offset);",
           "register uint32_t __r3 __asm__(\"r3\") = (uint32_t)((uint64_t)(offset) >> 32);"] ∧
        stub.clobbered = [1] ∧ stub.reply.lines = [("return __result;" : Text)] := by
  have hplan : Plan.ofDeclaration Plan.timeGet ⟨[.record Plan.timeRecord], true⟩ = .ok Plan.timePlan :=
    toOption_eq_some.1 (by decide +kernel)
  have hnamed : ∀ key r, (⟨[.record Plan.timeRecord], true⟩ : TypeTable).get? key = some (.record r) →
      r.anonymous = false := by
    intro key r h
    have hmem := List.mem_of_find?_eq_some h
    rw [List.mem_singleton, TypeDef.record.injEq] at hmem
    rw [hmem]
    rfl
  have hw : TypeTable.Writable ⟨[.record Plan.timeRecord], true⟩ := by
    constructor
    · intro key r h ha
      rw [hnamed key r h] at ha; cases ha
    · intro key h
      obtain ⟨inner, ⟨r, -, hr, ha, -⟩, -⟩ := Relation.TransGen.head'_iff.1 h
      rw [hnamed key r hr] at ha; cases ha
  have hnames : ∀ n ∈ (Speller.ofTable ⟨[.record Plan.timeRecord], true⟩).namesOf Plan.timeGet.returnType,
      Avoids (("__" : Text) <+: ·) n := by
    unfold Avoids
    decide +kernel
  obtain ⟨stub, hstub, hconsistent⟩ := ofPlan_consistent true hw hplan (by decide) (by decide) hnames
  obtain ⟨_, _, _, _, hreply⟩ := hconsistent.returned
  have hoperands : stub.operands = [0, 2, 3] := (operands_eq hstub).trans (by cbv)
  refine ⟨hplan, stub, hstub, hconsistent, ?_, ?_, hreply⟩
  · rw [registers_eq hstub, hoperands]
    decide +kernel
  · rw [clobbered_eq hstub, hoperands]
    decide

end Stub

end TrapStub
