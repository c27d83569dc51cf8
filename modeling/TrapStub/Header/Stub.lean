import TrapStub.Header.Speller
import TrapStub.Plan

/-!
# Stubs

A stub is an inline function that loads the planned registers, raises the trap and gives back what
the firmware left in r0 and r1. It is built as data first, then written.

* `WordExpr`: the C expression of one register word.
* `Stub.ofPlan`: the stub of a plan.
* `Stub.lines`: its text.
-/

namespace TrapStub

/-- A 64-bit C expression that words are taken from. -/
inductive WideExpr where
  /-- A parameter, converted to 64 bits. -/
  | value (parameter : Text)
  /-- The variable that holds the parameter's bytes. -/
  | image (parameter : Text)
  deriving DecidableEq, Repr

/-- The C expression that a register is loaded with. -/
inductive WordExpr where
  /-- The address of the variable for the result. -/
  | resultAddress
  /-- A parameter that is an address. -/
  | address (parameter : Text)
  /-- A parameter, converted to a word. -/
  | value (parameter : Text)
  /-- The variable that holds the parameter's bytes. -/
  | image (parameter : Text)
  /-- A word of a 64-bit expression. -/
  | half (half : Half) (whole : WideExpr)
  deriving DecidableEq, Repr

/-- The variable that holds the bytes of a parameter. -/
def imageName (parameter : Text) : Text := "__" ++ parameter ++ "_bits"

/-- The text of a 64-bit expression. -/
def WideExpr.text : WideExpr → Text
  | value parameter => "(uint64_t)(" ++ parameter ++ ")"
  | image parameter => imageName parameter

/-- The text of a register word. -/
def WordExpr.text : WordExpr → Text
  | resultAddress => "(uint32_t)(uintptr_t)&__result"
  | address parameter => "(uint32_t)(uintptr_t)(" ++ parameter ++ ")"
  | value parameter => "(uint32_t)(" ++ parameter ++ ")"
  | image parameter => imageName parameter
  | half .low whole => "(uint32_t)" ++ whole.text
  | half .high whole =>
    "(uint32_t)(" ++ whole.text ++ " >> " ++ Text.natural Half.high.shift ++ ")"

/-- The expression for what a register carries. -/
def Content.expr : Content → WordExpr
  | resultAddress => .resultAddress
  | whole parameter _ .value => .value parameter
  | whole parameter _ .address => .address parameter
  | whole parameter _ .image => .image parameter
  | half parameter _ h image => .half h (if image then .image parameter else .value parameter)

/-- A statement in front of the register variables. -/
inductive Preparation where
  /-- The declaration of the variable for the result. -/
  | result (declaration : Text)
  /-- The bytes of a parameter, copied into one word. -/
  | wordImage (parameter : Text)
  /-- The bytes of a parameter, copied into a double word. -/
  | wideImage (parameter : Text)
  deriving DecidableEq, Repr

/-- The lines of a preparation. -/
def Preparation.lines : Preparation → List Text
  | result declaration => [declaration ++ ";"]
  | wordImage parameter =>
    let bits := imageName parameter
    ["uint32_t " ++ bits ++ " = 0;",
     "__builtin_memcpy(&" ++ bits ++ ", &" ++ parameter ++ ", sizeof(" ++ parameter ++ "));"]
  | wideImage parameter =>
    let bits := imageName parameter
    ["uint64_t " ++ bits ++ ";",
     "__builtin_memcpy(&" ++ bits ++ ", &" ++ parameter ++ ", sizeof(" ++ bits ++ "));"]

/-- What a register's content needs before it can be loaded. The bytes of a 64-bit parameter are
copied once, for its low word. -/
def Content.preparation? : Content → Option Preparation
  | whole parameter _ .image => some (.wordImage parameter)
  | half parameter _ .low true => some (.wideImage parameter)
  | _ => none

/-- A variable that stands for a register, with the expression it is loaded with. -/
structure RegisterVariable where
  register : Nat
  initial : Option WordExpr
  deriving DecidableEq, Repr

namespace RegisterVariable

/-- The name of the variable for a register. -/
def nameOf (register : Nat) : Text := "__" ++ registerName register

/-- The operand of a variable: one that is loaded is read and written, any other only written. -/
def operand (v : RegisterVariable) : Text :=
  (if v.initial.isSome then ("\"+r\" (" : Text) else "\"=r\" (") ++ nameOf v.register ++ ")"

/-- The declaration of a variable. -/
def line (v : RegisterVariable) : Text :=
  "register uint32_t " ++ nameOf v.register ++ " __asm__(\"" ++ registerName v.register ++ "\")" ++
    (match v.initial with
      | none => []
      | some expr => " = " ++ expr.text) ++ ";"

end RegisterVariable

/-- Where a result comes from. -/
inductive ReplySource where
  | word
  | pair
  deriving DecidableEq, Repr

/-- The C expression of a source. -/
def ReplySource.text : ReplySource → Text
  | word => "__r0"
  | pair => "((uint64_t)__r1 << " ++ Text.natural Half.high.shift ++ ") | __r0"

/-- The statements that give the result back. -/
inductive Reply where
  /-- There is no result. -/
  | nothing
  /-- The variable that the firmware filled. -/
  | storage
  /-- An address, converted to the result's type. -/
  | address (type : Text)
  /-- A source, converted to the result's type. -/
  | value (type : Text) (source : ReplySource)
  /-- The bytes of a source, copied into a variable of the result's type. -/
  | image (declaration : Text) (source : ReplySource)
  deriving DecidableEq, Repr

/-- The lines of a reply. -/
def Reply.lines : Reply → List Text
  | nothing => []
  | storage => ["return __result;"]
  | address type => ["return (" ++ type ++ ")(uintptr_t)__r0;"]
  | value type .word => ["return (" ++ type ++ ")__r0;"]
  | value type .pair => ["return (" ++ type ++ ")(" ++ ReplySource.pair.text ++ ");"]
  | image declaration source =>
    let holder : Text := match source with
      | .word => "uint32_t"
      | .pair => "uint64_t"
    [holder ++ " __ret_bits = " ++ source.text ++ ";",
     declaration ++ ";",
     "__builtin_memcpy(&__ret, &__ret_bits, sizeof(__ret));",
     "return __ret;"]

/-- An inline function around a trap. -/
structure Stub where
  comment : List Text
  signature : Text
  preparations : List Preparation
  /-- The registers that are operands of the trap, ascending. -/
  registers : List RegisterVariable
  /-- The argument registers that are not operands. -/
  clobbered : List Nat
  trapNumber : Int
  reply : Reply
  deriving DecidableEq, Repr

namespace Stub

/-- What every trap may change besides the argument registers. -/
def alwaysClobbered : List Text := ["r12", "cc", "memory"]

/-- The registers that a plan loads or reads, ascending and each once. -/
def operandRegisters (plan : Plan) : List Nat :=
  ((plan.slots.map (·.register) ++ plan.resultRegisters).mergeSort (· ≤ ·)).eraseDups

/-- The expression that a plan loads a register with. -/
def initial? (plan : Plan) (register : Nat) : Option WordExpr :=
  (plan.slots.find? (·.register == register)).map (·.content.expr)

/-- The type of a plan's result, and a variable of that type without qualifiers. -/
def replyOf (speller : Speller) (plan : Plan) : Except Fault Reply :=
  let type := plan.declaration.returnType
  let cast := speller.declare 0 type []
  let holder := speller.declare 0 type.unqualified "__ret"
  match plan.returns with
  | .void => .ok .nothing
  | .storage => .ok .storage
  | .register .address => .address <$> cast
  | .register .value => return .value (← cast) .word
  | .register .image => return .image (← holder) .word
  | .registerPair false => return .value (← cast) .pair
  | .registerPair true => return .image (← holder) .pair

/-- The function's parameters and result as C declares them. -/
def signatureOf (speller : Speller) (d : Declaration) : Except Fault Text := do
  let parameters ← d.parameters.mapM fun p => speller.declare 0 p.type p.name
  let list := Text.join ", " parameters
  let list := if list.isEmpty then ("void" : Text) else list
  speller.declare 0 d.returnType (d.name ++ "(" ++ list ++ ")")

/-- The statements before the register variables, in slot order. -/
def preparationsOf (speller : Speller) (plan : Plan) : Except Fault (List Preparation) := do
  let result ← match plan.resultSlot? with
    | none => pure []
    | some _ => do
      let declared ← speller.declare 0 plan.declaration.returnType.unqualified "__result"
      pure [Preparation.result declared]
  return result ++ plan.slots.filterMap (·.content.preparation?)

/-- The stub of a plan. -/
def ofPlan (comments : Bool) (speller : Speller) (plan : Plan) : Except Fault Stub := do
  let signature ← signatureOf speller plan.declaration
  let preparations ← preparationsOf speller plan
  let reply ← replyOf speller plan
  let registers := operandRegisters plan
  return {
    comment := Header.commentLines comments plan.declaration.comment
    signature := signature
    preparations := preparations
    registers := registers.map fun register => ⟨register, initial? plan register⟩
    clobbered := (List.range argumentRegisters).filter (· ∉ registers)
    trapNumber := plan.declaration.trapNumber
    reply := reply }

/-- The text in double quotes. -/
def doubleQuoted (t : Text) : Text := "\"" ++ t ++ "\""

/-- The trap with its operands. -/
def trapLines (stub : Stub) : List Text :=
  let opening := Header.indent ++ "__asm__ __volatile__("
  let margin := Text.times opening.length " "
  let operands := Text.join ", " (stub.registers.map (·.operand))
  let clobbers := Text.join ", "
    ((stub.clobbered.map registerName ++ alwaysClobbered).map doubleQuoted)
  [opening ++ "\"svc #0x" ++ Text.hexByte stub.trapNumber ++ "\"",
   Text.stripEnd (margin ++ ": " ++ operands),
   margin ++ ":",
   margin ++ ": " ++ clobbers ++ ");"]

/-- The text of a stub, line by line. -/
def lines (stub : Stub) : List Text :=
  stub.comment ++
  [("static inline __attribute__((always_inline)) " ++ stub.signature : Text), "\x7b"] ++
  ((stub.preparations.flatMap Preparation.lines ++ stub.registers.map (·.line)).map
    (Header.indent ++ ·)) ++
  stub.trapLines ++
  stub.reply.lines.map (Header.indent ++ ·) ++
  [("\x7d" : Text)]

end Stub

end TrapStub
