import TrapStub.Declaration
import TrapStub.Word

/-!
# Register plans

How the arguments of one trap are laid out in the registers r0 to r3, and how its result comes
back.

* `Slot`: one register with what it carries.
* `Plan`: the slots of a declaration, its padding registers and the way of its result.
* `Plan.describe`: a plan on one line.
-/

namespace TrapStub

/-- How many registers carry arguments. -/
def argumentRegisters : Nat := 4

/-- The assembler's name of a register. -/
def registerName (index : Nat) : Text := "r" ++ Text.natural index

/-- What a register that stands for a whole value holds. -/
inductive Carriage where
  /-- The value, converted to a word. -/
  | value
  /-- An address. -/
  | address
  /-- The bytes of the value in memory, as for floating and small composite types. -/
  | image
  deriving DecidableEq, Repr

/-- What a register carries into the trap. -/
inductive Content where
  /-- The address of the caller's storage for a composite result. -/
  | resultAddress
  /-- A parameter that fits one register. -/
  | whole (parameter : Text) (index : Nat) (carriage : Carriage)
  /-- One word of a 64-bit parameter, taken from its value or from its bytes in memory. -/
  | half (parameter : Text) (index : Nat) (half : Half) (image : Bool)
  deriving DecidableEq, Repr

namespace Content

/-- The parameter a register belongs to. -/
def parameter? : Content → Option Text
  | resultAddress => none
  | whole parameter _ _ => some parameter
  | half parameter _ _ _ => some parameter

/-- The position of that parameter in the declaration. -/
def index? : Content → Option Nat
  | resultAddress => none
  | whole _ index _ => some index
  | half _ index _ _ => some index

/-- The word of a 64-bit parameter. -/
def half? : Content → Option Half
  | half _ _ h _ => some h
  | _ => none

/-- The kind of content in summaries. -/
def kindName : Content → Text
  | resultAddress => "hidden-return"
  | whole _ _ .address => "reference"
  | _ => "value"

end Content

/-- A register and what it carries. -/
structure Slot where
  register : Nat
  content : Content
  deriving DecidableEq, Repr

/-- How a result leaves the trap. -/
inductive Return where
  | void
  /-- In r0. -/
  | register (carriage : Carriage)
  /-- In r0 and r1, low word first. -/
  | registerPair (image : Bool)
  /-- Through the address in r0. -/
  | storage
  deriving DecidableEq, Repr

/-- The name of a way of returning. -/
def Return.name : Return → Text
  | void => "void"
  | register _ => "register"
  | registerPair _ => "register-pair"
  | storage => "hidden-pointer"

/-- The register assignment of one declaration. -/
structure Plan where
  declaration : Declaration
  slots : List Slot
  returns : Return
  /-- Registers left free so that a register pair starts at an even one. -/
  padding : List Nat
  deriving DecidableEq, Repr

/-- The texts of halves in summaries. -/
def Half.name : Half → Text
  | low => "low"
  | high => "high"

namespace Plan

/-- One more than the highest register that a slot or padding takes. -/
def registerCount (plan : Plan) : Nat :=
  (plan.slots.map (·.register) ++ plan.padding).foldl (fun used r => max used (r + 1)) 0

/-- The registers that carry something into the trap, ascending and each once. -/
def loadedRegisters (plan : Plan) : List Nat :=
  ((plan.slots.map (·.register)).mergeSort (· ≤ ·)).eraseDups

/-- The registers that the result comes back in. -/
def resultRegisters (plan : Plan) : List Nat :=
  match plan.returns with
  | .void => []
  | .register _ => [0]
  | .registerPair _ => [0, 1]
  | .storage => []

/-- The slot of the hidden result address. -/
def resultSlot? (plan : Plan) : Option Slot :=
  plan.slots.find? fun slot => slot.content == .resultAddress

/-- What one slot shows in a summary. -/
def describeSlot (slot : Slot) : Text :=
  registerName slot.register ++ "=" ++ match slot.content with
    | .resultAddress => "&result(hidden-return)"
    | .whole parameter index carriage =>
      parameter ++ "(" ++ (Content.whole parameter index carriage).kindName ++ ")"
    | .half parameter _ half _ => parameter ++ "." ++ half.name ++ "(value)"

/-- Name, trap number, registers and result of a plan on one line. -/
def describe (plan : Plan) : Text :=
  let parts := plan.slots.map describeSlot
    ++ plan.padding.map fun register => registerName register ++ "=(pad)"
  let arguments := if parts.isEmpty then ("(no arguments)" : Text) else Text.join "  " parts
  let result : Text := match plan.returns with
    | .void => "void"
    | .storage => "*r0"
    | _ => Text.join ":" (plan.resultRegisters.map registerName)
  Text.padEnd 32 ' ' plan.declaration.name ++ "  svc 0x" ++ Text.hexByte plan.declaration.trapNumber
    ++ "  " ++ arguments ++ "  -> " ++ result

end Plan

end TrapStub
