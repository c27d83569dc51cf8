import TrapStub.Plan
import TrapStub.TypeTable.Lookup

/-!
# Planning registers

The calling convention at the trap boundary: arguments travel in r0 to r3 and nowhere else.

* `Shape.passing`: how a value of a shape travels.
* `Allocation.place`: the registers of one more parameter. A 64-bit scalar takes an even register
  and the next one, and an odd register in front of it stays unused.
* `Plan.ofDeclaration`: the plan of a declaration. A result that needs memory takes r0 for its
  address before any parameter is placed.
-/

namespace TrapStub

/-- How a value travels through the trap. -/
inductive Passing where
  /-- There is no value. -/
  | nothing
  /-- In one register. -/
  | word (carriage : Carriage)
  /-- In two registers. -/
  | pair (image : Bool)
  /-- In memory. -/
  | memory (bytes : Int)
  /-- Not at all. -/
  | impossible (bytes : Int)
  deriving DecidableEq, Repr

/-- How a scalar or enum of a size travels. -/
def passingOfSize (size : Int) (floating : Bool) : Passing :=
  if size ≤ registerBytes then .word (if floating then .image else .value)
  else if size = 2 * registerBytes then .pair floating
  else .impossible size

/-- How a value of a shape travels: complete composites of up to four bytes as their bytes in one
register, other composites in memory. -/
def Shape.passing : Shape → Passing
  | void => .nothing
  | pointer _ => .word .address
  | array _ _ => .word .address
  | function _ _ _ => .word .address
  | scalar type => passingOfSize type.size type.floating
  | enumeration e => passingOfSize e.size false
  | record r =>
    if r.isComplete && 0 < r.size && r.size ≤ registerBytes then .word .image else .memory r.size

/-- How a value of a type travels. -/
def TypeTable.passing (table : TypeTable) (t : CType) : Except Malformed Passing :=
  return (← table.lookup t).passing

/-- The registers given out so far. -/
structure Allocation where
  slots : List Slot
  padding : List Nat
  /-- The first register that is still free. -/
  next : Nat
  deriving DecidableEq, Repr

namespace Allocation

/-- One more register with the given content. -/
def add (a : Allocation) (content : Content) : Allocation :=
  { a with slots := a.slots ++ [⟨a.next, content⟩], next := a.next + 1 }

/-- The next free register is even; an odd one is skipped. -/
def align (a : Allocation) : Allocation :=
  if a.next % 2 = 1 then { a with padding := a.padding ++ [a.next], next := a.next + 1 } else a

/-- The registers of the parameter at position `index`. -/
def place (a : Allocation) (parameter : Text) (index : Nat) :
    Passing → Except Unsupported Allocation
  | .word carriage => .ok (a.add (.whole parameter index carriage))
  | .pair image =>
    .ok ((a.align.add (.half parameter index .low image)).add (.half parameter index .high image))
  | .memory bytes => .error (.compositeByValue parameter bytes)
  | .nothing => .error (.parameterSize parameter 0)
  | .impossible bytes => .error (.parameterSize parameter bytes)

end Allocation

namespace Plan

/-- The way of a result that travels so, if it can be returned at all. -/
def returnOf : Passing → Except Unsupported Return
  | .nothing => .ok .void
  | .word carriage => .ok (.register carriage)
  | .pair image => .ok (.registerPair image)
  | .memory _ => .ok .storage
  | .impossible bytes => .error (.returnSize bytes)

/-- The allocation before any parameter: r0 is taken by the address of a result in memory. -/
def start (returns : Return) : Allocation :=
  match returns with
  | .storage => Allocation.add ⟨[], [], 0⟩ .resultAddress
  | _ => ⟨[], [], 0⟩

/-- A cause concerning a declaration as a fault. -/
def refuse (d : Declaration) (cause : Cause) : Fault := .report ⟨cause, some d.name, d.location?⟩

/-- The answer of a step on a declaration, its failure reported for the declaration. -/
def orRefuse {α : Type} (d : Declaration) : Except Unsupported α → Except Fault α
  | .ok a => .ok a
  | .error cause => .error (refuse d (.unsupported cause))

/-- The answer of a look-up, its failure reported without a place. -/
def orMalformed {α : Type} : Except Malformed α → Except Fault α
  | .ok a => .ok a
  | .error cause => .error (.malformed cause)

/-- The allocation after the parameters, each with its position. -/
def allocate (d : Declaration) (table : TypeTable) (a : Allocation) :
    List (Parameter × Nat) → Except Fault Allocation
  | [] => .ok a
  | (parameter, index) :: rest => do
    let passing ← orMalformed (table.passing parameter.type)
    let a ← orRefuse d (a.place parameter.name index passing)
    allocate d table a rest

/-- The register plan of a declaration. -/
def ofDeclaration (d : Declaration) (table : TypeTable) : Except Fault Plan := do
  if d.variadic then .error (refuse d (.unsupported .variadic)) else
  let result ← orMalformed (table.passing d.returnType)
  let returns ← orRefuse d (returnOf result)
  let a ← allocate d table (start returns) d.parameters.zipIdx
  if a.next > argumentRegisters then .error (refuse d (.pressure a.next argumentRegisters)) else
  return ⟨d, a.slots, returns, a.padding⟩

/-- The plans of some declarations, in order; the first failure ends the list. -/
def ofDeclarations (declarations : List Declaration) (table : TypeTable) :
    Except Fault (List Plan) :=
  declarations.mapM (ofDeclaration · table)

end Plan

end TrapStub
