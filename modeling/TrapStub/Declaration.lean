import TrapStub.CType
import TrapStub.Text.Number

/-!
# Trap declarations

A function of the firmware that is entered through a trap, as its header declares it.
-/

namespace TrapStub

/-- A parameter of a declared function. -/
structure Parameter where
  name : Text
  type : CType
  deriving DecidableEq, Repr

/-- A function behind a trap. -/
structure Declaration where
  name : Text
  trapNumber : Int
  returnType : CType
  parameters : List Parameter
  /-- The trap number as the header writes it. -/
  symbol : Text
  /-- The header, empty if unknown. -/
  origin : Text
  line : Int
  variadic : Bool
  comment : Option Text
  deriving DecidableEq, Repr

/-- A line of a header. -/
def lineOf (origin : Text) (line : Int) : Text := origin ++ ":" ++ Text.decimal line

namespace Declaration

/-- Header and line, empty if the header is unknown. -/
def location (d : Declaration) : Text :=
  if d.origin.isEmpty then [] else lineOf d.origin d.line

/-- Header and line, if the header is known. -/
def location? (d : Declaration) : Option Text :=
  if d.origin.isEmpty then none else some d.location

end Declaration

end TrapStub
