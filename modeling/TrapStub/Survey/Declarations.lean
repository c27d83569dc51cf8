import TrapStub.Survey.Convert
import TrapStub.Declaration
import TrapStub.TypeTable.Lookup

/-!
# Resolving prototypes

The second pass: every trap prototype becomes a declaration with its trap number and types. The
declarations are put in order of header and line, and neither a name nor a trap number may occur
twice.

* `Source.declaration`: one prototype.
* `distinct`: the check of a list of declarations.
* `Source.declarations`: all prototypes.
-/

namespace TrapStub

/-- Reports a malformed type for the declaration it was met in. -/
def blaming {α : Type} (name place : Text) (step : Survey α) : Survey α := fun state =>
  match step state with
  | .error (.report r) => .error (.report ⟨r.cause, some name, some place⟩)
  | answer => answer

/-- A type that is used by value resolves, and to more than a name. -/
def requireDefined (table : TypeTable) (d : Declaration) (part : SignaturePart) (t : CType) :
    Except Fault Unit :=
  match table.lookup t with
  | .error cause => .error (.malformedIn (.inPart part cause) d.name d.location)
  | .ok (.record r) =>
    if r.isComplete then .ok ()
    else .error (.malformedIn (.incompletePart part r.key) d.name d.location)
  | .ok _ => .ok ()

/-- Every type of the signature that is used by value resolves, and to more than a name. -/
def requireDefinedSignature (table : TypeTable) (d : Declaration) : Except Fault Unit := do
  requireDefined table d .returnType d.returnType
  d.parameters.forM fun p => requireDefined table d (.parameter p.name) p.type

/-- Order by header and line. -/
def declarationLe (a b : Declaration) : Bool :=
  if a.origin = b.origin then a.line ≤ b.line else Text.le a.origin b.origin

/-- No two declarations share a name or a trap number; `earlier` have been checked already. -/
def distinctFrom (earlier : List Declaration) : List Declaration → Except Fault Unit
  | [] => .ok ()
  | d :: rest =>
    match earlier.find? (·.name == d.name) with
    | some other => .error (.malformedIn (.declaredTwice other.location) d.name d.location)
    | none =>
      match earlier.find? (·.trapNumber == d.trapNumber) with
      | some other =>
        .error (.malformedIn
          (.trapCollision d.trapNumber d.symbol other.name other.symbol other.location)
          d.name d.location)
      | none => distinctFrom (earlier ++ [d]) rest

/-- No two declarations share a name or a trap number. -/
def distinct (declarations : List Declaration) : Except Fault Unit := distinctFrom [] declarations

namespace Source

variable (source : Source)

/-- A parameter; one without a name is named by its position. -/
def parameter (id : CursorId) (index : Nat) : Survey Parameter := do
  let c := source.unit.cursor id
  let type ← source.convert c.type
  return ⟨if c.spelling.isEmpty then "arg" ++ Text.natural index else c.spelling, type⟩

/-- The trap number of a function. -/
def trapNumber (values : List (Text × Int)) (name symbol place : Text) : Except Fault Int :=
  match values.lookup name with
  | none => .error (.malformedIn (.unresolvedTrap symbol) name place)
  | some number =>
    if 0 ≤ number && number ≤ largestTrapNumber then .ok number
    else .error (.malformedIn (.trapOutOfRange number symbol) name place)

/-- The declaration that a prototype makes. -/
def declaration (id : CursorId) : Survey Declaration := do
  let c := source.unit.cursor id
  let origin := source.originOf c
  let place := lineOf origin c.line
  let symbol := (source.unit.trapSymbol? c).getD []
  let number ← trapNumber (← get).trapValues c.spelling symbol place
  let (parameters, returnType) ← blaming c.spelling place do
    let parameters ← c.arguments.zipIdx.mapM fun (id, index) => source.parameter id index
    return (parameters, ← source.convert c.resultType)
  let type := source.unit.type c.type
  let d : Declaration :=
    { name := c.spelling, trapNumber := number, returnType, parameters, symbol, origin
      line := c.line
      variadic := type.kind = .functionProto && type.variadic
      comment := c.comment }
  requireDefinedSignature (← get).table d
  return d

/-- The declarations of all prototypes, in order of header and line. -/
def declarations : Survey (List Declaration) := do
  let declarations ← (← get).prototypes.mapM source.declaration
  let sorted := declarations.mergeSort declarationLe
  distinct sorted
  return sorted

end Source

end TrapStub
