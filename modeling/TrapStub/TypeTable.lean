import TrapStub.CType
import TrapStub.Fault

/-!
# The type table

Definitions of structs, unions, enums and typedefs in the order they must be written, one per key.
The table is filled once and then frozen. A definition may be registered again if it is the same,
and a struct that was only named may be completed later; a completed struct moves to the end, so
that it stands behind the types it contains.

* `TypeTable.register`, `TypeTable.freeze`: the two ways a table changes.
* `TypeTable.get?`: the definition under a key.
-/

namespace TrapStub

/-- A member of a struct or union. Offsets and widths are in bits. -/
structure Member where
  /-- Empty for an unnamed struct or union inside another. -/
  name : Text
  type : CType
  /-- The width of a bit-field. -/
  bits : Option Int
  offset : Option Int
  packed : Bool
  /-- The argument of an `aligned` attribute as written, empty if it has none. -/
  aligned : Option Text
  deriving DecidableEq, Repr

/-- Structs and unions. -/
inductive RecordKind where
  | struct
  | union
  deriving DecidableEq, Repr

/-- The keyword of a kind. -/
def RecordKind.keyword : RecordKind → Text
  | struct => "struct"
  | union => "union"

/-- A struct or union. -/
structure Record where
  key : Text
  kind : RecordKind
  /-- Absent while the record is only named. -/
  members : Option (List Member)
  size : Int
  align : Int
  packed : Bool
  aligned : Bool
  /-- The `#pragma pack` value the record was laid out under. -/
  pack : Option Int
  anonymous : Bool
  origin : Text
  comment : Option Text
  deriving DecidableEq, Repr

/-- The record has its members. -/
def Record.isComplete (r : Record) : Bool := r.members.isSome

/-- An enum with its enumerators. -/
structure Enumeration where
  key : Text
  variants : List (Text × Int)
  size : Int
  signed : Bool
  anonymous : Bool
  origin : Text
  comment : Option Text
  deriving DecidableEq, Repr

/-- A typedef. -/
structure Typedef where
  key : Text
  target : CType
  origin : Text
  comment : Option Text
  deriving DecidableEq, Repr

/-- An entry of the type table. -/
inductive TypeDef where
  | record (record : Record)
  | enumeration (enumeration : Enumeration)
  | typedef (typedef : Typedef)
  deriving DecidableEq, Repr

namespace TypeDef

/-- The key a definition stands under. -/
def key : TypeDef → Text
  | record r => r.key
  | enumeration e => e.key
  | typedef a => a.key

/-- The header a definition was found in, empty if unknown. -/
def origin : TypeDef → Text
  | record r => r.origin
  | enumeration e => e.origin
  | typedef a => a.origin

/-- The definition has no name of its own. -/
def isAnonymous : TypeDef → Bool
  | record r => r.anonymous
  | enumeration e => e.anonymous
  | typedef _ => false

/-- The definition without its comment, which plays no part in comparisons. -/
def withoutComment : TypeDef → TypeDef
  | record r => record { r with comment := none }
  | enumeration e => enumeration { e with comment := none }
  | typedef a => typedef { a with comment := none }

/-- The definitions are equal, comments aside. -/
def sameShape (a b : TypeDef) : Bool := a.withoutComment = b.withoutComment

/-- What registering a definition over an earlier one of the same key leads to. -/
inductive Meeting where
  /-- The earlier definition stays as it is. -/
  | keep
  /-- The later definition completes the earlier one. -/
  | complete
  /-- The two contradict each other. -/
  | conflict
  deriving DecidableEq, Repr

/-- How a later definition relates to the earlier one under its key. -/
def meet (earlier later : TypeDef) : Meeting :=
  if sameShape earlier later then .keep
  else match earlier, later with
    | record r, record s =>
      if !r.isComplete && s.isComplete then .complete
      else if r.isComplete && !s.isComplete then .keep
      else .conflict
    | _, _ => .conflict

end TypeDef

/-- Definitions in table order, and whether more may be added. -/
structure TypeTable where
  entries : List TypeDef
  frozen : Bool
  deriving DecidableEq, Repr

namespace TypeTable

/-- The table without definitions. -/
def empty : TypeTable := ⟨[], false⟩

/-- The definition under a key. -/
def get? (table : TypeTable) (key : Text) : Option TypeDef :=
  table.entries.find? (·.key == key)

/-- The key has a definition. -/
def contains (table : TypeTable) (key : Text) : Bool := (table.get? key).isSome

/-- The keys in table order. -/
def keys (table : TypeTable) : List Text := table.entries.map TypeDef.key

/-- The table with a definition at the end and no other under its key. -/
def placeLast (table : TypeTable) (definition : TypeDef) : TypeTable :=
  { table with entries := table.entries.filter (·.key != definition.key) ++ [definition] }

/-- Adds a definition; the answer holds the definition that the key now has. -/
def register (table : TypeTable) (definition : TypeDef) : Except Fault (TypeTable × TypeDef) :=
  if table.frozen then .error (.frozenTable definition.key)
  else match table.get? definition.key with
    | none => .ok (table.placeLast definition, definition)
    | some earlier =>
      match earlier.meet definition with
      | .keep => .ok (table, earlier)
      | .complete => .ok (table.placeLast definition, definition)
      | .conflict =>
        .error (.report
          { cause := .malformed (.redefined definition.key earlier.origin)
            declaration := none
            origin := if definition.origin.isEmpty then none else some definition.origin })

/-- The table with no more to be added. -/
def freeze (table : TypeTable) : TypeTable := { table with frozen := true }

/-- The table of some definitions, registered in turn. -/
def ofList (definitions : List TypeDef) : Except Fault TypeTable :=
  definitions.foldlM (fun table definition => (·.1) <$> table.register definition) empty

end TypeTable

end TrapStub
