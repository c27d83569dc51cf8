import TrapStub.Constant
import TrapStub.Corpus.Staging
import TrapStub.TypeTable

/-!
# The survey

The walk over a parsed unit fills a type table and gathers enumerators, trap numbers, trap
prototypes and macros. This module holds what the walk knows and how it names things.

* `Source`: the parsed unit and the staged headers it was made from.
* `Findings`, `Survey`: what has been found so far, and a step of the walk.
* `Source.keyOf`: the table key of a struct, union or enum. One without a tag is named by its place.
-/

namespace TrapStub

/-- A parsed unit with the staged headers it was made from. -/
structure Source where
  staged : Staged
  unit : ParsedUnit

/-- What a walk has found so far. -/
structure Findings where
  table : TypeTable
  /-- The enumerators of all enums but those for trap numbers. -/
  enumerators : List Text
  /-- Trap numbers by function, the latest first. -/
  trapValues : List (Text × Int)
  /-- Prototypes of trap functions in the order of the walk. -/
  prototypes : List CursorId
  macros : List Macro
  /-- Keys whose definitions are complete. -/
  done : List Text
  /-- Keys of records whose members are being visited. -/
  started : List Text
  deriving Repr

/-- The state before the walk. -/
def Findings.empty : Findings := ⟨.empty, [], [], [], [], [], []⟩

/-- A step of the walk. -/
abbrev Survey (α : Type) := StateT Findings (Except Fault) α

/-- Adds a definition to the table. -/
def registerType (definition : TypeDef) : Survey Unit := do
  let state ← get
  let (table, _) ← state.table.register definition
  set { state with table }

/-- The keyword at the front of some bytes is one of those that open a tagged type. -/
def startsWithTagKeyword (bytes : List UInt8) : Bool :=
  let isWordByte (b : UInt8) : Bool :=
    (0x30 ≤ b && b ≤ 0x39) || (0x41 ≤ b && b ≤ 0x5A) || (0x61 ≤ b && b ≤ 0x7A) || b == 0x5F
  let keywords : List Text := ["struct", "union", "enum"]
  keywords.contains ((bytes.takeWhile isWordByte).map fun b => .char (Char.ofNat b.toNat))

/-- The tag of a struct, union or enum. A spelling that describes a place is no tag, and neither is
the name of a typedef: a tagged type stands at its tag, any other at its keyword. The bytes are
those of the cursor's file. -/
def Cursor.tag? (c : Cursor) (bytes : Option (List UInt8)) : Option Text :=
  let describesPlace := c.spelling.any fun g => g.is '(' || g.is ' '
  if c.spelling.isEmpty || describesPlace || c.isAnonymous then none
  else if bytes.any fun bytes => startsWithTagKeyword (bytes.drop c.offset) then none
  else some c.spelling

/-- What a trap function's tag says: the trap number as written. -/
def ParsedUnit.trapSymbol? (unit : ParsedUnit) (c : Cursor) : Option Text :=
  (c.children.map unit.cursor).findSome? fun child =>
    if child.kind = .annotateAttr then Text.after? trapTag child.spelling else none

namespace Source

/-- The header a cursor is in; none if it is in no staged header. -/
def originOf? (source : Source) (c : Cursor) : Option Text := c.file.bind source.staged.relative?

/-- The header a cursor is in, empty if it is in no staged header. -/
def originOf (source : Source) (c : Cursor) : Text := (source.originOf? c).getD []

/-- The key of a struct, union or enum, and whether it has no tag. -/
def keyOf (source : Source) (c : Cursor) (keyword : Text) : Text × Bool :=
  let origin := source.originOf? c
  match c.tag? (origin.bind source.staged.bytes?) with
  | some tag => (keyword ++ " " ++ tag, false)
  | none =>
    (keyword ++ " @" ++ origin.getD "?" ++ ":" ++ Text.decimal c.line ++ ":" ++
      Text.decimal c.column, true)

end Source

end TrapStub
