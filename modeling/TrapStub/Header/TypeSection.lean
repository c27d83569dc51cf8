import TrapStub.Header.Speller
import TrapStub.Plan

/-!
# The types of a header

Every definition of the table is written in table order, behind forward declarations of all tagged
structs and unions. An anonymous struct or union is written where it is used; an anonymous enum is
written on its own unless something mentions it. The first typedef that stands for an anonymous
definition carries its body and names it from then on.

* `TypeEntry`: one definition as it is written.
* `TypeSection.entries`: the entries of a table.
* `TypeSection.lines`: the lines of the section.
-/

namespace TrapStub

/-- One definition of the types section. -/
structure TypeEntry where
  comment : List Text
  /-- The packing that holds while the definition is read. -/
  pack : Option Int
  /-- The definition with its semicolon. -/
  text : Text
  /-- Assertions that pin size and offsets. -/
  pins : List Text
  deriving DecidableEq, Repr

/-- The lines of an entry, an empty one first. -/
def TypeEntry.lines (entry : TypeEntry) : List Text :=
  let (opening, closing) : List Text × List Text := match entry.pack with
    | none => ([], [])
    | some n => (["#pragma pack(push, " ++ Text.decimal n ++ ")"], ["#pragma pack(pop)"])
  [[]] ++ entry.comment ++ opening ++ [entry.text] ++ closing ++ entry.pins

namespace TypeSection

/-- The keys that complete records, typedefs and planned signatures mention. -/
def mentioned (table : TypeTable) (plans : List Plan) : List Text :=
  (table.entries.flatMap fun definition => match definition with
    | .record r => (r.members.getD []).flatMap (·.type.keys)
    | .typedef a => a.target.keys
    | .enumeration _ => []) ++
  plans.flatMap fun plan =>
    plan.declaration.returnType.keys ++ plan.declaration.parameters.flatMap (·.type.keys)

/-- The conditions that pin a record's size and the offsets of its named members; bit-fields have
no offset in bytes, and a record whose size is unknown is not pinned. -/
def pinsOf (spelled : Text) (r : Record) : List Text :=
  if r.size < 0 then []
  else
    let size := "sizeof(" ++ spelled ++ ") == " ++ Text.decimal r.size
    let offsets := (r.members.getD []).filterMap fun m =>
      match m.bits, m.offset with
      | none, some offset =>
        if m.name.isEmpty then none
        else some ("offsetof(" ++ spelled ++ ", " ++ m.name ++ ") == " ++ Text.decimal (offset / 8))
      | _, _ => none
    (size :: offsets).map fun condition =>
      "_Static_assert(" ++ condition ++ ", \"" ++ spelled ++ " layout\");"

/-- A packing of zero is no packing. -/
def packOf (pack : Option Int) : Option Int := pack.filter (· != 0)

/-- The anonymous definition that a typedef is the first to name, with its key. -/
def namedFirst? (speller : Speller) (a : Typedef) : Option (Text × Tagged) :=
  match a.target.unqualified with
  | .named key =>
    if (speller.nameOf? key).isSome then none
    else (speller.anonymous? key).map fun definition => (key, definition)
  | _ => none

/-- The entry of one definition, if it is written on its own, and the speller after it. -/
def entryOf (comments : Bool) (mentioned : List Text) (speller : Speller) :
    TypeDef → Except Fault (Option TypeEntry × Speller)
  | .record r =>
    if r.anonymous || !r.isComplete then .ok (none, speller)
    else do
      let text ← speller.body 0 (.record r)
      let comment := Header.commentLines comments r.comment
      return (some ⟨comment, packOf r.pack, text ++ ";", pinsOf r.key r⟩, speller)
  | .enumeration e =>
    if e.anonymous && mentioned.contains e.key then .ok (none, speller)
    else do
      let text ← speller.body 0 (.enumeration e)
      return (some ⟨Header.commentLines comments e.comment, none, text ++ ";", []⟩, speller)
  | .typedef a => do
    let text := "typedef " ++ (← speller.declare 0 a.target a.key) ++ ";"
    let comment := Header.commentLines comments a.comment
    match namedFirst? speller a with
    | none => return (some ⟨comment, none, text, []⟩, speller)
    | some (key, .enumeration _) => return (some ⟨comment, none, text, []⟩, speller.give key a.key)
    | some (key, .record r) =>
      let pins := if r.isComplete then pinsOf a.key r else []
      return (some ⟨comment, packOf r.pack, text, pins⟩, speller.give key a.key)

/-- The entries of some definitions in order, and the speller after them. -/
def entriesFrom (comments : Bool) (mentioned : List Text) (speller : Speller) :
    List TypeDef → Except Fault (List TypeEntry × Speller)
  | [] => .ok ([], speller)
  | definition :: rest => do
    let (entry, speller) ← entryOf comments mentioned speller definition
    let (entries, speller) ← entriesFrom comments mentioned speller rest
    return (entry.toList ++ entries, speller)

/-- The entries of a table, given the plans whose signatures may mention its types. -/
def entries (comments : Bool) (table : TypeTable) (plans : List Plan) :
    Except Fault (List TypeEntry × Speller) :=
  entriesFrom comments (mentioned table plans) (.ofTable table) table.entries

/-- Forward declarations of the tagged structs and unions. -/
def forwards (table : TypeTable) : List Text :=
  let keys := table.entries.filterMap fun definition => match definition with
    | .record r => if r.anonymous then none else some (r.key ++ ";")
    | _ => none
  if keys.isEmpty then [] else [] :: keys

/-- The lines of the section and the speller after it. -/
def lines (comments : Bool) (table : TypeTable) (plans : List Plan) :
    Except Fault (List Text × Speller) := do
  let (entries, speller) ← entries comments table plans
  return (forwards table ++ entries.flatMap TypeEntry.lines, speller)

end TypeSection

end TrapStub
