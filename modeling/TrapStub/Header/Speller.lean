import TrapStub.CType.Declarator
import TrapStub.Header.Layout
import TrapStub.TypeTable

/-!
# Writing types

Tagged structs, enums and typedefs are written by their key. An anonymous definition has no name:
it is written by the first typedef that named it, or else with its body, in place.

* `Speller.spell`: the text for a key.
* `Speller.body`: a struct, union or enum with its members.
* `Speller.declare`: a declaration with every key spelled.
-/

namespace TrapStub

/-- A table, and the typedefs that have given a name to anonymous definitions. -/
structure Speller where
  table : TypeTable
  names : List (Text × Text)

/-- A definition that has a body. -/
inductive Tagged where
  | record (record : Record)
  | enumeration (enumeration : Enumeration)

namespace Tagged

/-- The struct, union or enum that a definition is. -/
def ofTypeDef? : TypeDef → Option Tagged
  | .record r => some (record r)
  | .enumeration e => some (enumeration e)
  | .typedef _ => none

/-- The words that open a body: keyword and tag, or the keyword alone. -/
def opening (key : Text) (anonymous : Bool) : Text :=
  if anonymous then key.takeWhile (!·.is ' ') else key

/-- The attributes behind a declaration, in front of its semicolon. -/
def attributeList (attributes : List Text) : Text :=
  if attributes.isEmpty then [] else " __attribute__((" ++ Text.join ", " attributes ++ "))"

/-- The attributes of a member. -/
def memberAttributes (m : Member) : Text :=
  attributeList <|
    (if m.packed then [("packed" : Text)] else []) ++
    match m.aligned with
      | none => []
      | some [] => [("aligned" : Text)]
      | some argument => [("aligned(" ++ argument ++ ")" : Text)]

/-- The attributes of a struct or union. -/
def recordAttributes (r : Record) : Text :=
  attributeList <|
    (if r.packed then [("packed" : Text)] else []) ++
    (if r.aligned then [("aligned(" ++ Text.decimal r.align ++ ")" : Text)] else [])

/-- One member with its bit-field width and attributes, given its declaration. -/
def memberLine (declared : Text) (m : Member) : Text :=
  declared ++ (match m.bits with
    | none => []
    | some bits => " : " ++ Text.decimal bits) ++ memberAttributes m

/-- A body with its braces, the closing one at `depth`. -/
def braces (depth : Nat) (opening : Text) (contents : List Text) (closing : Text) : Text :=
  Text.unlines <|
    [opening ++ " \x7b"] ++ contents.map (Text.times (depth + 1) Header.indent ++ ·) ++
    [Text.times depth Header.indent ++ "\x7d" ++ closing]

/-- A struct, union or enum with its members; `spell` writes the keys inside it. -/
def body (spell : Text → Except Fault Text) (depth : Nat) : Tagged → Except Fault Text
  | enumeration e =>
    .ok <| braces depth (opening e.key e.anonymous)
      (e.variants.map fun (name, value) => name ++ " = " ++ Text.decimal value ++ ",") []
  | record r =>
    match r.members with
    | none => .error (.incompleteBody r.key)
    | some members => do
      let lines ← members.mapM fun m => do
        let type ← m.type.mapNames spell
        return memberLine (type.declare m.name) m ++ ";"
      return braces depth (opening r.key r.anonymous) lines (recordAttributes r)

end Tagged

namespace Speller

/-- A speller for a table before anything has been named. -/
def ofTable (table : TypeTable) : Speller := ⟨table, []⟩

/-- The typedef that named an anonymous definition. -/
def nameOf? (speller : Speller) (key : Text) : Option Text := speller.names.lookup key

/-- The speller after `name` has been given to the definition under `key`. -/
def give (speller : Speller) (key name : Text) : Speller :=
  { speller with names := (key, name) :: speller.names }

/-- The anonymous definition under a key. -/
def anonymous? (speller : Speller) (key : Text) : Option Tagged :=
  ((speller.table.get? key).filter TypeDef.isAnonymous).bind Tagged.ofTypeDef?

/-- The text for a key at a depth of nesting, through at most `limit` bodies inside each other. -/
def spellWithin (speller : Speller) : (limit depth : Nat) → Text → Except Fault Text
  | 0, _, _ => .error .endless
  | limit + 1, depth, key =>
    match speller.anonymous? key, speller.nameOf? key with
    | none, _ => .ok key
    | some _, some name => .ok name
    | some definition, none =>
      definition.body (spellWithin speller limit (depth + 1)) depth

/-- A bound for bodies inside each other: more of them than definitions repeat one. -/
def limit (speller : Speller) : Nat := speller.table.entries.length + 1

/-- The text for a key at a depth of nesting. -/
def spell (speller : Speller) (depth : Nat) (key : Text) : Except Fault Text :=
  spellWithin speller speller.limit depth key

/-- A struct, union or enum with its members, its closing brace at `depth`. -/
def body (speller : Speller) (depth : Nat) (definition : Tagged) : Except Fault Text :=
  definition.body (speller.spell (depth + 1)) depth

/-- The declaration of `name`, or the bare type, with every key spelled. -/
def declare (speller : Speller) (depth : Nat) (t : CType) (name : Text) : Except Fault Text := do
  return (← t.mapNames (speller.spell depth)).declare name

end Speller

end TrapStub
