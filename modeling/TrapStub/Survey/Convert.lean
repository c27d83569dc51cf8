import TrapStub.Alignment
import TrapStub.Survey

/-!
# Converting types

A type of the parsed unit becomes a `CType`. On the way the definitions it needs enter the
table: what is used by value is defined first, so that the table stays in dependency order; structs
and unions behind a pointer are only named, because their definition comes where the header has it.

The rules for one layer of a type take the conversion of the layers below as an argument
(`below`), and `convertWithin` ties the knot. Typedefs, records and members lead from one type to
the next; a bound on how often is in `Source.limit`.

* `Source.baseStep`: a type without its own qualifiers.
* `Source.record`, `Source.recordNamed`, `Source.enumeration`, `Source.typedef`: definitions.
* `Source.convert`: a type with its qualifiers.
-/

namespace TrapStub

/-- The conversion of types without their own qualifiers; the flag tells that the type is used by
value. -/
abbrev Conversion := TypeId → Bool → Survey CType

/-- The position of the parenthesis that closes the one at `start`, given how many are open. -/
def closingFrom (opened : Int) (position : Nat) : List Text → Option Nat
  | [] => none
  | token :: rest =>
    if token = "(" then closingFrom (opened + 1) (position + 1) rest
    else if token = ")" then
      if opened = 1 then some position else closingFrom (opened - 1) (position + 1) rest
    else closingFrom opened (position + 1) rest

/-- The position of the parenthesis that closes the one at `start`. -/
def closing? (tokens : List Text) (start : Nat) : Option Nat :=
  closingFrom 0 start (tokens.drop start)

/-- A spelling without the words that qualify a type. -/
def withoutQualifiers (spelling : Text) : Text :=
  let qualifiers : List Text := ["const", "volatile", "restrict"]
  Text.join " " ((Text.words spelling).filter fun word => !qualifiers.contains word)

/-- The alignment a member asks for, given that of its type: `packed` takes the type out of
account. -/
def demandedAlignment (typeAlign : Int) (packed : Bool) (explicit : Option Int) : Int :=
  let natural := max 1 typeAlign
  match explicit.filter (· != 0) with
  | none => if packed then 1 else natural
  | some explicit => if packed then explicit else max natural explicit

/-- The packing that explains why a record is aligned below what its members ask for; attributes
of the record explain it already. -/
def inferredPack (packed aligned : Bool) (align demanded : Int) : Option Int :=
  if !packed && !aligned && 0 < align && align < demanded then some align else none

namespace Source

variable (source : Source)

/-- The argument of an `aligned` attribute as written: empty if it has none, and unknown if the
attribute comes out of a macro. -/
def alignmentText? (c : Cursor) : Option Text :=
  match c.tokens with
  | [] => none
  | word :: rest =>
    if Text.trim (·.is '_') word.spelling != "aligned" then none
    else match rest with
      | [] => some []
      | opening :: _ =>
        if opening.spelling != "(" then some []
        else match closing? (c.tokens.map (·.spelling)) 1 with
          | none => none
          | some close =>
            let argument := (c.tokens.take close).drop 2
            match argument.head?, argument.getLast? with
            | some first, some last =>
              match c.tokenFile.bind fun file =>
                  (source.staged.relative? file).bind source.staged.bytes? with
              | none => some (Text.join " " (argument.map (·.spelling)))
              | some bytes => some (Utf8.decode (Macro.slice bytes first.start last.stop))
            | _, _ => some []

/-- The attributes of a member: whether it is packed, and what it is aligned to. The last `aligned`
attribute counts; one whose argument is unknown is replaced by what the member's place allows. -/
def memberAttributes (c : Cursor) (offset : Option Int) : Bool × Option Text :=
  (c.children.map source.unit.cursor).foldl
    (fun (packed, aligned) child =>
      match child.kind with
      | .packedAttr => (true, aligned)
      | .alignedAttr =>
        let place := Alignment.inferred offset
          (source.unit.type (source.unit.cursor c.parent).type).align
        (packed, some ((source.alignmentText? child).getD (Text.decimal place)))
      | _ => (packed, aligned))
    (false, none)

/-- The alignment of a member's type; an array without length counts as its element. -/
def memberTypeAlign (c : Cursor) : Int :=
  let canonical := source.unit.type (source.unit.canonical c.type)
  if canonical.kind = .incompleteArray then (source.unit.type canonical.element).align
  else canonical.align

/-- Puts a type's own qualifiers around it, in the place of any that are there. -/
def qualify (type : ParsedType) (base : CType) : CType :=
  if type.const || type.volatile then .qualified base.unqualified type.const type.volatile else base

/-- A type with its own qualifiers. -/
def convertWith (below : Conversion) (t : TypeId) (byValue : Bool) : Survey CType := do
  return qualify (source.unit.type t) (← below t byValue)

/-- One member, and the alignment it asks for. -/
def member (below : Conversion) (c : Cursor) : Survey (Member × Int) := do
  let offset := if c.fieldOffset < 0 then none else some c.fieldOffset
  let (packed, aligned) := source.memberAttributes c offset
  let explicit ← (Alignment.ofArgument aligned : Except Fault (Option Int))
  let type ← source.convertWith below c.type true
  return ({
    name := if c.spelling.any (·.is '(') then [] else c.spelling
    type := type
    bits := c.bitWidth
    offset := offset
    packed := packed
    aligned := aligned }, demandedAlignment (source.memberTypeAlign c) packed explicit)

/-- Structs and unions apart. -/
def recordKind (c : Cursor) : RecordKind := if c.kind = .unionDecl then .union else .struct

/-- A record that is named and has no members yet. -/
def incompleteRecord (key : Text) (kind : RecordKind) (anonymous : Bool) (origin : Text) : Record :=
  { key, kind, anonymous, origin, members := none, size := 0, align := 0, packed := false
    aligned := false, pack := none, comment := none }

/-- The definition of a struct or union, its members being known, with the alignment they ask
for. -/
def completeRecord (key : Text) (c definition : Cursor) (anonymous : Bool)
    (members : List (Member × Int)) : Record :=
  let attributes := (definition.children.map source.unit.cursor).map (·.kind)
  let packed := attributes.contains .packedAttr
  let aligned := attributes.contains .alignedAttr
  let type := source.unit.type definition.type
  let demanded := members.foldl (fun most (_, alignment) => max most alignment) 1
  { key, anonymous, packed, aligned
    kind := recordKind c
    members := some (members.map (·.1))
    size := type.size
    align := type.align
    pack := inferredPack packed aligned type.align demanded
    origin := (source.originOf? definition).getD (source.originOf c)
    comment := definition.comment }

/-- Defines a struct or union. One that is being defined, or is defined, is only named. -/
def record (below : Conversion) (c : Cursor) : Survey CType := do
  let (key, anonymous) := source.keyOf c (recordKind c).keyword
  let state ← get
  if state.done.contains key || state.started.contains key then return .named key
  match c.definition with
  | none =>
    if !state.table.contains key then
      registerType (.record (incompleteRecord key (recordKind c) anonymous (source.originOf c)))
    return .named key
  | some _ =>
    let definition := source.unit.cursor c.definition
    modify fun state => { state with started := key :: state.started }
    let fields := (source.unit.type definition.type).fields
    let members ← fields.mapM fun field => source.member below (source.unit.cursor field)
    modify fun state => { state with started := state.started.filter (· != key) }
    registerType (.record (source.completeRecord key c definition anonymous members))
    modify fun state => { state with done := key :: state.done }
    return .named key

/-- Names a struct or union that is reached through a pointer. One without a tag is defined, since
nothing else will. -/
def recordNamed (below : Conversion) (c : Cursor) : Survey CType := do
  let (key, anonymous) := source.keyOf c (recordKind c).keyword
  if anonymous then source.record below c
  else
    if !(← get).table.contains key then
      registerType (.record (incompleteRecord key (recordKind c) false (source.originOf c)))
    return .named key

/-- The enumerators of an enum with their values. -/
def variants (definition : Cursor) : List (Text × Int) :=
  let children := definition.children.map source.unit.cursor
  (children.filter (·.kind = .enumConstantDecl)).map fun child => (child.spelling, child.enumValue)

/-- The functions whose trap numbers an enum holds, if all its enumerators are made for that. -/
def trapNumbers? (variants : List (Text × Int)) : Option (List (Text × Int)) :=
  if variants.isEmpty then none
  else variants.mapM fun (name, number) =>
    (Text.after? trapConstantStem name).map fun function => (function, number)

/-- The kind is that of a type with values below zero. -/
def isSignedKind : TypeKind → Bool
  | .scalar kind => kind.isSigned
  | _ => false

/-- Defines an enum. One that holds trap numbers is no type: its values are noted instead. -/
def enumeration (c : Cursor) : Survey (Option CType) := do
  let definition := if c.definition.isSome then source.unit.cursor c.definition else c
  let variants := source.variants definition
  match trapNumbers? variants with
  | some numbers =>
    modify fun state => { state with trapValues := numbers.reverse ++ state.trapValues }
    return none
  | none =>
    let (key, anonymous) := source.keyOf definition "enum"
    if (← get).done.contains key then return some (.named key)
    modify fun state => { state with enumerators := state.enumerators ++ variants.map (·.1) }
    let underlying := source.unit.type (source.unit.canonical definition.enumType)
    registerType (.enumeration
      { key, anonymous, variants
        size := (source.unit.type definition.type).size
        signed := isSignedKind underlying.kind
        origin := source.originOf definition
        comment := definition.comment })
    modify fun state => { state with done := key :: state.done }
    return some (.named key)

/-- Defines a typedef. It counts as defined only when its target is, so a typedef that leads back
to itself is visited again on the way. -/
def typedef (below : Conversion) (c : Cursor) (byValue : Bool) : Survey CType := do
  let key := c.spelling
  if (← get).done.contains key then return .named key
  let target ← source.convertWith below c.underlying byValue
  registerType (.typedef { key, target, origin := source.originOf c, comment := c.comment })
  modify fun state => { state with done := key :: state.done }
  return .named key

/-- The arithmetic type of a kind under a spelling. -/
def scalarOf (spelling : Text) (type : ParsedType) (kind : ScalarKind) : CType :=
  .scalar ⟨spelling, type.size, kind.isSigned, kind.isFloating⟩

/-- A type without its own qualifiers. Typedefs of the headers are kept, those of the system are
kept for arithmetic types only; other sugar is seen through. -/
def baseStep (below : Conversion) (t : TypeId) (byValue : Bool) : Survey CType :=
  let unit := source.unit
  let type := unit.type t
  match type.kind with
  | .elaborated => source.convertWith below type.named byValue
  | .typedef =>
    let declaration := unit.cursor type.declaration
    if (source.originOf? declaration).isSome then source.typedef below declaration byValue
    else
      let canonical := unit.type (unit.canonical t)
      match canonical.kind with
      | .scalar kind => pure (scalarOf declaration.spelling canonical kind)
      | _ => do return (← source.convertWith below (unit.canonical t) byValue).unqualified
  | .pointer => do return .pointer (← source.convertWith below type.pointee false)
  | .record =>
    let declaration := unit.cursor type.declaration
    if byValue then source.record below declaration else source.recordNamed below declaration
  | .enumeration => do
    match ← source.enumeration (unit.cursor type.declaration) with
    | some named => return named
    | none => throw (.malformed (.trapEnumAsType type.spelling))
  | .constantArray => do
    return .array (← source.convertWith below type.element byValue) (some type.count)
  | .incompleteArray => do return .array (← source.convertWith below type.element byValue) none
  | .variableArray => do return .array (← source.convertWith below type.element byValue) none
  | .functionProto => do
    let result ← source.convertWith below type.result false
    let parameters ← type.arguments.mapM fun a => source.convertWith below a false
    return .function result parameters type.variadic
  | .functionNoProto => do return .function (← source.convertWith below type.result false) [] false
  | .void => pure .void
  | .scalar kind =>
    let spelling := if kind = .bool then ("bool" : Text) else withoutQualifiers type.spelling
    pure (scalarOf spelling type kind)
  | .other name =>
    if (unit.type (unit.canonical t)).kind = type.kind then
      throw (.malformed (.unsupportedType type.spelling name))
    else below (unit.canonical t) byValue

/-- The conversion through at most `limit` types inside each other. Types that come to an end are taken to do so
within the stack, however deep they stand in each other. -/
def convertWithin : (limit : Nat) → Conversion
  | 0 => fun _ _ => throw .endless
  | limit + 1 => source.baseStep (convertWithin limit)

/-- A bound for types inside each other. Between two types that are the same and used in the same
way, a record has been started or a definition finished, and each of these happens once for each
cursor at most. -/
def limit : Nat := 2 * (source.unit.types.size + 1) * (source.unit.cursors.size + 2)

/-- The conversion of types without their own qualifiers. -/
def base : Conversion := source.convertWithin source.limit

/-- A type with its qualifiers, used by value. -/
def convert (t : TypeId) : Survey CType := source.convertWith source.base t true

end Source

end TrapStub
