import TrapStub.Text

/-!
# Parsed units

What a C parser says about the staged headers: a graph of cursors (the declarations and their
parts) and types, the tokens of some cursors, and diagnostics. Cursors and types refer to each
other by number; a reference to nothing leads to an empty cursor or to the invalid type.
-/

namespace TrapStub

/-- The kinds of cursor that matter here. -/
inductive CursorKind where
  | structDecl
  | unionDecl
  | enumDecl
  | typedefDecl
  | functionDecl
  | macroDefinition
  | enumConstantDecl
  | packedAttr
  | alignedAttr
  | annotateAttr
  | other
  deriving DecidableEq, Repr

/-- The kinds of arithmetic type. -/
inductive ScalarKind where
  | bool
  | charUnsigned | uchar | char16 | char32 | ushort | uint | ulong | ulonglong | uint128 | wchar
  | charSigned | schar | short | int | long | longlong | int128
  | float | double | longdouble
  deriving DecidableEq, Repr

/-- A kind with values below zero. -/
def ScalarKind.isSigned : ScalarKind → Bool
  | charSigned | schar | short | int | long | longlong | int128 => true
  | float | double | longdouble => true
  | _ => false

/-- A kind of floating-point numbers. -/
def ScalarKind.isFloating : ScalarKind → Bool
  | float | double | longdouble => true
  | _ => false

/-- The kinds of type. -/
inductive TypeKind where
  | void
  | scalar (kind : ScalarKind)
  | elaborated
  | typedef
  | pointer
  | record
  | enumeration
  | constantArray
  | incompleteArray
  | variableArray
  | functionProto
  | functionNoProto
  /-- Any other kind, by its name in messages. -/
  | other (name : Text)
  deriving DecidableEq, Repr

/-- The kinds of token. -/
inductive TokenKind where
  | punctuation
  | keyword
  | identifier
  | literal
  | comment
  deriving DecidableEq, Repr

/-- A token with its place in the staged file, in bytes. -/
structure Token where
  kind : TokenKind
  spelling : Text
  start : Nat
  stop : Nat
  deriving DecidableEq, Repr

/-- A reference to a cursor. -/
abbrev CursorId := Option Nat

/-- A reference to a type. -/
abbrev TypeId := Option Nat

/-- A declaration, or a part of one, as the parser reports it. -/
structure Cursor where
  kind : CursorKind := .other
  spelling : Text := []
  /-- The file it is in, relative to the staging directory. -/
  file : Option Text := none
  line : Int := 0
  column : Int := 0
  /-- Its place in the file, in bytes. -/
  offset : Nat := 0
  isDefinition : Bool := false
  isAnonymous : Bool := false
  definition : CursorId := none
  children : List CursorId := []
  comment : Option Text := none
  type : TypeId := none
  enumType : TypeId := none
  enumValue : Int := 0
  /-- The type that a typedef stands for. -/
  underlying : TypeId := none
  arguments : List CursorId := []
  resultType : TypeId := none
  parent : CursorId := none
  /-- The place of a member in bits, negative if unknown. -/
  fieldOffset : Int := -1
  bitWidth : Option Int := none
  tokens : List Token := []
  /-- The file the tokens are in. -/
  tokenFile : Option Text := none
  deriving Repr, Inhabited

/-- A type as the parser reports it. -/
structure ParsedType where
  kind : TypeKind := .other "Invalid"
  spelling : Text := []
  size : Int := -1
  align : Int := -1
  const : Bool := false
  volatile : Bool := false
  /-- The type without sugar; none if it is the type itself. -/
  canonical : TypeId := none
  /-- The type that an elaborated type names. -/
  named : TypeId := none
  declaration : CursorId := none
  pointee : TypeId := none
  element : TypeId := none
  count : Int := 0
  result : TypeId := none
  arguments : List TypeId := []
  variadic : Bool := false
  fields : List CursorId := []
  deriving Repr, Inhabited

/-- A message of the parser. -/
structure Diagnostic where
  severity : Int
  message : Text
  file : Option Text
  line : Int
  deriving DecidableEq, Repr

/-- The least severity of an error. -/
def errorSeverity : Int := 3

/-- Everything the parser found in the staged headers. -/
structure ParsedUnit where
  top : List CursorId
  cursors : Array Cursor
  types : Array ParsedType
  diagnostics : List Diagnostic
  deriving Repr

/-- What came of asking the parser. -/
inductive ParserAnswer where
  /-- There is no parser, for the given reason. -/
  | unavailable (reason : Text)
  /-- The parser gave up, for the given reason. -/
  | failed (reason : Text)
  | parsed (unit : ParsedUnit)
  deriving Repr

namespace ParsedUnit

/-- The cursor that a reference leads to. -/
def cursor (unit : ParsedUnit) (id : CursorId) : Cursor :=
  (id.bind (unit.cursors[·]?)).getD {}

/-- The type that a reference leads to. -/
def type (unit : ParsedUnit) (id : TypeId) : ParsedType :=
  (id.bind (unit.types[·]?)).getD {}

/-- The reference to the type without sugar. -/
def canonical (unit : ParsedUnit) (id : TypeId) : TypeId := (unit.type id).canonical.or id

end ParsedUnit

end TrapStub
