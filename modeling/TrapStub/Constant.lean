import TrapStub.Text.Space
import TrapStub.Text.Utf8
import TrapStub.ParsedUnit

/-!
# Constants

Macros without parameters that stand for integers are carried over into the output, provided that
every name in them means something there.

* `Macro.ofTokens?`: the macro that a definition makes, its body on one line.
* `Macro.isInteger`: whether a body can be an integer expression.
* `exportedConstants`: the macros that are carried over. They are the least set whose bodies use
  known names and each other.
-/

namespace TrapStub

/-- A macro without parameters. -/
structure Macro where
  name : Text
  /-- The kinds and spellings of the body's tokens. -/
  tokens : List (TokenKind × Text)
  /-- The body as written, on one line. -/
  body : Text
  deriving DecidableEq, Repr

namespace Macro

/-- The bytes from `start` up to `stop`. -/
def slice (bytes : List UInt8) (start stop : Nat) : List UInt8 :=
  (bytes.drop start).take (stop - start)

/-- The bytes hold a line feed that no backslash stands in front of. -/
def endsLine : List UInt8 → Bool
  | [] => false
  | 0x5C :: 0x0A :: rest => endsLine rest
  | b :: rest => b == 0x0A || endsLine rest

/-- The tokens that stand on the same logical line as the byte at `stop`. -/
def sameLine (bytes : List UInt8) (stop : Nat) : List Token → List Token
  | [] => []
  | token :: rest =>
    if endsLine (slice bytes stop token.start) then [] else token :: sameLine bytes token.stop rest

/-- The text with each backslash at the end of a line, and the white space after it, as one
space. -/
def joinLines (t : Text) : Text :=
  match t with
  | [] => []
  | .char '\\' :: .char '\n' :: rest => .char ' ' :: joinLines (rest.dropWhile Glyph.isSpace)
  | g :: rest => g :: joinLines rest
termination_by t.length
decreasing_by
  · have := (List.dropWhile_sublist Glyph.isSpace (l := rest)).length_le
    simp only [List.length_cons]
    omega
  · simp

/-- The second token opens a parameter list: it is a parenthesis right behind the name. -/
def hasParameters (name second : Token) : Bool :=
  second.spelling == "(" && second.start == name.stop

/-- The macro that a definition makes, given the bytes of its file and its tokens, the name first.
Definitions with parameters or without a body make none. -/
def ofTokens? (bytes : List UInt8) : List Token → Option Macro
  | name :: second :: rest =>
    if hasParameters name second then none
    else
      let body := sameLine bytes name.stop (second :: rest)
      match body.head?, body.getLast? with
      | some first, some last =>
        some ⟨name.spelling, body.map fun token => (token.kind, token.spelling),
          joinLines (Utf8.decode (slice bytes first.start last.stop))⟩
      | _, _ => none
  | _ => none

/-- Adds a macro to a list, in the place of an earlier one of its name if there is one. -/
def insert (macros : List Macro) (m : Macro) : List Macro :=
  if macros.any (·.name == m.name) then
    macros.map fun other => if other.name = m.name then m else other
  else macros ++ [m]

/-- Keywords that may stand in an integer expression. -/
def keywords : List Text := ["sizeof", "unsigned", "signed", "char", "short", "int", "long"]

/-- A token that may stand in an integer expression. -/
def isAdmissible : TokenKind × Text → Bool
  | (.literal, spelling) => !Text.startsWith spelling "\""
  | (.identifier, _) => true
  | (.keyword, spelling) => keywords.contains spelling
  | (.punctuation, _) => true
  | (.comment, _) => false

/-- A token that has a value. -/
def isOperand : TokenKind × Text → Bool
  | (.literal, _) => true
  | (.identifier, _) => true
  | _ => false

/-- The body can be an integer expression: it has operands and nothing that forbids it. -/
def isInteger (m : Macro) : Bool := m.tokens.all isAdmissible && m.tokens.any isOperand

/-- The identifiers in the body. -/
def identifiers (m : Macro) : List Text :=
  m.tokens.filterMap fun (kind, spelling) => if kind = .identifier then some spelling else none

end Macro

/-- Names that mean something wherever the output is used. -/
def universalNames : List Text :=
  ["int8_t", "int16_t", "int32_t", "int64_t",
   "uint8_t", "uint16_t", "uint32_t", "uint64_t",
   "intptr_t", "uintptr_t", "size_t", "ptrdiff_t",
   "bool", "true", "false", "NULL",
   "INT8_MAX", "INT16_MAX", "INT32_MAX", "INT64_MAX",
   "INT8_MIN", "INT16_MIN", "INT32_MIN", "INT64_MIN",
   "UINT8_MAX", "UINT16_MAX", "UINT32_MAX", "UINT64_MAX", "SIZE_MAX"]

/-- Every identifier of the body is among the known names. -/
def Macro.usesOnly (known : List Text) (m : Macro) : Bool := m.identifiers.all known.contains

/-- The macros that use known names only. -/
def readyMacros (known : List Text) (waiting : List Macro) : List Macro :=
  waiting.filter (Macro.usesOnly known)

/-- The macros that use other names. -/
def blockedMacros (known : List Text) (waiting : List Macro) : List Macro :=
  waiting.filter (!Macro.usesOnly known ·)

/-- If some macros are ready, fewer are blocked than were waiting. -/
theorem length_blockedMacros_lt {known : List Text} {waiting : List Macro}
    (some : readyMacros known waiting ≠ []) :
    (blockedMacros known waiting).length < waiting.length := by
  obtain ⟨m, rest, eq⟩ := List.exists_cons_of_ne_nil some
  have member : m ∈ readyMacros known waiting := by rw [eq]; exact List.mem_cons_self
  exact List.length_filter_lt_length_iff_exists.mpr
    ⟨m, (List.mem_filter.mp member).1, by simpa using (List.mem_filter.mp member).2⟩

/-- Of the waiting macros, the names of those whose identifiers are known or names of such macros,
in the order in which they are reached. -/
def reachable (known : List Text) (waiting : List Macro) : List Text :=
  if found : readyMacros known waiting = [] then []
  else
    let names := (readyMacros known waiting).map (·.name)
    have := length_blockedMacros_lt found
    names ++ reachable (known ++ names) (blockedMacros known waiting)
termination_by waiting.length

/-- The macros that may be carried over: integers whose names are not reserved. -/
def constantCandidates (macros : List Macro) : List Macro :=
  macros.filter fun m => !Text.startsWith m.name "_" && m.isInteger

/-- Names and bodies of the macros that are carried over, in the order of the macros; `names` are
the enumerators and typedefs of the output. -/
def exportedConstants (names : List Text) (macros : List Macro) : List (Text × Text) :=
  let candidates := constantCandidates macros
  let carried := reachable (names ++ universalNames) candidates
  (candidates.filter fun m => carried.contains m.name).map fun m => (m.name, m.body)

end TrapStub
