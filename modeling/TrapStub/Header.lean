import TrapStub.Settings
import TrapStub.Header.Stub
import TrapStub.Header.TypeSection

/-!
# The header file

The whole output: a preamble, an include guard, the system headers, and sections for constants,
types and stubs. Types stand before the stubs that use them, and a section without content is left
out.

* `Corpus`: what is known about a set of headers.
* `Header.render`: the text of the output.
-/

namespace TrapStub

/-- What a set of headers declares. -/
structure Corpus where
  /-- The name of the directory that was read. -/
  sourceName : Text
  /-- How many headers were read. -/
  headerCount : Nat
  table : TypeTable
  declarations : List Declaration
  /-- Macros that are carried over, with their bodies. -/
  constants : List (Text × Text)
  deriving Repr

namespace Header

/-- The headers that the output needs. -/
def neededHeaders : List Text := ["stdint.h", "stdbool.h", "stddef.h"]

/-- The lines of the preamble and an empty one, if there is a preamble. -/
def preambleLines (preamble : Text) : List Text :=
  if preamble.isEmpty then [] else [Text.trimEnd (· == Glyph.newline) preamble, []]

/-- The lines that open the file up to the system headers. -/
def openingLines (corpus : Corpus) (guard : Text) : List Text :=
  [("/* Auto-generated by svcgen from " ++ Text.natural corpus.headerCount ++ " headers in " ++
      Text.quoted corpus.sourceName ++ ". Do not edit manually. */" : Text),
   ("#ifndef " ++ guard : Text),
   ("#define " ++ guard : Text),
   []] ++
  neededHeaders.map fun header => ("#include <" ++ header ++ ">" : Text)

/-- The lines of the constants. -/
def constantLines (constants : List (Text × Text)) : List Text :=
  if constants.isEmpty then []
  else [[], sectionTitle "Constants", []] ++
    constants.map fun (name, body) => ("#define " ++ name ++ " " ++ body : Text)

/-- The lines of the types, and the speller that knows their names. -/
def typeLines (comments : Bool) (table : TypeTable) (plans : List Plan) :
    Except Fault (List Text × Speller) := do
  if table.entries.isEmpty then return ([], .ofTable table)
  let (lines, speller) ← TypeSection.lines comments table plans
  return ([[], sectionTitle "Types"] ++ lines, speller)

/-- The lines of the stubs. -/
def stubLines (stubs : List Stub) : List Text :=
  if stubs.isEmpty then []
  else [[], sectionTitle "SVC stubs"] ++ stubs.flatMap fun stub => [] :: stub.lines

/-- The text of the output file. -/
def render (corpus : Corpus) (plans : List Plan) (settings : Settings) (outputName : Text) :
    Except Fault Text := do
  let guard := settings.guard?.getD (guardOf outputName)
  let (types, speller) ← typeLines settings.comments corpus.table plans
  let stubs ← plans.mapM (Stub.ofPlan settings.comments speller)
  return Text.unlines <|
    preambleLines settings.preamble ++ openingLines corpus guard ++
    constantLines corpus.constants ++ types ++ stubLines stubs ++
    [[], ("#endif /* " ++ guard ++ " */" : Text), []]

end Header

end TrapStub
