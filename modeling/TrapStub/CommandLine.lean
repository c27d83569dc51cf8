import TrapStub.CommandLine.Arguments
import TrapStub.Run

/-!
# The command line

The program as it is called: arguments in, an exit status out, with what is printed and written on
the way.

* `CommandLine.run`: one call. Faults that have no wording end the program without a status.
-/

namespace TrapStub

namespace CommandLine

/-- The name of the program in its messages. -/
def programName : Text := "svcgen"

/-- The name and version of the program. -/
def versionLine : Text := programName ++ " 0.1.0"

/-- How the program is called. -/
def usageLine : Text := "usage: " ++ programName ++ " [options] SRC_DIR OUTPUT"

/-- The line that reports an error of usage. -/
def usageErrorLine (error : UsageError) : Text := programName ++ ": error: " ++ error.message

/-- The text of the preamble file: line ends made uniform, valid UTF-8 only. -/
def readPreamble (tree : FileTree) (path : Path) : Except FileProblem (Option Text) := do
  let bytes ← tree.read path
  return if Utf8.isValid bytes then some (Text.normalizeLineEnds (Utf8.decode bytes)) else none

/-- Reports a fault that has a wording and gives the status of failure. -/
def explain (fault : Fault) : Run Nat := do
  match fault with
  | .report r =>
    warn ("ERROR: " ++ r.cause.kind.name ++ ": " ++ r.text)
    return 1
  | .parserUnavailable reason =>
    warn ("ERROR: libclang unavailable: " ++ reason)
    warn "  Set LIBCLANG_PATH to the libclang shared library or its directory."
    return 1
  | other => throw other

/-- Reads the headers and writes the stubs; the operands must be texts. -/
def runGenerate (request : Request) (settings : Settings) (parser : Parser) : Run Nat := do
  let source ← Run.ofExcept (requireText request.source)
  let output ← Run.ofExcept (requireText request.output)
  tryCatch (do
    let _ ← generate settings parser (.ofText source) (.ofText output) request.dumpPlan
    return 0) explain

/-- Carries out a request. -/
def runRequest (request : Request) (parser : Parser) : Run Nat := do
  match (request.preamble.bind Value.text?).filter (!·.isEmpty) with
  | none => runGenerate request request.settings parser
  | some file =>
    let path := Path.ofText file
    match readPreamble (← get).tree path with
    | .error .nullCharacter => throw (.refused .nullCharacter file)
    | .error problem =>
      warn ("ERROR: cannot read preamble " ++ path.text ++ ": " ++ problem.message)
      return 1
    | .ok none => throw .preambleNotUtf8
    | .ok (some preamble) => runGenerate request { request.settings with preamble } parser

/-- The status of a call that is stopped by its arguments, what it prints, and what it prints to the
errors. -/
def farewell : Stop → Nat × Text × Text
  | .version => (0, versionLine ++ [Glyph.newline], [])
  | .help => (0, usageLine ++ [Glyph.newline], [])
  | .usage error => (2, [], usageLine ++ [Glyph.newline] ++ usageErrorLine error ++ [Glyph.newline])

/-- One call of the program. -/
def run (arguments : List Text) (parser : Parser) : Run Nat := do
  match Request.ofArguments arguments with
  | .ok request => runRequest request parser
  | .error stop =>
    let (status, output, errors) := farewell stop
    modify fun world =>
      { world with output := world.output ++ output, errors := world.errors ++ errors }
    return status

end CommandLine

end TrapStub
