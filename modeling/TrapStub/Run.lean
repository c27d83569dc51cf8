import TrapStub.Survey.Declarations
import TrapStub.Survey.Visit
import TrapStub.Header
import TrapStub.Plan.Allocate

/-!
# From headers to stubs

A whole run: the headers are staged and parsed, their declarations gathered and planned, and the
output is written once nothing can be wrong with any of them any more.

* `Run`: a step that may print, change files and end the run.
* `Source.interface`: everything a parsed unit declares.
* `readHeaders`: the headers of a directory as a corpus.
* `generate`: the whole run.
-/

namespace TrapStub

/-- What a run leaves behind. -/
structure World where
  tree : FileTree
  /-- What was printed. -/
  output : Text
  /-- What was printed as errors and warnings. -/
  errors : Text
  /-- The arguments that the C parser was called with. -/
  parserArguments : Option (List Text)

/-- The C parser: its answer and the names of its directories. -/
structure Parser where
  answer : ParserAnswer
  /-- The staging directory, as the parser is told. -/
  root : Text
  /-- The directory of the system headers. -/
  sysroot : Text

/-- A step of a run; what was printed and changed before a failure stays. -/
abbrev Run (α : Type) := ExceptT Fault (StateM World) α

/-- A step on files as a step of a run. -/
def Run.ofAction {α : Type} (step : Action α) : Run α := fun world =>
  let (answer, tree) := step world.tree
  (answer, { world with tree })

/-- The answer of a pure step. -/
def Run.ofExcept {α : Type} : Except Fault α → Run α
  | .ok a => pure a
  | .error fault => throw fault

/-- Prints a line. The output is taken to accept every text, undecodable bytes included. -/
def say (line : Text) : Run Unit :=
  modify fun world => { world with output := world.output ++ line ++ [Glyph.newline] }

/-- Prints a line to the errors, which are taken to accept every text, too. -/
def warn (line : Text) : Run Unit :=
  modify fun world => { world with errors := world.errors ++ line ++ [Glyph.newline] }

/-- The arguments for the C parser. -/
def parserArguments (settings : Settings) (parser : Parser) (staged : Staged) : List Text :=
  let fixed : List Text :=
    ["-x", "c", "-std=gnu11", ("--target=" ++ settings.target.shown : Text), "-ffreestanding",
     "-nostdinc", "-isystem", parser.sysroot]
  let directories := staged.includeDirectories.map fun names =>
    ("-I" ++ parser.root ++ "/" ++ Text.join "/" names : Text)
  let defines := settings.defines.map fun define => ("-D" ++ define.shown : Text)
  fixed ++ directories ++ defines ++ settings.clangArgs.map Value.shown

/-- Notes the arguments that the C parser is called with. -/
def noteArguments (arguments : List Text) : Run Unit :=
  modify fun world => { world with parserArguments := some arguments }

/-- The parsed unit of the staged headers. -/
def parse (settings : Settings) (parser : Parser) (staged : Staged) : Run ParsedUnit := do
  match parser.answer with
  | .unavailable reason => throw (.parserUnavailable reason)
  | .failed reason =>
    noteArguments (parserArguments settings parser staged)
    throw (.malformed (.unparsable reason))
  | .parsed unit =>
    noteArguments (parserArguments settings parser staged)
    return unit

/-- The first error among some diagnostics, with the annotation on its line. -/
def refuseErrors (staged : Staged) (diagnostics : List Diagnostic) : Except Fault Unit :=
  match diagnostics.find? (errorSeverity ≤ ·.severity) with
  | none => .ok ()
  | some d =>
    let origin := d.file.bind staged.relative?
    let mark := staged.markAt? origin d.line
    .error (.report
      { cause := .malformed (.diagnostic d.message (mark.map (·.symbol)))
        declaration := mark.map (·.name)
        origin := origin.map (lineOf · d.line) })

/-- What a parsed unit declares. -/
structure Interface where
  table : TypeTable
  declarations : List Declaration
  constants : List (Text × Text)
  deriving Repr

/-- The names that constants may use: enumerators and typedefs. -/
def constantNames (state : Findings) : List Text :=
  state.enumerators ++ state.table.entries.filterMap fun definition => match definition with
    | .typedef a => some a.key
    | _ => none

/-- Everything a parsed unit declares. -/
def Source.interface (source : Source) : Except Fault Interface := do
  let (declarations, state) ← (do source.visitAll; source.declarations).run .empty
  return ⟨state.table.freeze, declarations, exportedConstants (constantNames state) state.macros⟩

/-- What is read from the headers below a directory, and their paths. -/
structure Reading where
  headers : List Text
  interface : Interface
  deriving Repr

/-- Removes the directory for temporary files after a step, however the step ends. -/
def Run.withScratch {α : Type} (step : Run α) : Run α := fun world =>
  let (answer, changed) := step world
  (answer, { changed with tree := changed.tree.removeAll world.tree.scratch })

/-- Reads the headers below a directory by way of their staged copy. -/
def readStaged (settings : Settings) (parser : Parser) (directory : Path) : Run Reading := do
  let staged ← Run.ofAction (stage settings directory)
  if settings.verbose then
    say ("Scanning " ++ Text.natural staged.headers.length ++ " headers in " ++ directory.text
      ++ " (" ++ Text.natural staged.marks.length ++ " " ++ settings.marker.shown
      ++ " annotations)")
  if staged.marks.isEmpty then
    warn ("WARNING: no " ++ settings.marker.shown ++ " annotations found in " ++ directory.text)
  let unit ← parse settings parser staged
  Run.ofExcept (refuseErrors staged unit.diagnostics)
  let interface ← Run.ofExcept (Source.interface ⟨staged, unit⟩)
  return ⟨staged.names, interface⟩

/-- Reads the headers below a directory; of the staged copy nothing stays. -/
def readHeaders (settings : Settings) (parser : Parser) (directory : Path) : Run Reading := do
  let reading ← Run.withScratch (readStaged settings parser directory)
  if settings.verbose then
    say ("  " ++ Text.natural reading.interface.declarations.length ++ " declarations, "
      ++ Text.natural reading.interface.table.entries.length ++ " types, "
      ++ Text.natural reading.interface.constants.length ++ " constants")
  return reading

/-- What a whole run makes. -/
structure Generated where
  output : Path
  /-- The size of the output in bytes. -/
  size : Nat
  text : Text
  declarations : List Declaration
  plans : List Plan
  deriving Repr

/-- The name of the directory that a path leads to. -/
def directoryName (tree : FileTree) (directory : Path) : Except Fault Text :=
  match tree.resolve directory with
  | .ok names => .ok (names.getLast?.getD [])
  | .error problem => .error (.refused problem directory.text)

/-- A failure to write the output; a path that is none cannot be reported as one. -/
def unwritable (output : Path) : FileProblem → Fault
  | .nullCharacter => .refused .nullCharacter output.text
  | problem => .report ⟨.unwritable problem, none, some output.text⟩

/-- Writes the output, making the directories above it if they are missing. -/
def saveOutput (output : Path) (bytes : List UInt8) : Run Unit :=
  Run.ofAction <| Action.ofFile (unwritable output) do
    makeDirectories output.parent
    writeFile output bytes

/-- Reads the headers below a directory and writes their stubs. -/
def generate (settings : Settings) (parser : Parser) (directory output : Path) (dumpPlan : Bool) :
    Run Generated := do
  let reading ← readHeaders settings parser directory
  let interface := reading.interface
  let plans ← Run.ofExcept (Plan.ofDeclarations interface.declarations interface.table)
  if dumpPlan then plans.forM fun plan => say plan.describe
  let sourceName ← Run.ofExcept (directoryName (← get).tree directory)
  let corpus : Corpus :=
    { sourceName
      headerCount := reading.headers.length
      table := interface.table
      declarations := interface.declarations
      constants := interface.constants }
  let text ← Run.ofExcept (Header.render corpus plans settings output.name)
  let bytes := Utf8.encode text
  saveOutput output bytes
  if settings.verbose then
    say ("Wrote " ++ output.text ++ " (" ++ Text.natural bytes.length ++ " bytes, "
      ++ Text.natural plans.length ++ " stubs)")
  return ⟨output, bytes.length, text, interface.declarations, plans⟩

end TrapStub
