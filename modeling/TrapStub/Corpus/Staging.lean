import TrapStub.Settings
import TrapStub.Corpus.Discovery
import TrapStub.Mark.Replace
import TrapStub.Text.Lines
import TrapStub.Text.Utf8

/-!
# Staging

The C parser reads a copy of the headers in a temporary directory: each header with its annotations
replaced, empty files in place of headers that only matter elsewhere, and one source file that
includes every header in order.

* `Staged`: what is known about the copy.
* `stage`: making it. The names of the headers must be UTF-8 for this, unlike what the headers hold.
* `Staged.relative?`, `Staged.markAt?`: from a place in the copy back to the header and the
  annotation there.
-/

namespace TrapStub

/-- A step that may change the tree and may end the run; what was changed before stays. -/
abbrev Action (α : Type) := ExceptT Fault (StateM FileTree) α

/-- A staged copy of the headers. -/
structure Staged where
  /-- The temporary directory. -/
  root : List Text
  /-- The relative paths of the headers, each with its bytes in the copy, in order. -/
  headers : List (Text × List UInt8)
  /-- The annotations of all headers in order. -/
  marks : List Mark
  deriving Repr

namespace Staged

/-- The name of the directory with the copied headers. -/
def corpusName : Text := "corpus"

/-- The name of the file that includes them. -/
def includerName : Text := "svcgen_corpus.c"

/-- The directory with the copied headers. -/
def corpusRoot (staged : Staged) : List Text := staged.root ++ [corpusName]

/-- The paths of the headers. -/
def names (staged : Staged) : List Text := staged.headers.map (·.1)

/-- The bytes of a header in the copy. -/
def bytes? (staged : Staged) (header : Text) : Option (List UInt8) := staged.headers.lookup header

/-- The file that includes the headers. -/
def includer (staged : Staged) : Text :=
  staged.names.flatMap fun header => ("#include \"" ++ header ++ "\"\n" : Text)

/-- The directories that headers are in, relative to the copy and without the copy itself, in the
order of their names. -/
def innerDirectories (staged : Staged) : List (List Text) :=
  let all := staged.names.map fun header => (Path.ofText header).names.dropLast
  ((all.filter (!·.isEmpty)).mergeSort Path.namesLe).eraseDups

/-- Where the C parser looks for included headers: the copy itself, then the directories in it. -/
def includeDirectories (staged : Staged) : List (List Text) :=
  [corpusName] :: staged.innerDirectories.map ([corpusName] ++ ·)

/-- The header that a file name of the C parser means; other files are none. Names are relative to
the temporary directory. -/
def relative? (staged : Staged) (file : Text) : Option Text :=
  let path := Path.ofText file
  let names := Path.settle (if path.isAbsolute then [] else staged.root) path.names
  if staged.corpusRoot.isPrefixOf names then
    let header := Discovery.relativeText (names.drop staged.corpusRoot.length)
    if (staged.bytes? header).isSome then some header else none
  else none

/-- The annotation that a line of a header belongs to. -/
def markAt? (staged : Staged) (origin : Option Text) (line : Int) : Option Mark :=
  origin.bind fun origin =>
    staged.marks.reverse.find? fun mark =>
      mark.origin = origin && (mark.line : Int) ≤ line && line ≤ (mark.lastLine : Int)

/-- An absolute path. -/
def absolute (names : List Text) : Path := ⟨"/", names⟩

end Staged

/-- The answer of a pure step. -/
def Action.ofExcept {α : Type} : Except Fault α → Action α
  | .ok a => pure a
  | .error fault => throw fault

/-- A file step whose failure is reported as a fault. -/
def Action.ofFile {α : Type} (fault : FileProblem → Fault) (step : FileAction α) : Action α :=
  fun tree => match step tree with
    | (.ok a, tree) => (.ok a, tree)
    | (.error problem, tree) => (.error (fault problem), tree)

/-- A header as text: line ends made uniform, undecodable bytes kept. -/
def readHeader (tree : FileTree) (path : Path) : Except FileProblem Text :=
  return Text.normalizeLineEnds (Utf8.decode (← tree.read path))

/-- The text of a value that must be one. -/
def requireText : Value → Except Fault Text
  | .text t => .ok t
  | .dropped => .error .valueDropped

/-- Reads a header, replaces its annotations and puts it into the copy. -/
def stageHeader (settings : Settings) (directory : Path) (root : List Text) (header : Text) :
    Action ((Text × List UInt8) × List Mark) := do
  let source := directory.append ⟨[], (Path.ofText header).names⟩
  match readHeader (← get) source with
  | .error problem => throw (.malformedAt (.unreadable problem source.text) header)
  | .ok text =>
    let marker ← Action.ofExcept (requireText settings.marker)
    let (replaced, marks) ← Action.ofExcept (Mark.replace marker header text)
    let bytes := Utf8.encode replaced
    let target := (Staged.absolute (root ++ [Staged.corpusName])).append (Path.ofText header)
    Action.ofFile (.refused · header) do
      makeDirectories target.parent
      writeFile target bytes
    return ((header, bytes), marks)

/-- Puts an empty header into the copy unless something has its name. -/
def stageEmpty (root : List Text) (header : Value) : Action Unit := do
  let header ← Action.ofExcept (requireText header)
  let target := (Staged.absolute (root ++ [Staged.corpusName])).append (Path.ofText header)
  if (← get).isPresent target then return ()
  Action.ofFile (.refused · header) (writeFile target [])

/-- Writes the file that includes the headers, which must be UTF-8: the file is made before that is seen. -/
def writeIncluder (copy : Staged) : Action Unit := do
  let target := Staged.absolute (copy.root ++ [Staged.includerName])
  if copy.includer.isPlain then Action.ofFile (.refused · []) (writeFile target (Utf8.encode copy.includer))
  else
    Action.ofFile (.refused · []) (writeFile target [])
    throw .includerNotUtf8

/-- Makes the staged copy of the headers below a directory. -/
def stage (settings : Settings) (directory : Path) : Action Staged := do
  let root := (← get).scratch
  Action.ofFile (.refused · [])
    (makeDirectories (Staged.absolute (root ++ [Staged.corpusName])))
  let excluded := settings.exclude.filterMap Value.text?
  let found ← Action.ofExcept (Discovery.headers (← get) directory excluded)
  let staged ← found.mapM (stageHeader settings directory root)
  settings.emptyHeaders.forM (stageEmpty root)
  let copy : Staged := ⟨root, staged.map (·.1), staged.flatMap (·.2)⟩
  writeIncluder copy
  return copy

end TrapStub
