import TrapStub.CommandLine

/-!
# The program

Reads what the command line names into a file tree, carries out the call on it, and writes back what
the call changed. No C parser is attached, so a call whose headers are in order ends by saying so.
-/

namespace TrapStub.Main

/-- The bytes of a text for the outside. -/
def bytesOf (t : Text) : ByteArray := ⟨(Utf8.encode t).toArray⟩

/-- The text of some names from the root, as the system wants it. -/
def systemPath (names : List Text) : String :=
  String.ofList (Text.characters (Path.text ⟨"/", names⟩))

/-- The tree with what stands under some names, links being followed. -/
def observe (tree : FileTree) (names : List Text) : IO FileTree := do
  let path := systemPath names
  let found ← (IO.FS.realPath path >>= fun real => real.metadata).toBaseIO
  match found with
  | .error _ => return tree
  | .ok data =>
    if data.type == .dir then return tree.put names .directory
    else return tree.put names (.file (← IO.FS.readBinFile path).toList)

/-- The tree with all directories on the way to some names, and what stands there. -/
def observeWay (tree : FileTree) (names : List Text) : IO FileTree :=
  (List.range names.length).foldlM (fun tree n => observe tree (names.take (n + 1))) tree

/-- The tree with everything below a directory, through at most `depth` directories. -/
def observeBelow (tree : FileTree) (names : List Text) : (depth : Nat) → IO FileTree
  | 0 => return tree
  | depth + 1 => do
    if tree.entry? names != some .directory then return tree
    let entries ← (← IO.FS.realPath (systemPath names)).readDir
    entries.toList.foldlM (fun tree entry => do
      let inner := names ++ [(entry.fileName : Text)]
      observeBelow (← observe tree inner) inner depth) tree

/-- The names from the root that a path stands for. -/
def absoluteNames (here : List Text) (path : Text) : List Text :=
  let p := Path.ofText path
  Path.settle (if p.isAbsolute then [] else here) p.names

/-- What a call may look at: the headers, the preamble, and the way to the output. -/
def observeFor (tree : FileTree) (request : Request) : IO FileTree := do
  let files := ([request.source, request.output] ++ request.preamble.toList).filterMap Value.text?
  let ways := files.map (absoluteNames tree.here)
  let tree ← ways.foldlM observeWay tree
  match request.source with
  | .dropped => return tree
  | .text source => observeBelow tree (absoluteNames tree.here source) linkLimit

/-- Writes what differs between two trees. -/
def writeBack (before after : FileTree) : IO Unit :=
  after.entries.forM fun (names, entry) =>
    if before.entry? names == some entry then return ()
    else match entry with
      | .directory => IO.FS.createDirAll (systemPath names)
      | .file bytes => IO.FS.writeBinFile (systemPath names) ⟨bytes.toArray⟩
      | .link _ => return ()

/-- The parser of a program without one. -/
def noParser : Parser := ⟨.unavailable "no C parser is attached", "", ""⟩

/-- One call, and its status. -/
def call (arguments : List Text) : IO Nat := do
  let here := (Path.ofText (← IO.currentDir).toString).names
  let scratch := (Path.ofText "/tmp/svcgen-staging").names
  let start : FileTree ← observeWay ⟨[], here, scratch⟩ here
  let tree ← match Request.ofArguments arguments with
    | .ok request => observeFor start request
    | .error _ => pure start
  let (answer, world) := (CommandLine.run arguments noParser).run ⟨tree, [], [], none⟩
  (← IO.getStdout).write (bytesOf world.output)
  (← IO.getStderr).write (bytesOf world.errors)
  writeBack tree world.tree
  match answer with
  | .ok status => return status
  | .error fault =>
    (← IO.getStderr).write (bytesOf ((fault.text?.getD "the headers cannot be read") ++ "\n"))
    return 1

end TrapStub.Main

/-- The program. -/
def main (arguments : List String) : IO UInt32 := do
  return UInt32.ofNat (← TrapStub.Main.call (arguments.map TrapStub.Text.ofString))
