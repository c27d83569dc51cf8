import TrapStub.FileTree

/-!
# Finding headers

All files below a directory whose names end in `.h`, except excluded names. Linked directories are
entered like others. The headers come in the order of their paths relative to the directory,
compared as texts, whatever order the file system lists them in.

* `Discovery.headers`: the relative paths.
-/

namespace TrapStub.Discovery

/-- A file with this name is a header that is wanted. -/
def isWanted (exclude : List Text) (name : Text) : Bool :=
  Text.endsWith name ".h" && !exclude.contains name

/-- The headers below a directory, as names relative to `below`, through at most `depth`
directories inside each other. -/
def headersBelow (tree : FileTree) (exclude : List Text) (directory : Path) :
    (depth : Nat) → (below : List Text) → List (List Text)
  | 0, _ => []
  | depth + 1, below =>
    let path := directory.append ⟨[], below⟩
    (tree.children path).flatMap fun name =>
      let names := below ++ [name]
      if tree.hasDirectory path name then headersBelow tree exclude directory depth names
      else if isWanted exclude name then [names] else []

/-- A bound for directories inside each other: between two links on a path, each directory is an
entry of its own. -/
def depthLimit (tree : FileTree) : Nat := (linkLimit + 1) * (tree.entries.length + 1)

/-- The text of a relative path. -/
def relativeText (names : List Text) : Text := Text.join "/" names

/-- The headers below a directory in order. -/
def headers (tree : FileTree) (directory : Path) (exclude : List Text) :
    Except Fault (List Text) :=
  match tree.locate .target directory with
  | .ok (.occupied _ .directory) =>
    .ok (((headersBelow tree exclude directory (depthLimit tree) []).map relativeText).mergeSort
      Text.le)
  | .error .nameTooLong => .error (.refused .nameTooLong directory.text)
  | _ => .error (.malformed (.directoryNotFound directory.text))

end TrapStub.Discovery
