import TrapStub.Fault
import TrapStub.Path
import TrapStub.Text.Utf8

/-!
# File trees

A file system as a list of entries, each under the names that lead to it from the root. Programs
see it through paths, which may pass through symbolic links.

* `FileTree.locate`: where a path leads. At most `linkLimit` links are followed on one path, and
  names and paths have a limited length. A link whose text ends in a slash leads to a directory
  only.
* `FileTree.read`, `FileTree.isDirectory`, `FileTree.children`, `FileTree.hasDirectory`: looking.
* `makeDirectories`, `writeFile`: changing. A failing step keeps what the steps before it did.
-/

namespace TrapStub

/-- What stands under a name. -/
inductive FileEntry where
  | directory
  | file (bytes : List UInt8)
  /-- A symbolic link to the path with this text. -/
  | link (target : Text)
  deriving DecidableEq, Repr

/-- A file system with a working directory and a place for temporary files. -/
structure FileTree where
  entries : List (List Text × FileEntry)
  /-- The names of the working directory. -/
  here : List Text
  /-- The names of a directory for temporary files, which is made when it is needed. -/
  scratch : List Text
  deriving DecidableEq, Repr

/-- Where a path leads. -/
inductive Place where
  | occupied (names : List Text) (entry : FileEntry)
  /-- Nothing is there, but the directory above is. -/
  | vacant (names : List Text)
  deriving DecidableEq, Repr

/-- How many links are followed on one path. -/
def linkLimit : Nat := 40

/-- How many bytes a name may have. -/
def nameLimit : Nat := 255

/-- How many bytes a path may have. -/
def pathLimit : Nat := 4095

/-- What a path is followed for. -/
inductive Purpose where
  /-- The entry under the last name; a link is not followed. -/
  | entry
  /-- What the path leads to. -/
  | target
  /-- A file that is made if it is not there; a slash at the end asks for a directory. -/
  | newFile
  deriving DecidableEq, Repr

namespace FileTree

/-- The entry under some names; the root is a directory. -/
def entry? (tree : FileTree) (names : List Text) : Option FileEntry :=
  if names.isEmpty then some .directory else tree.entries.lookup names

/-- The tree with an entry, in the place of an earlier one under the same names if there is one. -/
def put (tree : FileTree) (names : List Text) (entry : FileEntry) : FileTree :=
  if (tree.entry? names).isSome then
    { tree with entries := tree.entries.map fun (n, e) => (n, if n = names then entry else e) }
  else { tree with entries := tree.entries ++ [(names, entry)] }

/-- The tree without the entry under some names and all that is below it. -/
def removeAll (tree : FileTree) (names : List Text) : FileTree :=
  { tree with entries := tree.entries.filter fun (n, _) => !names.isPrefixOf n }

/-- Where `pending` leads from `start`, through at most `links` links. -/
def locateFrom (tree : FileTree) (purpose : Purpose) (links : Nat) (start pending : List Text) :
    Except FileProblem Place :=
  match pending with
  | [] =>
    match tree.entry? start with
    | some entry => .ok (.occupied start entry)
    | none => .error .missing
  | name :: rest =>
    match tree.entry? start with
    | none => .error .missing
    | some (.file _) => .error .notDirectory
    | some (.link _) => .error .notDirectory
    | some .directory =>
      if name = [] || name = Path.here then locateFrom tree purpose links start rest
      else if name = Path.up then locateFrom tree purpose links start.dropLast rest
      else if purpose = .newFile && rest = [[]] then .error .isDirectory
      else if nameLimit < (Utf8.encode name).length then .error .nameTooLong
      else match tree.entry? (start ++ [name]) with
        | none => if rest.isEmpty then .ok (.vacant (start ++ [name])) else .error .missing
        | some (.link target) =>
          if rest.isEmpty && purpose = .entry then .ok (.occupied (start ++ [name]) (.link target))
          else match links with
            | 0 => .error .tooManyLinks
            | links + 1 =>
              let path := Path.ofText target
              locateFrom tree purpose links (if path.isAbsolute then [] else start)
                (path.names ++ Path.endingOf target ++ rest)
        | some .directory => locateFrom tree purpose links (start ++ [name]) rest
        | some (.file _) => locateFrom tree purpose links (start ++ [name]) rest
termination_by (links, pending.length)

/-- Where a path leads from the working directory. -/
def locate (tree : FileTree) (purpose : Purpose) (p : Path) : Except FileProblem Place :=
  if p.hasNull then .error .nullCharacter
  else if pathLimit < (Utf8.encode p.text).length then .error .nameTooLong
  else locateFrom tree purpose linkLimit (if p.isAbsolute then [] else tree.here) p.names

/-- The path leads to a directory. -/
def isDirectory (tree : FileTree) (p : Path) : Bool :=
  match tree.locate .target p with
  | .ok (.occupied _ .directory) => true
  | _ => false

/-- The path leads to something. -/
def isPresent (tree : FileTree) (p : Path) : Bool :=
  match tree.locate .target p with
  | .ok (.occupied _ _) => true
  | _ => false

/-- The bytes of the file that a path leads to. -/
def read (tree : FileTree) (p : Path) : Except FileProblem (List UInt8) :=
  match tree.locate .target p with
  | .ok (.occupied _ (.file bytes)) => .ok bytes
  | .ok (.occupied _ .directory) => .error .isDirectory
  | .ok (.occupied _ (.link _)) => .error .tooManyLinks
  | .ok (.vacant _) => .error .missing
  | .error problem => .error problem

/-- The names in the directory that a path leads to, in the order of the entries. -/
def children (tree : FileTree) (p : Path) : List Text :=
  match tree.locate .target p with
  | .ok (.occupied names .directory) =>
    tree.entries.filterMap fun (n, _) => if n.dropLast = names then n.getLast? else none
  | _ => []

/-- In the directory that a path leads to, the name is that of a directory or of a link to one. Only a
link is followed by its path, so a directory is one even where its path is too long. -/
def hasDirectory (tree : FileTree) (p : Path) (name : Text) : Bool :=
  match tree.locate .target p with
  | .ok (.occupied names .directory) =>
    match tree.entry? (names ++ [name]) with
    | some .directory => true
    | some (.link _) => tree.isDirectory (p.append ⟨[], [name]⟩)
    | _ => false
  | _ => false

/-- The names from the root that a path stands for once links and steps up are followed. A path to
nothing is settled name by name. -/
def resolve (tree : FileTree) (p : Path) : Except FileProblem (List Text) :=
  match tree.locate .target p with
  | .ok (.occupied names _) => .ok names
  | .error .nullCharacter => .error .nullCharacter
  | _ => .ok (Path.settle (if p.isAbsolute then [] else tree.here) p.names)

/-- Where a path would make a new directory. -/
def directoryPlace (tree : FileTree) (p : Path) : Except FileProblem (List Text) :=
  if p.name = Path.up || p.names.isEmpty then
    match tree.locate .target p.parent with
    | .ok (.occupied _ .directory) => .error .alreadyExists
    | .ok (.occupied _ _) => .error .notDirectory
    | .ok (.vacant _) => .error .missing
    | .error problem => .error problem
  else
    match tree.locate .entry p with
    | .ok (.occupied _ _) => .error .alreadyExists
    | .ok (.vacant names) => .ok names
    | .error problem => .error problem

/-- Where a path would write a file. -/
def filePlace (tree : FileTree) (p : Path) : Except FileProblem (List Text) :=
  match tree.locate .newFile p with
  | .ok (.occupied names (.file _)) => .ok names
  | .ok (.occupied _ .directory) => .error .isDirectory
  | .ok (.occupied _ (.link _)) => .error .tooManyLinks
  | .ok (.vacant names) => .ok names
  | .error problem => .error problem

end FileTree

/-- A step that may change the tree and may fail; what was changed before a failure stays. -/
abbrev FileAction (α : Type) := ExceptT FileProblem (StateM FileTree) α

/-- Makes one directory, whose parent must be there. -/
def makeDirectory (p : Path) : FileAction Unit := do
  let tree ← get
  match tree.directoryPlace p with
  | .ok names => set (tree.put names .directory)
  | .error problem => throw problem

/-- Passes over a failure if the path leads to a directory all the same. A path that is too long to
tell fails as such. -/
def unlessDirectory (p : Path) (problem : FileProblem) : FileAction Unit := do
  match (← get).locate .target p with
  | .ok (.occupied _ .directory) => return ()
  | .error .nameTooLong => throw .nameTooLong
  | _ => throw problem

/-- Makes a directory and those above it that are missing. -/
def makeDirectories (p : Path) : FileAction Unit :=
  tryCatch (makeDirectory p) fun problem =>
    if problem = .missing then
      if _ : p.names = [] then throw problem
      else do
        makeDirectories p.parent
        tryCatch (makeDirectory p) fun problem =>
          if problem = .missing then throw problem else unlessDirectory p problem
    else unlessDirectory p problem
termination_by p.names.length
decreasing_by
  have : p.names.length ≠ 0 := by simpa using ‹¬p.names = []›
  simp [Path.parent]
  omega

/-- Writes a file, in the place of an earlier one if there is one. A file that can be opened is taken to be
written to the end: no medium is full or fails on the way. -/
def writeFile (p : Path) (bytes : List UInt8) : FileAction Unit := do
  let tree ← get
  match tree.filePlace p with
  | .ok names => set (tree.put names (.file bytes))
  | .error problem => throw problem

end TrapStub
