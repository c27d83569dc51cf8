import TrapStub.Text

/-!
# Paths

A path is a root and a list of names. Empty names and names that mean "here" are dropped when a
path is read; a name that means "one up" is kept, because what it leads to depends on links.

* `Path.ofText`, `Path.text`: reading and writing.
* `Path.name`, `Path.parent`, `Path.append`: taking apart and putting together.
-/

namespace TrapStub

/-- A path: the slashes it starts with, if any, and its names. -/
structure Path where
  root : Text
  names : List Text
  deriving DecidableEq, Repr

namespace Path

/-- The root of a path: two leading slashes are a root of their own, any other number is one. -/
def rootOf (t : Text) : Text :=
  match (t.takeWhile (·.is '/')).length with
  | 0 => []
  | 2 => "//"
  | _ => "/"

/-- The name that means the directory it stands in. -/
def here : Text := "."

/-- The names between slashes that lead somewhere. -/
def namesOf (t : Text) : List Text :=
  (Text.splitOn (.char '/') t).filter fun name => !name.isEmpty && name != here

/-- What the end of a text demands of the place it leads to: a last name that means "here" is kept,
and a slash behind the last name counts as an empty name. Both demand a directory. -/
def endingOf (t : Text) : List Text :=
  match (Text.splitOn (.char '/') t).reverse with
  | [] => []
  | last :: before =>
    if last = here || (last.isEmpty && (before.dropWhile (·.isEmpty)).head? = some here) then [here]
    else if last.isEmpty then [[]]
    else []

/-- The path that a text spells. -/
def ofText (t : Text) : Path := ⟨rootOf t, namesOf t⟩

/-- The text of a path; the empty path is a dot. -/
def text (p : Path) : Text :=
  if p.root.isEmpty && p.names.isEmpty then "." else p.root ++ Text.join "/" p.names

/-- Some name holds a null character. -/
def hasNull (p : Path) : Bool := p.names.any fun name => name.any (·.code == 0)

/-- The path starts at the root of the file system. -/
def isAbsolute (p : Path) : Bool := !p.root.isEmpty

/-- The last name, empty if there is none. -/
def name (p : Path) : Text := p.names.getLast?.getD []

/-- The path without its last name. -/
def parent (p : Path) : Path := { p with names := p.names.dropLast }

/-- The path `q` as seen from `p`; an absolute path stays what it is. -/
def append (p q : Path) : Path := if q.isAbsolute then q else { p with names := p.names ++ q.names }

/-- The name that means one directory up. -/
def up : Text := ".."

/-- Names with every step up carried out on the names before it; `above` is where they start. -/
def settle (above : List Text) : List Text → List Text
  | [] => above
  | name :: rest => settle (if name = up then above.dropLast else above ++ [name]) rest

/-- Names in order: code points name by name. -/
def namesLe : List Text → List Text → Bool
  | [], _ => true
  | _ :: _, [] => false
  | a :: s, b :: t => if a = b then namesLe s t else Text.le a b

end Path

end TrapStub
