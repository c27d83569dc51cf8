import TrapStub.CType
import TrapStub.Text.Number
import TrapStub.Text.Space

/-!
# Declarators

C writes a declaration inside out: the innermost type stands first, and pointers, arrays and
parameter lists gather around the declared name. `CType.split` follows the type from the outside
in, growing the text around the name, until it meets the type that is written first;
`CType.declare` puts the two parts together.

Qualifiers apply to pointers and to the type written first. Those of an array or a function type
have no place in a declarator and are left out.
-/

namespace TrapStub.CType

/-- The qualifiers in the order they are written. -/
def qualifierWords (const volatile : Bool) : List Text :=
  (if const then [("const" : Text)] else []) ++ (if volatile then [("volatile" : Text)] else [])

/-- A pointer's star with its qualifiers, in front of `inner`. -/
def pointerPart (qualifiers : List Text) (inner : Text) : Text :=
  if qualifiers.isEmpty then "*" ++ inner
  else Text.stripEnd ("*" ++ Text.join " " qualifiers ++ " " ++ inner)

/-- The type is written to the right of the name. -/
def isSuffixed : CType → Bool
  | array _ _ => true
  | function _ _ _ => true
  | _ => false

/-- The first part of a declaration together with the part around the name. -/
def assemble (first inner : Text) : Text :=
  if inner.isEmpty then first else first ++ " " ++ inner

mutual

/-- The type that is written first, with its qualifiers, and the text around the name. -/
def split (qualifiers : List Text) (inner : Text) : CType → Text × Text
  | qualified base const volatile =>
    split (qualifiers ++ qualifierWords const volatile) inner base
  | pointer target =>
    let part := pointerPart qualifiers inner
    split [] (if target.unqualified.isSuffixed then "(" ++ part ++ ")" else part) target
  | array element length =>
    split [] (inner ++ "[" ++ (length.map Text.decimal).getD [] ++ "]") element
  | function result parameters variadic =>
    let written := declareAll parameters ++ (if variadic then [("..." : Text)] else [])
    let list := if written.isEmpty then ("void" : Text) else Text.join ", " written
    split [] (inner ++ "(" ++ list ++ ")") result
  | named key => (Text.join " " (qualifiers ++ [key]), inner)
  | scalar type => (Text.join " " (qualifiers ++ [type.spelling]), inner)
  | void => (Text.join " " (qualifiers ++ [("void" : Text)]), inner)

/-- The parameter types as they stand in a parameter list, without names. -/
def declareAll : List CType → List Text
  | [] => []
  | t :: rest =>
    let (first, inner) := split [] [] t
    assemble first inner :: declareAll rest

end

/-- The declaration of `name` with this type; the bare type when `name` is empty. -/
def declare (t : CType) (name : Text) : Text :=
  let (first, inner) := split [] name t
  assemble first inner

end TrapStub.CType
