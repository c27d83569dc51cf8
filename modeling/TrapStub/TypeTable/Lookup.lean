import TrapStub.TypeTable

/-!
# Following typedefs

A type is used through its shape: what remains when qualifiers are removed and typedefs are
followed to the definition they end in.

* `CType.head`: a type without its qualifiers, as a key or a shape.
* `TypeTable.lookup`: the shape of a type. Typedefs that come back to themselves are reported, so
  the search ends: no key is followed twice.
* `TypeTable.sizeOf`: the size of a type in bytes.
-/

namespace TrapStub

/-- What a type is, behind qualifiers and typedefs. -/
inductive Shape where
  | void
  | scalar (type : ScalarType)
  | pointer (target : CType)
  | array (element : CType) (length : Option Int)
  | function (result : CType) (parameters : List CType) (variadic : Bool)
  | record (record : Record)
  | enumeration (enumeration : Enumeration)
  deriving Repr

/-- A type without qualifiers: either a key to follow or a shape. -/
inductive Head where
  | key (key : Text)
  | shape (shape : Shape)
  deriving Repr

/-- The type behind its qualifiers. -/
def CType.head : CType → Head
  | void => .shape .void
  | scalar type => .shape (.scalar type)
  | pointer target => .shape (.pointer target)
  | named key => .key key
  | array element length => .shape (.array element length)
  | function result parameters variadic => .shape (.function result parameters variadic)
  | qualified base _ _ => base.head

/-- How many keys of the table are not among `seen`. -/
def TypeTable.unseen (table : TypeTable) (seen : List Text) : Nat :=
  (table.keys.filter (· ∉ seen)).length

/-- Having seen one more key of the table leaves fewer unseen. -/
theorem TypeTable.unseen_cons_lt (table : TypeTable) (seen : List Text) {key : Text}
    (fresh : key ∉ seen) (present : table.contains key = true) :
    table.unseen (key :: seen) < table.unseen seen := by
  have member : key ∈ table.keys := by
    simp only [contains, get?, Option.isSome_iff_exists] at present
    obtain ⟨d, found⟩ := present
    have same := List.find?_some found
    exact List.mem_map.mpr ⟨d, List.mem_of_find?_eq_some found, by simpa using same⟩
  have sub : table.keys.filter (· ∉ key :: seen)
      = (table.keys.filter (· ∉ seen)).filter (· ≠ key) := by
    rw [List.filter_filter]
    congr 1
    funext k
    simp [List.mem_cons, not_or]
  unfold unseen
  rw [sub]
  refine List.length_filter_lt_length_iff_exists.mpr ⟨key, ?_, by simp⟩
  simp [member, fresh]

namespace TypeTable

/-- The shape a type leads to, given the keys followed on the way to it. -/
def lookupFrom (table : TypeTable) (seen : List Text) (t : CType) : Except Malformed Shape :=
  match t.head with
  | .shape shape => .ok shape
  | .key key =>
    if again : key ∈ seen then .error (.typedefCycle key)
    else match found : table.get? key with
      | none => .error (.unknownType key)
      | some (.record r) => .ok (.record r)
      | some (.enumeration e) => .ok (.enumeration e)
      | some (.typedef a) =>
        have := table.unseen_cons_lt seen again (by simp [contains, found])
        lookupFrom table (key :: seen) a.target
termination_by table.unseen seen

/-- The shape of a type: qualifiers removed and typedefs followed. -/
def lookup (table : TypeTable) (t : CType) : Except Malformed Shape := lookupFrom table [] t

/-- The size of a type in bytes, given the keys followed since the last array (`here`) and above
it (`above`). Coming back to a key within one chain of typedefs is a cycle; coming back to it
through an array has no end. -/
def sizeFrom (table : TypeTable) (pointerSize : Int) (here above : List Text) (t : CType) :
    Except Fault Int :=
  match t with
  | .qualified base _ _ => sizeFrom table pointerSize here above base
  | .void => .ok 0
  | .scalar type => .ok type.size
  | .pointer _ => .ok pointerSize
  | .function _ _ _ => .ok pointerSize
  | .array _ none => .ok 0
  | .array element (some length) => do
    return length * (← sizeFrom table pointerSize [] (here ++ above) element)
  | .named key =>
    if cycle : key ∈ here then .error (.malformed (.typedefCycle key))
    else match found : table.get? key with
      | none => .error (.malformed (.unknownType key))
      | some (.record r) => .ok r.size
      | some (.enumeration e) => .ok e.size
      | some (.typedef a) =>
        if again : key ∈ above then .error .endless
        else
          have : table.unseen (key :: here ++ above) < table.unseen (here ++ above) :=
            table.unseen_cons_lt (here ++ above) (by simp [cycle, again])
              (by simp [contains, found])
          sizeFrom table pointerSize (key :: here) above a.target
termination_by (table.unseen (here ++ above), t)

/-- The size of a type in bytes: an array counts its elements, an array of unknown length none,
and types without values have size zero. -/
def sizeOf (table : TypeTable) (t : CType) (pointerSize : Int) : Except Fault Int :=
  sizeFrom table pointerSize [] [] t

end TypeTable

end TrapStub
