import TrapStub.Text

/-!
# C types

References to C types as they occur in declarations. Two references are equal exactly when they
describe the same shape; definitions of structs, enums and typedefs live in a table and are
referred to by key.

* `CType`, with decidable equality.
* `CType.unqualified`: the type without the qualifiers at its top.
* `CType.keys`: the table keys a reference mentions, in reading order.
* `CType.mapNames`: every key replaced by what a function gives for it.
-/

namespace TrapStub

/-- A built-in arithmetic type, or a name from the system headers for one. -/
structure ScalarType where
  spelling : Text
  size : Int
  signed : Bool
  floating : Bool
  deriving DecidableEq, Repr

/-- A reference to a C type. -/
inductive CType where
  | void
  | scalar (type : ScalarType)
  | pointer (target : CType)
  /-- A struct, union, enum or typedef of the type table. -/
  | named (key : Text)
  /-- An array; without a length it is incomplete. -/
  | array (element : CType) (length : Option Int)
  | function (result : CType) (parameters : List CType) (variadic : Bool)
  | qualified (base : CType) (const volatile : Bool)
  deriving Repr, Inhabited

namespace CType

mutual

/-- Equality of types as a test. -/
def beq : CType → CType → Bool
  | void, void => true
  | scalar s, scalar t => s = t
  | pointer a, pointer b => beq a b
  | named k, named l => k = l
  | array a m, array b n => beq a b && m = n
  | function r ps v, function s qs w => beq r s && beqList ps qs && v = w
  | qualified a c v, qualified b d w => beq a b && c = d && v = w
  | _, _ => false

/-- Equality of lists of types as a test. -/
def beqList : List CType → List CType → Bool
  | [], [] => true
  | a :: as, b :: bs => beq a b && beqList as bs
  | _, _ => false

end

mutual

theorem eq_of_beq : ∀ {a b : CType}, beq a b = true → a = b
  | .void, b, h => by cases b <;> simp_all [beq]
  | .scalar s, b, h => by cases b <;> simp_all [beq]
  | .pointer a, b, h => by
    cases b <;> simp only [beq, Bool.false_eq_true] at h
    rw [eq_of_beq h]
  | .named k, b, h => by cases b <;> simp_all [beq]
  | .array a m, b, h => by
    cases b <;> simp only [beq, Bool.and_eq_true, decide_eq_true_eq, Bool.false_eq_true] at h
    rw [eq_of_beq h.1, h.2]
  | .function r ps v, b, h => by
    cases b <;> simp only [beq, Bool.and_eq_true, decide_eq_true_eq, Bool.false_eq_true] at h
    rw [eq_of_beq h.1.1, eq_of_beqList h.1.2, h.2]
  | .qualified a c v, b, h => by
    cases b <;> simp only [beq, Bool.and_eq_true, decide_eq_true_eq, Bool.false_eq_true] at h
    rw [eq_of_beq h.1.1, h.1.2, h.2]

theorem eq_of_beqList : ∀ {as bs : List CType}, beqList as bs = true → as = bs
  | [], bs, h => by cases bs <;> simp_all [beqList]
  | a :: as, bs, h => by
    cases bs <;> simp only [beqList, Bool.and_eq_true, Bool.false_eq_true] at h
    rw [eq_of_beq h.1, eq_of_beqList h.2]

end

mutual

theorem beq_self : ∀ a : CType, beq a a = true
  | .void => rfl
  | .scalar s => by simp [beq]
  | .pointer a => by simp [beq, beq_self a]
  | .named k => by simp [beq]
  | .array a m => by simp [beq, beq_self a]
  | .function r ps v => by simp [beq, beq_self r, beqList_self ps]
  | .qualified a c v => by simp [beq, beq_self a]

theorem beqList_self : ∀ as : List CType, beqList as as = true
  | [] => rfl
  | a :: as => by simp [beqList, beq_self a, beqList_self as]

end

instance : DecidableEq CType := fun a b =>
  decidable_of_iff (beq a b = true) ⟨eq_of_beq, fun h => h ▸ beq_self a⟩

/-- The type without the qualifiers at its top. -/
def unqualified : CType → CType
  | qualified base _ _ => unqualified base
  | t => t

theorem unqualified_unqualified : ∀ t : CType, t.unqualified.unqualified = t.unqualified
  | qualified base _ _ => unqualified_unqualified base
  | void => rfl
  | scalar _ => rfl
  | pointer _ => rfl
  | named _ => rfl
  | array _ _ => rfl
  | function _ _ _ => rfl

mutual

/-- The table keys a type mentions, in reading order. -/
def keys : CType → List Text
  | void => []
  | scalar _ => []
  | pointer target => keys target
  | named key => [key]
  | array element _ => keys element
  | function result parameters _ => keys result ++ keysOfAll parameters
  | qualified base _ _ => keys base

/-- The table keys that some types mention, in reading order. -/
def keysOfAll : List CType → List Text
  | [] => []
  | t :: rest => keys t ++ keysOfAll rest

end

theorem keys_unqualified : ∀ t : CType, t.unqualified.keys = t.keys
  | qualified base _ _ => keys_unqualified base
  | void => rfl
  | scalar _ => rfl
  | pointer _ => rfl
  | named _ => rfl
  | array _ _ => rfl
  | function _ _ _ => rfl

variable {ε : Type}

mutual

/-- The type with every key replaced by its image; parameters are visited before the result, and
the first failure ends the visit. -/
def mapNames (f : Text → Except ε Text) : CType → Except ε CType
  | void => .ok void
  | scalar s => .ok (scalar s)
  | pointer target => do return pointer (← mapNames f target)
  | named key => do return named (← f key)
  | array element length => do return array (← mapNames f element) length
  | function result parameters variadic => do
    let parameters ← mapNamesOfAll f parameters
    return function (← mapNames f result) parameters variadic
  | qualified base const volatile => do return qualified (← mapNames f base) const volatile

/-- `mapNames` for each type in turn. -/
def mapNamesOfAll (f : Text → Except ε Text) : List CType → Except ε (List CType)
  | [] => .ok []
  | t :: rest => do
    let t ← mapNames f t
    return t :: (← mapNamesOfAll f rest)

end

end CType

end TrapStub
