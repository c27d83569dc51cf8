import TrapStub.Proofs.TypeTable.History

/-!
# Types stay resolved

A type that leads to more than the name of a record leads to the same shape for as long as the table
is filled: typedefs stay as they are, and so does the definition that the last of them ends in. Only
the name of a record may become something else.

* `Shape.IsDefined`: the shape is more than the name of a record.
* `TypeTable.Extends`: what a table keeps of an earlier one.
* `TypeTable.lookupFrom_key`: following one key, as an equation.
* `TypeTable.Extends.lookup`: **the shape of a type stays in every table that keeps the definitions.**
-/

namespace TrapStub

/-- The shape is more than the name of a record. -/
def Shape.IsDefined : Shape → Prop
  | .record r => r.isComplete = true
  | _ => True

namespace TypeTable

variable {table table' : TypeTable} {seen : List Text} {t : CType} {shape : Shape} {key : Text}
  {d stored : TypeDef}

/-- Every definition of the first table but the names of records is one of the second. -/
def Extends (table table' : TypeTable) : Prop :=
  ∀ key d, table.get? key = some d → d.isForward = false → table'.get? key = some d

theorem Extends.refl (table : TypeTable) : table.Extends table := fun _ _ hget _ => hget

theorem Extends.trans {table'' : TypeTable} (h : table.Extends table') (h' : table'.Extends table'') :
    table.Extends table'' :=
  fun key d hget hd => h' key d (h key d hget hd) hd

/-- Registering keeps what is defined. -/
theorem extends_of_register (hn : table.keys.Nodup) (h : table.register d = .ok (table', stored)) :
    table.Extends table' :=
  fun _ _ hget hd => (register_cases h).get?_of_settled hn hget hd

/-- A table keeps what is defined through all steps of its history. -/
theorem tableAt_extends (actions : List Action) {m n : Nat} (hmn : m ≤ n) :
    (tableAt actions m).Extends (tableAt actions n) := by
  intro key d hget hd
  refine (tableAt_mono hmn hget).resolve_right fun hchanged => ?_
  rw [hd] at hchanged
  exact Bool.false_ne_true hchanged.1

/-- What a key leads to. -/
theorem lookupFrom_key (h : t.head = .key key) : table.lookupFrom seen t =
    if key ∈ seen then .error (.typedefCycle key)
    else match table.get? key with
      | none => .error (.unknownType key)
      | some (.record r) => .ok (.record r)
      | some (.enumeration e) => .ok (.enumeration e)
      | some (.typedef a) => table.lookupFrom (key :: seen) a.target := by
  rw [lookupFrom, h]
  dsimp only
  split
  · rfl
  · split <;> rename_i hget <;> rw [hget]

theorem lookupFrom_shape (h : t.head = .shape shape) : table.lookupFrom seen t = .ok shape := by
  rw [lookupFrom, h]

theorem Extends.lookupFrom (h : table.Extends table') (hshape : shape.IsDefined)
    (hlookup : table.lookupFrom seen t = .ok shape) : table'.lookupFrom seen t = .ok shape := by
  -- along the typedefs that are followed: each of them, and the definition at the end, is kept
  induction seen, t using TypeTable.lookupFrom.induct table with
  | case1 seen t found hhead =>
    rw [lookupFrom_shape hhead] at hlookup ⊢
    exact hlookup
  | case2 seen t key hhead hseen =>
    rw [lookupFrom_key hhead, if_pos hseen] at hlookup
    cases hlookup
  | case3 seen t key hhead hseen hget =>
    rw [lookupFrom_key hhead, if_neg hseen, hget] at hlookup
    cases hlookup
  | case4 seen t key hhead hseen r hget =>
    rw [lookupFrom_key hhead, if_neg hseen, hget] at hlookup
    obtain rfl := Except.ok.inj hlookup
    have hkept := h key _ hget (by rw [TypeDef.isForward, hshape]; rfl)
    rw [lookupFrom_key hhead, if_neg hseen, hkept]
  | case5 seen t key hhead hseen e hget =>
    rw [lookupFrom_key hhead, if_neg hseen, hget] at hlookup
    rw [lookupFrom_key hhead, if_neg hseen, h key _ hget rfl]
    exact hlookup
  | case6 seen t key hhead hseen a hget _ ih =>
    rw [lookupFrom_key hhead, if_neg hseen, hget] at hlookup
    rw [lookupFrom_key hhead, if_neg hseen, h key _ hget rfl]
    exact ih hlookup

/-- **The shape of a type stays** in every table that keeps the definitions. -/
theorem Extends.lookup (h : table.Extends table') (hshape : shape.IsDefined) (hlookup : table.lookup t = .ok shape) :
    table'.lookup t = .ok shape :=
  h.lookupFrom hshape hlookup

theorem extends_freeze (table : TypeTable) : table.Extends table.freeze := fun _ _ hget _ => hget

end TypeTable

end TrapStub
