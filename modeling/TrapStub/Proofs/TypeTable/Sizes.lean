import Mathlib.Algebra.BigOperators.Group.List.Basic
import Mathlib.Algebra.Ring.Int.Defs
import TrapStub.Proofs.TypeTable.Chain

/-!
# Sizes

The size of an array is that of its element, once for each of its elements. Behind typedefs the element may be
an array again, so a size is found at the end of a chain of arrays, and each array of it stands behind a chain of
typedefs of its own. A typedef can come back through an array: no single chain of typedefs has it twice, and
still the arrays have no end.

* `Shape.size?`: the size of a shape, unless it is that of an element.
* `TypeTable.Nests`: the arrays inside one another, each of them behind typedefs of its own.
* `TypeTable.Returns`: a typedef comes back through an array.
* `TypeTable.Measures`: what measuring an array by its element comes to, where it comes to an end.
* `TypeTable.sizeFrom_measures`, `TypeTable.sizeOf_eq_iff`: **a size is what measuring comes to**, or the arrays
  have no end.
* `TypeTable.sizeOf_decides`: **what the size of a type says about its arrays**, for every table and every type.
-/

namespace TrapStub

/-- The size of a shape. That of an array is left to its element, unless the array has no length. -/
def Shape.size? (pointerSize : Int) : Shape → Option Int
  | void | array _ none => some 0
  | scalar type => some type.size
  | pointer _ | function _ _ _ => some pointerSize
  | array _ (some _) => none
  | record r => some r.size
  | enumeration e => some e.size

namespace TypeTable

/-- Behind qualifiers and typedefs the type comes to this name. -/
def Meets (table : TypeTable) (t : CType) (key : Text) : Prop :=
  ∃ keys u, table.Follows t keys u ∧ u.unqualified = .named key

/-- The first type is an array of arrays of these lengths, the outermost first, and the innermost of them holds
the second type. Each of them stands behind typedefs of its own. -/
inductive Nests (table : TypeTable) : CType → List Int → CType → Prop
  | here (t : CType) : Nests table t [] t
  | element {t element u : CType} {length : Int} {lengths : List Int}
    (h : table.LeadsTo t (.array element (some length))) (hu : Nests table element lengths u) :
    Nests table t (length :: lengths) u

/-- Inside its arrays the type comes to a typedef that comes to itself inside more of them. -/
def Returns (table : TypeTable) (t : CType) : Prop :=
  ∃ lengths u key inner v, table.Nests t lengths u ∧ table.Meets u key ∧
    inner ≠ [] ∧ table.Nests (.named key) inner v ∧ table.Meets v key

/-- What measuring a type comes to, an array by its element. -/
inductive Measures (table : TypeTable) (pointerSize : Int) : CType → Except Fault Int → Prop
  | shape {t : CType} {shape : Shape} {size : Int} (h : table.LeadsTo t shape)
    (hs : shape.size? pointerSize = some size) : Measures table pointerSize t (.ok size)
  | refused {t : CType} {cause : Malformed} (h : table.lookup t = .error cause) :
    Measures table pointerSize t (.error (.malformed cause))
  | element {t element : CType} {length : Int} {answer : Except Fault Int}
    (h : table.LeadsTo t (.array element (some length))) (ha : Measures table pointerSize element answer) :
    Measures table pointerSize t ((length * ·) <$> answer)

variable {table : TypeTable} {pointerSize : Int} {t u v start : CType} {key : Text} {keys here above : List Text}
  {shape : Shape} {lengths inner : List Int} {answer : Except Fault Int}

/-! ## Shapes and names behind typedefs -/

theorem LeadsTo.lookup (h : table.LeadsTo t shape) : table.lookup t = .ok shape := lookup_eq_ok_iff.2 h

/-- **A type has one shape.** -/
theorem LeadsTo.unique {shape' : Shape} (h : table.LeadsTo t shape) (h' : table.LeadsTo t shape') : shape = shape' :=
  Except.ok.inj (h.lookup.symm.trans h'.lookup)

/-- Qualifiers make no difference to the shape. -/
theorem LeadsTo.of_unqualified (hu : t.unqualified = u.unqualified) (h : table.LeadsTo t shape) :
    table.LeadsTo u shape := by
  obtain ⟨keys, v, hv, hend⟩ := h
  cases hv with
  | here =>
    refine ⟨[], u, .here u, ?_⟩
    cases hend with
    | unnamed h => exact .unnamed (hu ▸ h)
    | defined ht hd h => exact .defined (hu ▸ ht) hd h
  | step ht ha hrest => exact ⟨_, v, .step (hu ▸ ht) ha hrest, hend⟩

/-- Behind a name that a type comes to stands the shape of the type. -/
theorem Meets.leadsTo_iff (h : table.Meets t key) : table.LeadsTo t shape ↔ table.LeadsTo (.named key) shape := by
  obtain ⟨keys, u, hu, hkey⟩ := h
  exact hu.leadsTo_iff.trans ⟨.of_unqualified hkey, .of_unqualified hkey.symm⟩

/-! ## Arrays inside one another -/

namespace Nests

theorem append (h : table.Nests t lengths u) (h' : table.Nests u inner v) : table.Nests t (lengths ++ inner) v := by
  induction h with
  | here => exact h'
  | element hlead _ ih => exact .element hlead (ih h')

theorem split (h : table.Nests t (lengths ++ inner) v) : ∃ u, table.Nests t lengths u ∧ table.Nests u inner v := by
  induction lengths generalizing t with
  | nil => exact ⟨t, .here t, h⟩
  | cons length lengths ih =>
    cases h with
    | element hlead hrest =>
      obtain ⟨u, hu, hv⟩ := ih hrest
      exact ⟨u, .element hlead hu, hv⟩

/-- Behind a name that a type comes to stand the arrays of the type. -/
theorem of_meets (h : table.Nests (.named key) inner v) (hne : inner ≠ []) (ht : table.Meets t key) :
    table.Nests t inner v := by
  cases h with
  | here => exact absurd rfl hne
  | element hlead hrest => exact .element (ht.leadsTo_iff.2 hlead) hrest

end Nests

/-- **Where a typedef comes back through an array the arrays have no end.** -/
theorem Returns.unbounded (h : table.Returns t) (k : ℕ) : ∃ lengths u, table.Nests t lengths u ∧ lengths.length = k := by
  obtain ⟨lengths, u, key, inner, v, hu, hmeets, hne, hinner, hback⟩ := h
  have hpos : 1 ≤ inner.length := List.length_pos_iff.2 hne
  -- each time around the arrays go at least one deeper, and come to the same name again
  have hdeep : ∀ k, ∃ deep w, table.Nests u deep w ∧ k ≤ deep.length ∧ table.Meets w key := by
    intro k
    induction k with
    | zero => exact ⟨[], u, .here u, Nat.zero_le _, hmeets⟩
    | succ k ih =>
      obtain ⟨deep, w, hw, hle, hname⟩ := ih
      refine ⟨deep ++ inner, v, hw.append (hinner.of_meets hne hname), ?_, hback⟩
      rw [List.length_append]
      omega
  obtain ⟨deep, w, hw, hle, -⟩ := hdeep k
  have hlength : k ≤ (lengths ++ deep).length := by
    rw [List.length_append]
    omega
  have hall := hu.append hw
  rw [← List.take_append_drop k (lengths ++ deep)] at hall
  obtain ⟨u', hu', -⟩ := hall.split
  exact ⟨_, u', hu', List.length_take_of_le hlength⟩

/-- What comes back inside an array of a type comes back inside the type. -/
theorem Returns.of_element {element : CType} {length : Int} (h : table.Returns element)
    (ht : table.LeadsTo t (.array element (some length))) : table.Returns t := by
  obtain ⟨lengths, u, key, inner, v, hu, hrest⟩ := h
  exact ⟨length :: lengths, u, key, inner, v, .element ht hu, hrest⟩

/-! ## Measuring -/

namespace Measures

/-- **Measuring comes to one answer.** -/
theorem unique {answer' : Except Fault Int} (h : table.Measures pointerSize t answer)
    (h' : table.Measures pointerSize t answer') : answer = answer' := by
  induction h generalizing answer' with
  | shape hlead hs =>
    cases h' with
    | shape hlead' hs' =>
      obtain rfl := hlead.unique hlead'
      rw [hs] at hs'
      rw [Option.some.inj hs']
    | refused h' => rw [hlead.lookup] at h'; cases h'
    | element hlead' _ => obtain rfl := hlead.unique hlead'; cases hs
  | refused h =>
    cases h' with
    | shape hlead' _ => rw [hlead'.lookup] at h; cases h
    | refused h' => rw [h] at h'; cases h'; rfl
    | element hlead' _ => rw [hlead'.lookup] at h; cases h
  | element hlead _ ih =>
    cases h' with
    | shape hlead' hs' => obtain rfl := hlead.unique hlead'; cases hs'
    | refused h' => rw [hlead.lookup] at h'; cases h'
    | element hlead' ha' => cases hlead.unique hlead'; rw [ih ha']

/-- Where measuring ends the arrays end. -/
theorem bounded (h : table.Measures pointerSize t answer) :
    ∃ k, ∀ lengths u, table.Nests t lengths u → lengths.length ≤ k := by
  induction h with
  | shape hlead hs =>
    refine ⟨0, fun lengths u hu => ?_⟩
    cases hu with
    | here => exact Nat.le_refl 0
    | element hlead' _ => obtain rfl := hlead.unique hlead'; cases hs
  | refused h =>
    refine ⟨0, fun lengths u hu => ?_⟩
    cases hu with
    | here => exact Nat.le_refl 0
    | element hlead' _ => rw [hlead'.lookup] at h; cases h
  | element hlead _ ih =>
    obtain ⟨k, hk⟩ := ih
    refine ⟨k + 1, fun lengths u hu => ?_⟩
    cases hu with
    | here => exact Nat.zero_le _
    | element hlead' hrest =>
      cases hlead.unique hlead'
      exact Nat.succ_le_succ (hk _ _ hrest)

theorem not_returns (h : table.Measures pointerSize t answer) : ¬ table.Returns t := by
  intro hback
  obtain ⟨k, hk⟩ := h.bounded
  obtain ⟨lengths, u, hu, hlength⟩ := hback.unbounded (k + 1)
  have hle := hk lengths u hu
  omega

/-- **A size is the product of the lengths and of the size of the last shape.** -/
theorem ok_iff {n : Int} : table.Measures pointerSize t (.ok n) ↔ ∃ lengths u shape size, table.Nests t lengths u ∧
    table.LeadsTo u shape ∧ shape.size? pointerSize = some size ∧ n = lengths.prod * size := by
  constructor
  · intro h
    generalize hanswer : (Except.ok n : Except Fault Int) = answer at h
    -- the size of the element is that of the rest of the arrays
    induction h generalizing n with
    | @shape t shape size hlead hs =>
      obtain rfl := Except.ok.inj hanswer
      exact ⟨[], t, shape, n, .here t, hlead, hs, (one_mul n).symm⟩
    | refused => cases hanswer
    | @element t element length answer hlead _ ih =>
      obtain ⟨m, rfl, rfl⟩ := map_eq_ok.1 hanswer.symm
      obtain ⟨lengths, u, shape, size, hu, hshape, hs, rfl⟩ := ih rfl
      refine ⟨length :: lengths, u, shape, size, .element hlead hu, hshape, hs, ?_⟩
      rw [List.prod_cons, mul_assoc]
  · rintro ⟨lengths, u, shape, size, hu, hshape, hs, rfl⟩
    induction hu with
    | here => rw [List.prod_nil, one_mul]; exact .shape hshape hs
    | element hlead _ ih =>
      rw [List.prod_cons, mul_assoc]
      exact .element hlead (ih hshape)

/-- **Measuring fails as the look-up inside the arrays does**, and in no other way. -/
theorem error_iff {fault : Fault} : table.Measures pointerSize t (.error fault) ↔ ∃ lengths u cause,
    table.Nests t lengths u ∧ table.lookup u = .error cause ∧ fault = .malformed cause := by
  constructor
  · intro h
    generalize hanswer : (Except.error fault : Except Fault Int) = answer at h
    induction h with
    | shape => cases hanswer
    | @refused t cause h => exact ⟨[], t, cause, .here t, h, Except.error.inj hanswer⟩
    | @element t element length answer hlead _ ih =>
      obtain ⟨lengths, u, cause, hu, hrefused⟩ := ih (map_eq_error.1 hanswer.symm).symm
      exact ⟨length :: lengths, u, cause, .element hlead hu, hrefused⟩
  · rintro ⟨lengths, u, cause, hu, hrefused, rfl⟩
    induction hu with
    | here => exact .refused hrefused
    | element hlead _ ih => exact .element hlead (ih hrefused)

theorem ne_endless (h : table.Measures pointerSize t answer) : answer ≠ .error .endless := by
  rintro rfl
  obtain ⟨-, -, cause, -, -, hfault⟩ := error_iff.1 h
  cases hfault

end Measures

/-! ## The walk -/

/-- A look-up fails in one of two ways. -/
theorem lookup_eq_error {cause : Malformed} (h : table.lookup t = .error cause) :
    (∃ key, cause = .unknownType key) ∨ ∃ key, cause = .typedefCycle key := by
  obtain ⟨keys, u, -, -, hshows⟩ := table.lookup_shows t
  rw [h] at hshows
  cases cause with
  | unknownType key => exact .inl ⟨key, rfl⟩
  | typedefCycle key => exact .inr ⟨key, rfl⟩
  | _ => exact hshows.elim

/-- The size of an array, from that of its element. -/
theorem sizeFrom_array {element : CType} {length : Int} :
    table.sizeFrom pointerSize here above (.array element (some length)) =
      (length * ·) <$> table.sizeFrom pointerSize [] (here ++ above) element := by
  rw [sizeFrom]
  cases table.sizeFrom pointerSize [] (here ++ above) element <;> rfl

/-- What a key leads to. -/
theorem sizeFrom_named : table.sizeFrom pointerSize here above (.named key) =
    if key ∈ here then .error (.malformed (.typedefCycle key))
    else match table.get? key with
      | none => .error (.malformed (.unknownType key))
      | some (.record r) => .ok r.size
      | some (.enumeration e) => .ok e.size
      | some (.typedef a) =>
        if key ∈ above then .error .endless
        else table.sizeFrom pointerSize (key :: here) above a.target := by
  rw [sizeFrom]
  split
  · rfl
  · split <;> rename_i hget <;> simp only [hget]
    rfl

/-- How a walk has come from the element of an array to a type: the keys since then are those that the look-up
of the element has seen, and inside each of the keys before them stands the element. -/
structure Walk (table : TypeTable) (start : CType) (here above : List Text) (t : CType) : Prop where
  lookup : table.lookup start = table.lookupFrom here t
  reached : ∃ keys u, table.Follows start keys u ∧ u.unqualified = t.unqualified
  followed : ∀ key ∈ here, table.Meets start key
  enclosing : ∀ key ∈ above, ∃ lengths, lengths ≠ [] ∧ table.Nests (.named key) lengths start

namespace Walk

theorem enter (h : ∀ key ∈ above, ∃ lengths, lengths ≠ [] ∧ table.Nests (.named key) lengths t) :
    table.Walk t [] above t :=
  ⟨rfl, ⟨[], t, .here t, rfl⟩, List.forall_mem_nil _, h⟩

theorem base {const volatile : Bool} (h : table.Walk start here above (.qualified t const volatile)) :
    table.Walk start here above t := by
  refine ⟨?_, h.reached, h.followed, h.enclosing⟩
  rw [h.lookup, lookupFrom, lookupFrom, CType.head]

theorem leadsTo (h : table.Walk start here above t) (ht : t.head = .shape shape) : table.LeadsTo start shape :=
  lookup_eq_ok_iff.1 (h.lookup.trans (lookupFrom_shape ht))

/-- The element of an array stands inside all keys so far. -/
theorem element {element : CType} {length : Int} (h : table.Walk start here above (.array element (some length))) :
    table.Walk element [] (here ++ above) element := by
  have hlead := h.leadsTo rfl
  refine .enter fun key hkey => ?_
  rcases List.mem_append.1 hkey with hkey | hkey
  · have hname := (h.followed key hkey).leadsTo_iff.1 hlead
    exact ⟨[length], List.cons_ne_nil _ _, .element hname (.here element)⟩
  · obtain ⟨lengths, -, hstart⟩ := h.enclosing key hkey
    exact ⟨lengths ++ [length], by simp, hstart.append (.element hlead (.here element))⟩

theorem typedef {a : Typedef} (h : table.Walk start here above (.named key)) (hnew : key ∉ here)
    (ha : table.get? key = some (.typedef a)) : table.Walk start (key :: here) above a.target := by
  obtain ⟨keys, u, hu, hkey⟩ := h.reached
  refine ⟨?_, ⟨keys ++ [key], a.target, hu.append (.step hkey ha (.here _)), rfl⟩,
    List.forall_mem_cons.2 ⟨⟨keys, u, hu, hkey⟩, h.followed⟩, h.enclosing⟩
  rw [h.lookup, lookupFrom_key (CType.head_eq_key.2 rfl), if_neg hnew, ha]

/-- A key from above an array that is met again comes back through the array. -/
theorem returns (h : table.Walk start here above (.named key)) (hkey : key ∈ above) : table.Returns start := by
  obtain ⟨lengths, hne, hstart⟩ := h.enclosing key hkey
  have hmeets : table.Meets start key := h.reached
  exact ⟨[], start, key, lengths, start, .here start, hmeets, hne, hstart, hmeets⟩

end Walk

/-- **A walk comes to what measuring comes to, or a typedef comes back through an array.** -/
theorem sizeFrom_measures (h : table.Walk start here above t) :
    table.Measures pointerSize start (table.sizeFrom pointerSize here above t) ∨
      table.sizeFrom pointerSize here above t = .error .endless ∧ table.Returns start := by
  -- along the walk; the look-up of the element goes with it until the next array
  induction here, above, t using sizeFrom.induct table generalizing start with
  | case1 here above base const volatile ih =>
    rw [sizeFrom]
    exact ih h.base
  | case2 here above | case3 here above type | case4 here above target | case5 here above result parameters variadic
  | case6 here above element =>
    rw [sizeFrom]
    exact .inl (.shape (h.leadsTo rfl) rfl)
  | case7 here above element length ih =>
    rw [sizeFrom_array]
    refine (ih h.element).imp (Measures.element (h.leadsTo rfl)) ?_
    rintro ⟨hendless, hback⟩
    exact ⟨map_eq_error.2 hendless, hback.of_element (h.leadsTo rfl)⟩
  | case8 here above key hkey =>
    rw [sizeFrom_named, if_pos hkey]
    have hlookup : table.lookup start = .error (.typedefCycle key) := by
      rw [h.lookup, lookupFrom_key rfl, if_pos hkey]
    exact .inl (.refused hlookup)
  | case9 here above key hnew hget =>
    rw [sizeFrom_named, if_neg hnew, hget]
    have hlookup : table.lookup start = .error (.unknownType key) := by
      rw [h.lookup, lookupFrom_key rfl, if_neg hnew, hget]
    exact .inl (.refused hlookup)
  | case10 here above key hnew r hget =>
    rw [sizeFrom_named, if_neg hnew, hget]
    have hlookup : table.lookup start = .ok (.record r) := by
      rw [h.lookup, lookupFrom_key rfl, if_neg hnew, hget]
    exact .inl (.shape (lookup_eq_ok_iff.1 hlookup) rfl)
  | case11 here above key hnew e hget =>
    rw [sizeFrom_named, if_neg hnew, hget]
    have hlookup : table.lookup start = .ok (.enumeration e) := by
      rw [h.lookup, lookupFrom_key rfl, if_neg hnew, hget]
    exact .inl (.shape (lookup_eq_ok_iff.1 hlookup) rfl)
  | case12 here above key hnew a hget hback =>
    rw [sizeFrom_named, if_neg hnew, hget]
    exact .inr ⟨if_pos hback, h.returns hback⟩
  | case13 here above key hnew a hget hfresh _ ih =>
    rw [sizeFrom_named, if_neg hnew, hget]
    dsimp only
    rw [if_neg hfresh]
    exact ih (h.typedef hnew hget)

/-! ## Sizes -/

theorem sizeOf_measures (table : TypeTable) (t : CType) (pointerSize : Int) :
    table.Measures pointerSize t (table.sizeOf t pointerSize) ∨
      table.sizeOf t pointerSize = .error .endless ∧ table.Returns t :=
  sizeFrom_measures (.enter (List.forall_mem_nil _))

/-- **A size is what measuring comes to.** -/
theorem sizeOf_eq_iff (hends : answer ≠ .error .endless) :
    table.sizeOf t pointerSize = answer ↔ table.Measures pointerSize t answer := by
  constructor
  · rintro rfl
    exact (sizeOf_measures table t pointerSize).resolve_right fun h => hends h.1
  · intro h
    rcases sizeOf_measures table t pointerSize with h' | ⟨-, hback⟩
    · exact h'.unique h
    · exact absurd hback h.not_returns

/-- **Measuring is endless just where a typedef comes back through an array.** -/
theorem sizeOf_endless_iff : table.sizeOf t pointerSize = .error .endless ↔ table.Returns t := by
  constructor
  · intro h
    rcases sizeOf_measures table t pointerSize with h' | ⟨-, hback⟩
    · exact absurd h h'.ne_endless
    · exact hback
  · intro hback
    rcases sizeOf_measures table t pointerSize with h' | ⟨h, -⟩
    · exact absurd hback h'.not_returns
    · exact h

/-- Arrays without an end come back to a typedef, for the table has only so many. -/
theorem returns_iff_unbounded : table.Returns t ↔ ∀ k, ∃ lengths u, table.Nests t lengths u ∧ lengths.length = k := by
  refine ⟨Returns.unbounded, fun hdeep => ?_⟩
  -- measuring ends, and then the arrays do, or it stops at what comes back
  rcases sizeOf_measures table t 0 with h | ⟨-, hback⟩
  · obtain ⟨k, hk⟩ := h.bounded
    obtain ⟨lengths, u, hu, hlength⟩ := hdeep (k + 1)
    have hle := hk lengths u hu
    omega
  · exact hback

/-- What the size of a type says about the arrays that it is made of. -/
structure Sizes (table : TypeTable) (t : CType) (pointerSize : Int) : Prop where
  /-- A size is found just if the arrays end in a shape that has one, and it is their product. -/
  size : ∀ n, table.sizeOf t pointerSize = .ok n ↔ ∃ lengths u shape size, table.Nests t lengths u ∧
    table.LeadsTo u shape ∧ shape.size? pointerSize = some size ∧ n = lengths.prod * size
  /-- An array without a length makes the size zero, whatever its element is. -/
  incomplete : ∀ lengths u element, table.Nests t lengths u → table.LeadsTo u (.array element none) →
    table.sizeOf t pointerSize = .ok 0
  /-- A type is unknown just if a chain of typedefs comes to a key that the table lacks. -/
  unknown : ∀ key, table.sizeOf t pointerSize = .error (.malformed (.unknownType key)) ↔
    ∃ lengths u keys v, table.Nests t lengths u ∧ table.Follows u keys v ∧ table.Misses v key
  /-- A cycle is reported just if one chain of typedefs comes back to a key, for the first such key. -/
  cycle : ∀ key, table.sizeOf t pointerSize = .error (.malformed (.typedefCycle key)) ↔
    ∃ lengths u keys v, table.Nests t lengths u ∧ table.Follows u keys v ∧ keys.Nodup ∧
      v.unqualified = .named key ∧ key ∈ keys
  /-- Measuring has no end just if a typedef comes back through an array. -/
  endless : table.sizeOf t pointerSize = .error .endless ↔ table.Returns t
  /-- It does so just if there are arrays at every depth. -/
  unbounded : table.Returns t ↔ ∀ k, ∃ lengths u, table.Nests t lengths u ∧ lengths.length = k
  /-- One of the four comes about. -/
  outcome : (∃ n, table.sizeOf t pointerSize = .ok n) ∨
    (∃ key, table.sizeOf t pointerSize = .error (.malformed (.unknownType key))) ∨
    (∃ key, table.sizeOf t pointerSize = .error (.malformed (.typedefCycle key))) ∨
    table.sizeOf t pointerSize = .error .endless

/-- A type is refused just if its look-up is, or that of a type inside its arrays. -/
theorem sizeOf_eq_malformed_iff {cause : Malformed} : table.sizeOf t pointerSize = .error (.malformed cause) ↔
    ∃ lengths u, table.Nests t lengths u ∧ table.lookup u = .error cause := by
  have hends : (Except.error (.malformed cause) : Except Fault Int) ≠ .error .endless := by simp [Fault.malformed]
  rw [sizeOf_eq_iff hends, Measures.error_iff]
  constructor
  · rintro ⟨lengths, u, _, hu, hrefused, hcause⟩
    cases hcause
    exact ⟨lengths, u, hu, hrefused⟩
  · rintro ⟨lengths, u, hu, hrefused⟩
    exact ⟨lengths, u, cause, hu, hrefused, rfl⟩

theorem sizeOf_eq_ok_iff {n : Int} : table.sizeOf t pointerSize = .ok n ↔ ∃ lengths u shape size,
    table.Nests t lengths u ∧ table.LeadsTo u shape ∧ shape.size? pointerSize = some size ∧ n = lengths.prod * size := by
  have hends : (Except.ok n : Except Fault Int) ≠ .error .endless := by simp
  rw [sizeOf_eq_iff hends, Measures.ok_iff]

/-- **What the size of a type says about its arrays**, in every table and for every type. -/
theorem sizeOf_decides (table : TypeTable) (t : CType) (pointerSize : Int) : table.Sizes t pointerSize where
  size n := sizeOf_eq_ok_iff
  incomplete lengths u element hu hlead :=
    sizeOf_eq_ok_iff.2 ⟨lengths, u, .array element none, 0, hu, hlead, rfl, (Int.mul_zero _).symm⟩
  unknown key := by
    rw [sizeOf_eq_malformed_iff]
    simp only [lookup_eq_unknown_iff, exists_and_left]
  cycle key := by
    rw [sizeOf_eq_malformed_iff]
    simp only [lookup_eq_cycle_iff, exists_and_left]
  endless := sizeOf_endless_iff
  unbounded := returns_iff_unbounded
  outcome := by
    rcases sizeOf_measures table t pointerSize with h | ⟨h, -⟩
    · cases hanswer : table.sizeOf t pointerSize with
      | ok n => exact .inl ⟨n, rfl⟩
      | error fault =>
        rw [hanswer] at h
        obtain ⟨-, u, cause, -, hrefused, rfl⟩ := Measures.error_iff.1 h
        rcases lookup_eq_error hrefused with ⟨key, rfl⟩ | ⟨key, rfl⟩
        · exact .inr (.inl ⟨key, rfl⟩)
        · exact .inr (.inr (.inl ⟨key, rfl⟩))
    · exact .inr (.inr (.inr h))

/-- A typedef of arrays of itself. -/
def knotTable : TypeTable :=
  ⟨[.typedef { key := "a", target := .array (.named "a") (some 2), origin := "a.h", comment := none }], true⟩

/-- No chain of typedefs has the typedef twice, so no cycle is reported. -/
theorem knotTable_endless : knotTable.Returns (.named "a") ∧ knotTable.sizeOf (.named "a") 4 = .error .endless ∧
    ¬ ∃ cause, knotTable.sizeOf (.named "a") 4 = .error (.malformed cause) := by
  have hname : knotTable.Meets (.named "a") "a" := ⟨[], _, .here _, rfl⟩
  have harray : knotTable.LeadsTo (.named "a") (.array (.named "a") (some 2)) :=
    ⟨["a"], .array (.named "a") (some 2), .step rfl rfl (.here _), .unnamed rfl⟩
  have hback : knotTable.Returns (.named "a") :=
    ⟨[], _, "a", [2], _, .here _, hname, List.cons_ne_nil _ _, .element harray (.here _), hname⟩
  have hendless : knotTable.sizeOf (.named "a") 4 = .error .endless := sizeOf_endless_iff.2 hback
  refine ⟨hback, hendless, ?_⟩
  rintro ⟨cause, hcause⟩
  rw [hendless] at hcause
  cases hcause

end TypeTable

end TrapStub
